import PosChain.Base.Action
import PosChain.Base.Slices
import PosChain.Ethereum.Common

namespace PosChain.Mempool.HeightStore

-- What a transaction says. Its sender is the one its signature gives.
structure Content where
  sender : Address
  nonce : Nat
  gasFeeCap : Nat
  gasTipCap : Nat
  gas : Nat
  blobGas : Nat
  data : Bytes
  deriving DecidableEq

-- A transaction with the time at which this node has seen it.
structure Transaction where
  content : Content
  time : Nat

abbrev Transactions := List Transaction

structure LazyTransaction where
  hash : Hash
  tx : Transaction
  time : Nat
  gasFeeCap : Nat
  gasTipCap : Nat
  gas : Nat
  blobGas : Nat

abbrev Pending := Address → Option (List LazyTransaction)

structure PendingFilter where
  minTip : Option Nat
  baseFee : Option Nat
  onlyBlobTxs : Bool

-- What the store takes from elsewhere: hashes, which do not collide on what is known, the
-- sort of slices, which is not stable, their growth, and the comparison of tips.
structure Env where
  hash : Content → Hash
  known : Set Content
  hash_injOn : Set.InjOn hash known
  sortByNonce : Transactions → Transactions
  sort_perm : ∀ txs, (sortByNonce txs).Perm txs
  sort_ordered : ∀ txs, (sortByNonce txs).Pairwise fun a b => a.content.nonce ≤ b.content.nonce
  spare : Nat → Nat → Nat
  effectiveGasTipIntCmp : Transaction → Nat → Option Nat → Int

structure TxStore where
  txs : Address → Option Slice
  lookup : Finset Hash
  total : Nat

def newTxStore : TxStore :=
  ⟨fun _ => none, ∅, 0⟩

-- The store with the memory that it shares with its callers, who keep the arrays they
-- have made.
structure Machine where
  mem : Memory Transaction
  store : TxStore
  callers : Finset Nat

section Calls

variable (env : Env) (m : Machine)

-- The transactions that are not in the lookup yet, each once, and the lookup with them.
def fresh : Finset Hash → Transactions → Transactions × Finset Hash
  | lookup, [] => ([], lookup)
  | lookup, tx :: rest =>
    if env.hash tx.content ∈ lookup then fresh lookup rest
    else (tx :: (fresh (insert (env.hash tx.content) lookup) rest).1,
      (fresh (insert (env.hash tx.content) lookup) rest).2)

-- The new slice is filled within the capacity it was made with.
def addTxs (addr : Address) (txs : Slice) : Check Machine :=
  match m.mem.read txs with
  | none => .error nilDereference
  | some passed =>
    let (toAdd, lookup) := fresh env m.store.lookup passed
    let (mem, made) := m.mem.alloc
      (toAdd.map some ++ List.replicate (passed.length - toAdd.length) none) toAdd.length
    let (mem, slice) :=
      match m.store.txs addr with
      | some existing => mem.append env.spare existing toAdd
      | none => (mem, made)
    .ok ⟨mem, ⟨Function.update m.store.txs addr (some slice),
      toAdd.foldl (fun lookup tx => insert (env.hash tx.content) lookup) lookup,
      (m.store.total + toAdd.length) % 2 ^ 64⟩, m.callers⟩

def addTx (addr : Address) (tx : Transaction) : Check Machine :=
  addTxs env { m with mem := (m.mem.alloc [some tx] 1).1 } addr (m.mem.alloc [some tx] 1).2

-- The counter is a uint64, and so would wrap below zero.
def removeTxsFromNonce (addr : Address) (minNonce : Nat) : Check Machine :=
  match m.store.txs addr with
  | none => .ok m
  | some txs =>
    match m.mem.keepInPlace (fun tx => decide (tx.content.nonce < minNonce)) txs with
    | none => .error nilDereference
    | some (mem, next, removed) =>
      .ok ⟨mem, ⟨Function.update m.store.txs addr (if next.len = 0 then none else some next),
        removed.foldl (fun lookup tx => lookup.erase (env.hash tx.content)) m.store.lookup,
        (m.store.total + (2 ^ 64 - removed.length % 2 ^ 64)) % 2 ^ 64⟩, m.callers⟩

def removeTx (addr : Address) (tx : Transaction) : Check Machine :=
  removeTxsFromNonce env m addr tx.content.nonce

def mustFromBig (n : Nat) : Check Nat :=
  if 2 ^ 256 ≤ n then .error (.panic "overflow") else .ok n

def wrap (tx : Transaction) : Check LazyTransaction := do
  let gasFeeCap ← mustFromBig tx.content.gasFeeCap
  let gasTipCap ← mustFromBig tx.content.gasTipCap
  return ⟨env.hash tx.content, tx, tx.time, gasFeeCap, gasTipCap, tx.content.gas, tx.content.blobGas⟩

def tipped (filter : PendingFilter) (txs : Transactions) : Transactions :=
  match filter.minTip with
  | none => txs
  | some minTip => txs.takeWhile fun tx => decide (¬ env.effectiveGasTipIntCmp tx minTip filter.baseFee < 0)

def filterAndWrapTxs (filter : PendingFilter) (txs : Transactions) : Check (List LazyTransaction) :=
  (tipped env filter txs).mapM (wrap env)

-- One account of the loop over the map, sorted in the store's own slice.
def collect (filter : PendingFilter) (state : Machine × Pending) (addr : Address) : Check (Machine × Pending) :=
  match state.1.store.txs addr with
  | none => .ok state
  | some slice =>
    match state.1.mem.read slice with
    | none => .error nilDereference
    | some txs =>
      (filterAndWrapTxs env filter (env.sortByNonce txs)).map fun lazies =>
        ({ state.1 with mem := state.1.mem.overwrite slice (env.sortByNonce txs) },
          if 0 < lazies.length then Function.update state.2 addr (some lazies) else state.2)

-- A map is ranged over in any order of its keys.
def txs (filter : PendingFilter) (order : List Address) : Check (Machine × Pending) :=
  if filter.onlyBlobTxs then .ok (m, fun _ => none)
  else order.foldlM (collect env filter) (m, fun _ => none)

end Calls

inductive Event where
  | make (cells : List (Option Transaction))
  | write (array index : Nat) (cell : Option Transaction)
  | addTxs (addr : Address) (txs : Slice)
  | addTx (addr : Address) (tx : Transaction)
  | removeTx (addr : Address) (tx : Transaction)
  | removeTxsFromNonce (addr : Address) (minNonce : Nat)
  | txs (filter : PendingFilter) (order : List Address)

namespace Machine

def initial : Machine :=
  ⟨⟨fun _ => [], 0⟩, newTxStore, ∅⟩

def step (env : Env) (m : Machine) : Event → Check Machine
  | .make cells =>
    .ok { m with mem := (m.mem.alloc cells cells.length).1, callers := insert m.mem.next m.callers }
  | .write array index cell =>
    .ok { m with mem := m.mem.set array ((m.mem.arrays array).set index cell) }
  | .addTxs addr txs => HeightStore.addTxs env m addr txs
  | .addTx addr tx => HeightStore.addTx env m addr tx
  | .removeTx addr tx => HeightStore.removeTx env m addr tx
  | .removeTxsFromNonce addr minNonce => HeightStore.removeTxsFromNonce env m addr minNonce
  | .txs filter order => (HeightStore.txs env m filter order).map Prod.fst

def run (env : Env) (m : Machine) (events : List Event) : Check Machine :=
  events.foldlM (step env) m

def stored (m : Machine) (addr : Address) : Transactions :=
  match m.store.txs addr with
  | none => []
  | some slice => (m.mem.read slice).getD []

def contents (m : Machine) (addr : Address) : Finset Content :=
  ((m.stored addr).map Transaction.content).toFinset

-- A transaction may be added under its sender. Its fee caps fit into 256 bits, as the pool
-- admits it.
def MayAdd (env : Env) (addr : Address) (tx : Transaction) : Prop :=
  tx.content.sender = addr ∧ tx.content ∈ env.known ∧
    tx.content.gasFeeCap < 2 ^ 256 ∧ tx.content.gasTipCap < 2 ^ 256

-- A caller writes to its own arrays only. The order of a map lists each key once.
def Allowed (env : Env) (m : Machine) : Event → Prop
  | .write array _ _ => array ∈ m.callers
  | .addTxs addr txs => txs.array ∈ m.callers ∧
      ∃ passed, m.mem.read txs = some passed ∧ ∀ tx ∈ passed, MayAdd env addr tx
  | .addTx addr tx => MayAdd env addr tx
  | .txs _ order => order.Nodup ∧ ∀ addr, addr ∈ order ↔ (m.store.txs addr).isSome
  | _ => True

def AllAllowed (env : Env) : Machine → List Event → Prop
  | _, [] => True
  | m, e :: rest => m.Allowed env e ∧ ∀ m', step env m e = .ok m' → AllAllowed env m' rest

end Machine

open Machine

structure Consistent (env : Env) (items : Address → Transactions) (lookup : Finset Hash) (total : Nat) : Prop where
  sent : ∀ a, ∀ tx ∈ items a, MayAdd env a tx
  distinct : ∀ a, ((items a).map Transaction.content).Nodup
  known : ∀ h, h ∈ lookup ↔ ∃ a, ∃ tx ∈ items a, env.hash tx.content = h
  total : total = lookup.card % 2 ^ 64

section Sets

variable {env : Env} {items : Address → Transactions} {lookup : Finset Hash} {total : Nat}

def hashes (env : Env) (txs : Transactions) : List Hash :=
  txs.map fun tx => env.hash tx.content

theorem mem_hashes {txs : Transactions} {h : Hash} :
    h ∈ hashes env txs ↔ ∃ tx ∈ txs, env.hash tx.content = h :=
  List.mem_map

theorem Consistent.hashes_nodup (h : Consistent env items lookup total) (a : Address) :
    (hashes env (items a)).Nodup := by
  have hdistinct := h.distinct a
  refine List.Nodup.map_on ?_ hdistinct.of_map
  intro tx htx tx' htx' heq
  have hcontent := env.hash_injOn (h.sent a tx htx).2.1 (h.sent a tx' htx').2.1 heq
  exact List.inj_on_of_nodup_map hdistinct htx htx' hcontent

theorem Consistent.of_lookup (h : Consistent env items lookup total) {addr : Address} {tx : Transaction}
    (htx : MayAdd env addr tx) (hin : env.hash tx.content ∈ lookup) :
    ∃ old ∈ items addr, old.content = tx.content := by
  obtain ⟨a, old, hold, heq⟩ := (h.known _).mp hin
  obtain ⟨hsent, hknown, -⟩ := h.sent a old hold
  have hcontent := env.hash_injOn hknown htx.2.1 heq
  rw [hcontent, htx.1] at hsent
  exact ⟨old, hsent ▸ hold, hcontent⟩

theorem exists_update (items : Address → Transactions) (addr : Address) (txs : Transactions)
    (p : Transaction → Prop) :
    (∃ a, ∃ tx ∈ Function.update items addr txs a, p tx) ↔
      (∃ tx ∈ txs, p tx) ∨ ∃ a, a ≠ addr ∧ ∃ tx ∈ items a, p tx := by
  constructor
  · rintro ⟨a, tx, htx, hp⟩
    by_cases ha : a = addr
    · rw [ha, Function.update_self] at htx
      exact .inl ⟨tx, htx, hp⟩
    · rw [Function.update_of_ne ha] at htx
      exact .inr ⟨a, ha, tx, htx, hp⟩
  · rintro (⟨tx, htx, hp⟩ | ⟨a, ha, tx, htx, hp⟩)
    · exact ⟨addr, tx, by rwa [Function.update_self], hp⟩
    · exact ⟨a, tx, by rwa [Function.update_of_ne ha], hp⟩

theorem Consistent.known_split (h : Consistent env items lookup total) (addr : Address) (x : Hash) :
    x ∈ lookup ↔ x ∈ hashes env (items addr) ∨ ∃ a, a ≠ addr ∧ ∃ tx ∈ items a, env.hash tx.content = x := by
  rw [h.known, ← Function.update_eq_self addr items, exists_update, Function.update_eq_self, mem_hashes]

theorem fresh_spec (env : Env) (lookup : Finset Hash) (passed : Transactions) :
    (fresh env lookup passed).1.Sublist passed ∧ (hashes env (fresh env lookup passed).1).Nodup ∧
      (∀ h ∈ hashes env (fresh env lookup passed).1, h ∉ lookup) ∧
      (fresh env lookup passed).2 = lookup ∪ (hashes env (fresh env lookup passed).1).toFinset ∧
      ∀ h ∈ hashes env passed, h ∈ lookup ∨ h ∈ hashes env (fresh env lookup passed).1 := by
  induction passed generalizing lookup with
  | nil => simp [fresh, hashes]
  | cons tx rest ih =>
    by_cases hin : env.hash tx.content ∈ lookup
    · obtain ⟨hsub, hnodup, hnot, hunion, hall⟩ := ih lookup
      rw [fresh, if_pos hin]
      refine ⟨hsub.cons tx, hnodup, hnot, hunion, fun h hh => ?_⟩
      rcases List.mem_cons.mp hh with rfl | hh
      · exact .inl hin
      · exact hall h hh
    · obtain ⟨hsub, hnodup, hnot, hunion, hall⟩ := ih (insert (env.hash tx.content) lookup)
      rw [fresh, if_neg hin]
      refine ⟨hsub.cons_cons tx, ?_, fun h hh => ?_, ?_, fun h hh => ?_⟩
      · exact List.nodup_cons.mpr ⟨fun hh => hnot _ hh (Finset.mem_insert_self ..), hnodup⟩
      · rcases List.mem_cons.mp hh with rfl | hh
        · exact hin
        · exact fun hmem => hnot h hh (Finset.mem_insert_of_mem hmem)
      · change (fresh env _ rest).2 =
          lookup ∪ (env.hash tx.content :: hashes env (fresh env _ rest).1).toFinset
        rw [hunion, List.toFinset_cons, Finset.insert_union, Finset.union_insert]
      · change h ∈ lookup ∨ h ∈ env.hash tx.content :: hashes env (fresh env _ rest).1
        rcases List.mem_cons.mp hh with rfl | hh
        · exact .inr (List.mem_cons_self ..)
        · rcases hall h hh with hmem | hmem
          · rcases Finset.mem_insert.mp hmem with rfl | hmem
            · exact .inr (List.mem_cons_self ..)
            · exact .inl hmem
          · exact .inr (List.mem_cons_of_mem _ hmem)

theorem foldl_insert (txs : Transactions) (lookup : Finset Hash) :
    txs.foldl (fun lookup tx => insert (env.hash tx.content) lookup) lookup =
      lookup ∪ (hashes env txs).toFinset := by
  induction txs generalizing lookup with
  | nil => simp [hashes]
  | cons tx rest ih =>
    rw [List.foldl_cons, ih, Finset.insert_union, ← Finset.union_insert]
    simp [hashes]

theorem foldl_erase (txs : Transactions) (lookup : Finset Hash) :
    txs.foldl (fun lookup tx => lookup.erase (env.hash tx.content)) lookup =
      lookup \ (hashes env txs).toFinset := by
  induction txs generalizing lookup with
  | nil => simp [hashes]
  | cons tx rest ih =>
    rw [List.foldl_cons, ih]
    ext h
    simp [hashes]
    tauto

section

variable (h : Consistent env items lookup total)

include h

theorem Consistent.replace {addr : Address} {txs : Transactions}
    (hsent : ∀ tx ∈ txs, MayAdd env addr tx) (hdistinct : (txs.map Transaction.content).Nodup)
    {lookup' : Finset Hash} {total' : Nat}
    (hknown : ∀ x, x ∈ lookup' ↔ x ∈ hashes env txs ∨ ∃ a, a ≠ addr ∧ ∃ tx ∈ items a, env.hash tx.content = x)
    (htotal : total' = lookup'.card % 2 ^ 64) :
    Consistent env (Function.update items addr txs) lookup' total' := by
  refine ⟨fun a => ?_, fun a => ?_, fun x => ?_, htotal⟩
  · by_cases ha : a = addr
    · rw [ha, Function.update_self]
      exact hsent
    · rw [Function.update_of_ne ha]
      exact h.sent a
  · by_cases ha : a = addr
    · rwa [ha, Function.update_self]
    · rw [Function.update_of_ne ha]
      exact h.distinct a
  · rw [exists_update, hknown, mem_hashes]

theorem Consistent.add {addr : Address} {passed : Transactions} (hpassed : ∀ tx ∈ passed, MayAdd env addr tx) :
    Consistent env (Function.update items addr (items addr ++ (fresh env lookup passed).1))
        ((fresh env lookup passed).1.foldl (fun lookup tx => insert (env.hash tx.content) lookup)
          (fresh env lookup passed).2)
        ((total + (fresh env lookup passed).1.length) % 2 ^ 64) ∧
      ((items addr ++ (fresh env lookup passed).1).map Transaction.content).toFinset =
        ((items addr).map Transaction.content).toFinset ∪ (passed.map Transaction.content).toFinset := by
  obtain ⟨hsub, hnodup, hnot, hunion, hall⟩ := fresh_spec env lookup passed
  generalize (fresh env lookup passed).1 = toAdd at *
  rw [foldl_insert, hunion, Finset.union_assoc, Finset.union_self]
  refine ⟨h.replace (fun tx htx => ?_) ?_ (fun x => ?_) ?_, ?_⟩
  · rcases List.mem_append.mp htx with htx | htx
    · exact h.sent addr tx htx
    · exact hpassed tx (hsub.subset htx)
  · have hboth : (hashes env (items addr ++ toAdd)).Nodup := by
      rw [hashes, List.map_append]
      refine List.Nodup.append (h.hashes_nodup addr) hnodup fun x hold hadd => hnot x hadd ?_
      exact (h.known_split addr x).mpr (.inl hold)
    refine List.Nodup.of_map env.hash ?_
    rwa [List.map_map]
  · have hsplit : x ∈ hashes env (items addr ++ toAdd) ↔ x ∈ hashes env (items addr) ∨ x ∈ hashes env toAdd := by
      rw [hashes, List.map_append]
      exact List.mem_append
    rw [Finset.mem_union, h.known_split addr, List.mem_toFinset, hsplit]
    exact or_right_comm
  · have hcard : (lookup ∪ (hashes env toAdd).toFinset).card = lookup.card + toAdd.length := by
      rw [Finset.card_union_of_disjoint, List.toFinset_card_of_nodup hnodup]
      · simp [hashes]
      · exact Finset.disjoint_left.mpr fun x hx hadd => hnot x (List.mem_toFinset.mp hadd) hx
    rw [hcard, h.total, Nat.mod_add_mod]
  · ext c
    rw [List.map_append, List.toFinset_append, Finset.mem_union, Finset.mem_union]
    refine or_congr_right' fun hold => ?_
    simp only [List.mem_toFinset, List.mem_map]
    constructor
    · rintro ⟨tx, htx, rfl⟩
      exact ⟨tx, hsub.subset htx, rfl⟩
    · rintro ⟨tx, htx, rfl⟩
      have hmay := hpassed tx htx
      rcases hall _ (mem_hashes.mpr ⟨tx, htx, rfl⟩) with hin | hin
      · exact absurd (List.mem_toFinset.mpr (List.mem_map.mpr (h.of_lookup hmay hin))) hold
      · obtain ⟨new, hnew, heq⟩ := mem_hashes.mp hin
        exact ⟨new, hnew, env.hash_injOn (hpassed new (hsub.subset hnew)).2.1 hmay.2.1 heq⟩

theorem Consistent.remove (addr : Address) (minNonce : Nat) :
    Consistent env
      (Function.update items addr ((items addr).filter fun tx => decide (tx.content.nonce < minNonce)))
      (((items addr).filter fun tx => !decide (tx.content.nonce < minNonce)).foldl
        (fun lookup tx => lookup.erase (env.hash tx.content)) lookup)
      ((total + (2 ^ 64 - ((items addr).filter fun tx => !decide (tx.content.nonce < minNonce)).length % 2 ^ 64)) %
        2 ^ 64) := by
  have hnodup := h.hashes_nodup addr
  have hsub : (hashes env ((items addr).filter fun tx => !decide (tx.content.nonce < minNonce))).Sublist
      (hashes env (items addr)) := List.filter_sublist.map _
  rw [foldl_erase]
  refine h.replace (fun tx htx => h.sent addr tx (List.mem_of_mem_filter htx))
    ((h.distinct addr).sublist (List.filter_sublist.map _)) (fun x => ?_) ?_
  · -- A hash of another account, or of a transaction that stays, is not one that is removed.
    have happart : (∃ a, a ≠ addr ∧ ∃ tx ∈ items a, env.hash tx.content = x) →
        x ∉ hashes env (items addr) := by
      rintro ⟨a, ha, tx, htx, rfl⟩ hmem
      obtain ⟨tx', htx', heq⟩ := mem_hashes.mp hmem
      have hcontent := env.hash_injOn (h.sent addr tx' htx').2.1 (h.sent a tx htx).2.1 heq
      rw [← (h.sent a tx htx).1, ← (h.sent addr tx' htx').1, hcontent] at ha
      exact ha rfl
    have hsplit : x ∈ hashes env (items addr) ↔
        (x ∈ hashes env ((items addr).filter fun tx => decide (tx.content.nonce < minNonce)) ∨
          x ∈ hashes env ((items addr).filter fun tx => !decide (tx.content.nonce < minNonce))) := by
      simp only [mem_hashes, List.mem_filter, decide_eq_true_eq, Bool.not_eq_true', decide_eq_false_iff_not]
      constructor
      · rintro ⟨tx, htx, rfl⟩
        by_cases hlt : tx.content.nonce < minNonce
        · exact .inl ⟨tx, ⟨htx, hlt⟩, rfl⟩
        · exact .inr ⟨tx, ⟨htx, hlt⟩, rfl⟩
      · rintro (⟨tx, ⟨htx, -⟩, rfl⟩ | ⟨tx, ⟨htx, -⟩, rfl⟩) <;> exact ⟨tx, htx, rfl⟩
    have honce : x ∈ hashes env ((items addr).filter fun tx => decide (tx.content.nonce < minNonce)) →
        x ∉ hashes env ((items addr).filter fun tx => !decide (tx.content.nonce < minNonce)) := by
      rintro hkept hremoved
      obtain ⟨tx, htx, rfl⟩ := mem_hashes.mp hkept
      obtain ⟨tx', htx', heq⟩ := mem_hashes.mp hremoved
      obtain ⟨htx, hlt⟩ := List.mem_filter.mp htx
      obtain ⟨htx', hge⟩ := List.mem_filter.mp htx'
      have hsame := List.inj_on_of_nodup_map hnodup htx' htx heq
      rw [hsame] at hge
      simp [of_decide_eq_true hlt] at hge
    rw [Finset.mem_sdiff, h.known_split addr, List.mem_toFinset, hsplit]
    have hback : x ∈ hashes env ((items addr).filter fun tx => !decide (tx.content.nonce < minNonce)) →
        x ∈ hashes env (items addr) := fun hmem => hsub.subset hmem
    generalize (∃ a, a ≠ addr ∧ ∃ tx ∈ items a, env.hash tx.content = x) = other at happart ⊢
    tauto
  · have hin : (hashes env ((items addr).filter fun tx => !decide (tx.content.nonce < minNonce))).toFinset ⊆
        lookup := by
      intro x hx
      exact (h.known_split addr x).mpr (.inl (hsub.subset (List.mem_toFinset.mp hx)))
    have hle := Finset.card_le_card hin
    rw [Finset.card_sdiff_of_subset hin]
    rw [List.toFinset_card_of_nodup (hnodup.sublist hsub), hashes, List.length_map] at hle ⊢
    rw [h.total]
    omega

theorem Consistent.perm {items' : Address → Transactions}
    (hperm : ∀ a, (items' a).Perm (items a)) : Consistent env items' lookup total := by
  refine ⟨fun a tx htx => h.sent a tx ((hperm a).subset htx), fun a => ?_, fun x => ?_, h.total⟩
  · exact ((hperm a).map _).nodup_iff.mpr (h.distinct a)
  · rw [h.known]
    refine exists_congr fun a => exists_congr fun tx => and_congr_left' ?_
    exact (hperm a).mem_iff.symm

end

end Sets

section Prefixes

variable {env : Env}

def wrapped (env : Env) (tx : Transaction) : LazyTransaction :=
  ⟨env.hash tx.content, tx, tx.time, tx.content.gasFeeCap, tx.content.gasTipCap, tx.content.gas,
    tx.content.blobGas⟩

def pendingOf (env : Env) (filter : PendingFilter) (sorted : Transactions) : Option (List LazyTransaction) :=
  if tipped env filter sorted = [] then none else some ((tipped env filter sorted).map (wrapped env))

def Tips (env : Env) (filter : PendingFilter) (tx : Transaction) : Prop :=
  ∀ minTip, filter.minTip = some minTip → ¬ env.effectiveGasTipIntCmp tx minTip filter.baseFee < 0

theorem tipped_longest (env : Env) (filter : PendingFilter) (txs : Transactions) :
    ∃ rest, txs = tipped env filter txs ++ rest ∧ (∀ tx ∈ tipped env filter txs, Tips env filter tx) ∧
      ∀ tx ∈ rest.head?, ¬ Tips env filter tx := by
  unfold tipped Tips
  cases filter.minTip with
  | none => exact ⟨[], by simp, by simp, by simp⟩
  | some minTip =>
    refine ⟨_, List.takeWhile_append_dropWhile.symm, fun tx htx => ?_, fun tx htx => ?_⟩
    · have hmeets := List.mem_takeWhile_imp htx
      rintro _ ⟨⟩
      simpa using hmeets
    · have hfails := List.head?_dropWhile_not (fun tx => decide (¬ env.effectiveGasTipIntCmp tx minTip
        filter.baseFee < 0)) txs
      rw [Option.mem_def.mp htx] at hfails
      intro htips
      exact htips minTip rfl (by simpa using hfails)

theorem tipped_sublist (filter : PendingFilter) (txs : Transactions) : (tipped env filter txs).Sublist txs := by
  obtain ⟨rest, hsplit, -⟩ := tipped_longest env filter txs
  nth_rewrite 2 [hsplit]
  exact List.sublist_append_left ..

theorem wrap_ok {addr : Address} {tx : Transaction} (h : MayAdd env addr tx) :
    wrap env tx = .ok (wrapped env tx) := by
  obtain ⟨-, -, hfee, htip⟩ := h
  rw [wrap, mustFromBig, mustFromBig, if_neg (Nat.not_le.mpr hfee), if_neg (Nat.not_le.mpr htip)]
  rfl

theorem filterAndWrapTxs_ok (filter : PendingFilter) {addr : Address} {txs : Transactions}
    (h : ∀ tx ∈ txs, MayAdd env addr tx) :
    filterAndWrapTxs env filter txs = .ok ((tipped env filter txs).map (wrapped env)) := by
  have hfits : ∀ tx ∈ tipped env filter txs, MayAdd env addr tx := fun tx htx =>
    h tx ((tipped_sublist filter txs).subset htx)
  rw [filterAndWrapTxs]
  generalize tipped env filter txs = chosen at *
  induction chosen with
  | nil => rfl
  | cons tx rest ih =>
    rw [List.mapM_cons, wrap_ok (hfits tx (List.mem_cons_self ..)),
      ih fun x hx => hfits x (List.mem_cons_of_mem _ hx)]
    rfl

end Prefixes

namespace Machine

-- The slices of the store share nothing and hold lists that the lookup and the counter fit.
structure Sound (env : Env) (m : Machine) (items : Address → Transactions) : Prop where
  separate : m.mem.Separate m.callers m.store.txs items
  consistent : Consistent env items m.store.lookup m.store.total

variable {env : Env} {m : Machine} {items : Address → Transactions}

theorem initial_sound : initial.Sound env fun _ => [] := by
  refine ⟨⟨fun _ _ => rfl, ?_, ?_, ?_, ?_⟩, ⟨?_, ?_, ?_, rfl⟩⟩ <;> simp [initial, newTxStore]

section

variable (h : m.Sound env items)

include h

theorem Sound.stored : m.stored = items := by
  funext a
  rw [Machine.stored]
  split
  · rename_i hs
    exact (h.separate.absent a hs).symm
  · rename_i slice hs
    rw [(h.separate.holds a slice hs).read]
    rfl

theorem Sound.contents_update {m' : Machine} {addr : Address} {txs : Transactions}
    (h' : m'.Sound env (Function.update items addr txs)) :
    m'.contents = Function.update m.contents addr (txs.map Transaction.content).toFinset := by
  funext a
  rw [contents, h'.stored]
  simp only [Function.update_apply]
  split
  · rfl
  · rw [contents, h.stored]

theorem Sound.outside {mem : Memory Transaction} {written : Set Nat}
    (hagrees : m.mem.Agrees mem written) (hwritten : ∀ k ∈ written, k ∈ m.callers) {callers : Finset Nat}
    (hcallers : ∀ k ∈ callers, k < mem.next ∧ (k ∈ m.callers ∨ m.mem.next ≤ k)) :
    (⟨mem, m.store, callers⟩ : Machine).Sound env items :=
  ⟨h.separate.outside hagrees hwritten hcallers, h.consistent⟩

theorem Sound.make (cells : List (Option Transaction)) :
    ∃ m', step env m (.make cells) = .ok m' ∧ m'.Sound env items := by
  refine ⟨_, rfl, h.outside (m.mem.alloc_agrees cells cells.length ∅) (by simp) fun k hk => ?_⟩
  have hnext : (m.mem.alloc cells cells.length).1.next = m.mem.next + 1 := rfl
  rcases Finset.mem_insert.mp hk with rfl | hk
  · exact ⟨by omega, .inr le_rfl⟩
  · have hlt := h.separate.known k hk
    exact ⟨by omega, .inl hk⟩

theorem Sound.write {array : Nat} (harray : array ∈ m.callers) (index : Nat) (cell : Option Transaction) :
    ∃ m', step env m (.write array index cell) = .ok m' ∧ m'.Sound env items := by
  refine ⟨_, rfl, h.outside (m.mem.set_agrees array _ (Set.mem_singleton _)) ?_ fun k hk => ?_⟩
  · rintro k rfl
    exact harray
  · exact ⟨h.separate.known k hk, .inl hk⟩

theorem Sound.addTxs {addr : Address} {txs : Slice} {passed : Transactions}
    (hread : m.mem.read txs = some passed) (hpassed : ∀ tx ∈ passed, MayAdd env addr tx) :
    ∃ m', HeightStore.addTxs env m addr txs = .ok m' ∧
      m'.Sound env (Function.update items addr (items addr ++ (fresh env m.store.lookup passed).1)) := by
  have hcon := (h.consistent.add hpassed).1
  unfold HeightStore.addTxs
  rw [hread]
  dsimp only
  generalize (fresh env m.store.lookup passed).1 = toAdd at *
  have hholds := m.mem.alloc_holds toAdd (List.replicate (passed.length - toAdd.length) none)
  have hagrees (written : Set Nat) := m.mem.alloc_agrees
    (toAdd.map some ++ List.replicate (passed.length - toAdd.length) none) toAdd.length written
  have hmade : (m.mem.alloc (toAdd.map some ++ List.replicate (passed.length - toAdd.length) none)
      toAdd.length).2.array = m.mem.next := rfl
  have hnext : (m.mem.alloc (toAdd.map some ++ List.replicate (passed.length - toAdd.length) none)
      toAdd.length).1.next = m.mem.next + 1 := rfl
  generalize m.mem.alloc (toAdd.map some ++ List.replicate (passed.length - toAdd.length) none) toAdd.length =
    made at *
  cases hs : m.store.txs addr with
  | none =>
    refine ⟨_, rfl, ⟨h.separate.replace addr (some made.2) _ (hagrees ∅) (by simp) nofun ?_, hcon⟩⟩
    intro s hnew
    cases hnew
    rw [h.separate.absent addr hs]
    exact ⟨.inr hmade.ge, (hmade.trans_lt (Nat.lt_succ_self _)).trans_eq hnext.symm, hholds⟩
  | some existing =>
    have hlt := (h.separate.inside addr existing hs).1
    have hslice : made.1.Holds existing (items addr) :=
      (h.separate.holds addr existing hs).of_arrays ((hagrees ∅).2 _ hlt (Set.notMem_empty _))
    obtain ⟨hagrees', harray, hbelow⟩ := made.1.append_agrees env.spare existing toAdd
    refine ⟨_, rfl, ⟨h.separate.replace addr (some (made.1.append env.spare existing toAdd).2) _
      ((hagrees _).trans hagrees') (fun k hk => ⟨existing, hs, hk.symm⟩) nofun ?_, hcon⟩⟩
    intro s hnew
    cases hnew
    refine ⟨?_, hbelow (by omega), hslice.append env.spare toAdd⟩
    rcases harray with harray | harray
    · exact .inl ⟨existing, hs, harray⟩
    · exact .inr (by omega)

theorem Sound.addTx {addr : Address} {tx : Transaction} (htx : MayAdd env addr tx) :
    ∃ m', HeightStore.addTx env m addr tx = .ok m' ∧
      m'.Sound env (Function.update items addr (items addr ++ (fresh env m.store.lookup [tx]).1)) := by
  have hout := h.outside (m.mem.alloc_agrees [some tx] 1 ∅) (by simp)
    fun k hk => ⟨(h.separate.known k hk).trans (Nat.lt_succ_self _), .inl hk⟩
  exact hout.addTxs (m.mem.alloc_holds [tx] []).read (by simpa using htx)

theorem Sound.remove (addr : Address) (minNonce : Nat) :
    ∃ m', removeTxsFromNonce env m addr minNonce = .ok m' ∧ m'.Sound env
      (Function.update items addr ((items addr).filter fun tx => decide (tx.content.nonce < minNonce))) := by
  have hcon := h.consistent.remove addr minNonce
  unfold removeTxsFromNonce
  cases hs : m.store.txs addr with
  | none =>
    have hnil := h.separate.absent addr hs
    refine ⟨m, rfl, ?_⟩
    rwa [hnil, List.filter_nil, ← hnil, Function.update_eq_self]
  | some slice =>
    have hlt := (h.separate.inside addr slice hs).1
    obtain ⟨mem, hkeep, hholds, hnext, hframe⟩ := (h.separate.holds addr slice hs).keepInPlace
      fun tx => decide (tx.content.nonce < minNonce)
    dsimp only
    rw [hkeep]
    dsimp only
    generalize (items addr).filter (fun tx => decide (tx.content.nonce < minNonce)) = kept at *
    have hagrees : m.mem.Agrees mem {slice.array} := ⟨hnext.ge, fun k _ hk => hframe k hk⟩
    refine ⟨_, rfl, ⟨h.separate.replace addr _ kept hagrees (fun k hk => ⟨slice, hs, hk.symm⟩) ?_ ?_, hcon⟩⟩
    · intro hnone
      split at hnone
      · rename_i hzero
        exact List.eq_nil_of_length_eq_zero hzero
      · cases hnone
    · intro s hnew
      split at hnew
      · cases hnew
      · cases hnew
        exact ⟨.inl ⟨slice, hs, rfl⟩, hnext ▸ hlt, hholds⟩

-- One account is sorted and its prefix taken. The others are as they were.
theorem Sound.collect (filter : PendingFilter) {pending : Pending} {addr : Address}
    (hpending : pending addr = none) :
    ∃ m', HeightStore.collect env filter (m, pending) addr =
        .ok (m', Function.update pending addr (pendingOf env filter (env.sortByNonce (items addr)))) ∧
      m'.Sound env (Function.update items addr (env.sortByNonce (items addr))) := by
  have hperm := env.sort_perm (items addr)
  unfold HeightStore.collect
  cases hs : m.store.txs addr with
  | none =>
    have hnil := h.separate.absent addr hs
    rw [hnil] at hperm
    refine ⟨m, ?_, ?_⟩
    · rw [hnil, hperm.eq_nil, pendingOf, if_pos (List.sublist_nil.mp (tipped_sublist filter [])),
        ← hpending, Function.update_eq_self]
    · rwa [hnil, hperm.eq_nil, ← hnil, Function.update_eq_self]
  | some slice =>
    have hslice := h.separate.holds addr slice hs
    have hwrap := filterAndWrapTxs_ok filter fun tx htx => h.consistent.sent addr tx (hperm.subset htx)
    dsimp only
    rw [hslice.read]
    dsimp only
    rw [hwrap]
    refine ⟨{ m with mem := m.mem.overwrite slice (env.sortByNonce (items addr)) }, ?_, ?_, ?_⟩
    · by_cases hnone : tipped env filter (env.sortByNonce (items addr)) = []
      · rw [hnone, pendingOf, if_pos hnone, ← hpending, Function.update_eq_self]
        rfl
      · have hpos := List.length_pos_iff.mpr hnone
        rw [pendingOf, if_neg hnone]
        simp only [Except.map, List.length_map, if_pos hpos]
    · have hsep := h.separate.replace addr (some slice) (env.sortByNonce (items addr))
        (m.mem.set_agrees slice.array _ (Set.mem_singleton _)) (fun k hk => ⟨slice, hs, hk.symm⟩) nofun (by
          intro s hnew
          cases hnew
          exact ⟨.inl ⟨_, hs, rfl⟩, (h.separate.inside addr _ hs).1, hslice.overwrite hperm.length_eq⟩)
      rwa [← hs, Function.update_eq_self] at hsep
    · refine h.consistent.perm fun a => ?_
      by_cases ha : a = addr
      · rw [ha, Function.update_self]
        exact hperm
      · rw [Function.update_of_ne ha]

end

theorem Sound.collect_all (filter : PendingFilter) {order : List Address} (horder : order.Nodup)
    (h : m.Sound env items) (pending : Pending) (hpending : ∀ a ∈ order, pending a = none) :
    ∃ m' pending' items', order.foldlM (HeightStore.collect env filter) (m, pending) = .ok (m', pending') ∧
      m'.Sound env items' ∧
      (∀ a ∈ order, items' a = env.sortByNonce (items a) ∧
        pending' a = pendingOf env filter (env.sortByNonce (items a))) ∧
      ∀ a, a ∉ order → items' a = items a ∧ pending' a = pending a := by
  induction order generalizing m items pending with
  | nil => exact ⟨m, pending, items, rfl, h, nofun, fun a _ => ⟨rfl, rfl⟩⟩
  | cons addr rest ih =>
    obtain ⟨hnot, hrest⟩ := List.nodup_cons.mp horder
    obtain ⟨m₁, hone, hsound⟩ := h.collect filter (hpending addr (List.mem_cons_self ..))
    have hnone : ∀ a ∈ rest, Function.update pending addr
        (pendingOf env filter (env.sortByNonce (items addr))) a = none := by
      intro a ha
      have hne : a ≠ addr := fun heq => hnot (heq ▸ ha)
      rw [Function.update_of_ne hne]
      exact hpending a (List.mem_cons_of_mem _ ha)
    obtain ⟨m', pending', items', hrun, hsound', hin, hout⟩ := ih hrest hsound _ hnone
    refine ⟨m', pending', items', ?_, hsound', fun a ha => ?_, fun a ha => ?_⟩
    · rw [List.foldlM_cons, hone]
      exact hrun
    · by_cases heq : a = addr
      · have hlast := hout a (heq ▸ hnot)
        rwa [heq, Function.update_self, Function.update_self, ← heq] at hlast
      · have hlater := hin a ((List.mem_cons.mp ha).resolve_left heq)
        rwa [Function.update_of_ne heq] at hlater
    · rw [List.mem_cons, not_or] at ha
      have hother := hout a ha.2
      rwa [Function.update_of_ne ha.1, Function.update_of_ne ha.1] at hother

theorem Sound.txs (h : m.Sound env items) (filter : PendingFilter) {order : List Address}
    (horder : m.Allowed env (.txs filter order)) :
    ∃ m' pending items', HeightStore.txs env m filter order = .ok (m', pending) ∧ m'.Sound env items' ∧
      (∀ a, (items' a).Perm (items a)) ∧
      ∀ a, pending a = if filter.onlyBlobTxs then none else pendingOf env filter (env.sortByNonce (items a)) := by
  unfold HeightStore.txs
  by_cases hblob : filter.onlyBlobTxs
  · exact ⟨m, fun _ => none, items, if_pos hblob, h, fun a => .refl _, fun a => (if_pos hblob).symm⟩
  · obtain ⟨m', pending, items', hrun, hsound, hin, hout⟩ := h.collect_all filter horder.1
      (fun _ => none) fun _ _ => rfl
    simp only [if_neg hblob]
    refine ⟨m', pending, items', hrun, hsound, fun a => ?_, fun a => ?_⟩
    · by_cases ha : a ∈ order
      · rw [(hin a ha).1]
        exact env.sort_perm _
      · rw [(hout a ha).1]
    · by_cases ha : a ∈ order
      · exact (hin a ha).2
      · have hnil : items a = [] := h.separate.absent a (by simpa using mt (horder.2 a).mpr ha)
        have hsorted := env.sort_perm (items a)
        rw [hnil] at hsorted ⊢
        rw [(hout a ha).2, hsorted.eq_nil, pendingOf, if_pos (List.sublist_nil.mp (tipped_sublist filter []))]

theorem Sound.step (h : m.Sound env items) (e : Event) (hallowed : m.Allowed env e) :
    ∃ m' items', step env m e = .ok m' ∧ m'.Sound env items' := by
  cases e with
  | make cells =>
    obtain ⟨m', hstep, hsound⟩ := h.make cells
    exact ⟨m', _, hstep, hsound⟩
  | write array index cell =>
    obtain ⟨m', hstep, hsound⟩ := h.write hallowed index cell
    exact ⟨m', _, hstep, hsound⟩
  | addTxs addr txs =>
    obtain ⟨-, passed, hread, hpassed⟩ := hallowed
    obtain ⟨m', hstep, hsound⟩ := h.addTxs hread hpassed
    exact ⟨m', _, hstep, hsound⟩
  | addTx addr tx =>
    obtain ⟨m', hstep, hsound⟩ := h.addTx hallowed
    exact ⟨m', _, hstep, hsound⟩
  | removeTx addr tx =>
    obtain ⟨m', hstep, hsound⟩ := h.remove addr tx.content.nonce
    exact ⟨m', _, hstep, hsound⟩
  | removeTxsFromNonce addr minNonce =>
    obtain ⟨m', hstep, hsound⟩ := h.remove addr minNonce
    exact ⟨m', _, hstep, hsound⟩
  | txs filter order =>
    obtain ⟨m', pending, items', hcall, hsound, -⟩ := h.txs filter hallowed
    exact ⟨m', items', by rw [Machine.step, hcall]; rfl, hsound⟩

theorem Sound.run (h : m.Sound env items) (events : List Event) (hallowed : AllAllowed env m events) :
    ∃ m' items', run env m events = .ok m' ∧ m'.Sound env items' := by
  induction events generalizing m items with
  | nil => exact ⟨m, items, rfl, h⟩
  | cons e rest ih =>
    obtain ⟨m₁, items₁, hstep, hsound⟩ := h.step e hallowed.1
    obtain ⟨m', items', hrun, hsound'⟩ := ih hsound (hallowed.2 m₁ hstep)
    refine ⟨m', items', ?_, hsound'⟩
    rw [Machine.run, List.foldlM_cons, hstep]
    exact hrun

def held (m : Machine) : Set Content :=
  {c | ∃ a, c ∈ m.contents a}

theorem Sound.lookup_card (h : m.Sound env items) : m.store.lookup.card = m.held.ncard := by
  have hheld : ∀ c, c ∈ m.held ↔ ∃ a, ∃ tx ∈ items a, tx.content = c := by
    simp [held, contents, h.stored]
  have himage : (m.store.lookup : Set Hash) = Set.image env.hash m.held := by
    ext x
    rw [Finset.mem_coe, h.consistent.known, Set.mem_image]
    simp only [hheld]
    constructor
    · rintro ⟨a, tx, htx, rfl⟩
      exact ⟨_, ⟨a, tx, htx, rfl⟩, rfl⟩
    · rintro ⟨_, ⟨a, tx, htx, rfl⟩, rfl⟩
      exact ⟨a, tx, htx, rfl⟩
  rw [← Set.ncard_coe_finset, himage, (env.hash_injOn.mono fun c hc => ?_).ncard_image]
  obtain ⟨a, tx, htx, rfl⟩ := (hheld c).mp hc
  exact (h.consistent.sent a tx htx).2.1

-- The lookup and the counter always fit the transactions stored, and each call does to
-- the sets of the accounts what it says.
theorem store_refines_sets (env : Env) (events : List Event) (hallowed : AllAllowed env initial events) :
    ∃ m, run env initial events = .ok m ∧
      (∀ x, x ∈ m.store.lookup ↔ ∃ a, ∃ tx ∈ m.stored a, env.hash tx.content = x) ∧
      (∀ a, ((m.stored a).map Transaction.content).Nodup ∧ ∀ tx ∈ m.stored a, tx.content.sender = a) ∧
      (m.held.ncard < 2 ^ 64 → m.store.total = m.held.ncard) ∧
      (∀ cells, ∃ m', step env m (.make cells) = .ok m' ∧ m'.stored = m.stored) ∧
      (∀ array index cell, m.Allowed env (.write array index cell) →
        ∃ m', step env m (.write array index cell) = .ok m' ∧ m'.stored = m.stored) ∧
      (∀ addr txs passed, m.mem.read txs = some passed → m.Allowed env (.addTxs addr txs) →
        ∃ m', step env m (.addTxs addr txs) = .ok m' ∧ m'.contents = Function.update m.contents addr
          (m.contents addr ∪ (passed.map Transaction.content).toFinset)) ∧
      (∀ addr tx, m.Allowed env (.addTx addr tx) → ∃ m', step env m (.addTx addr tx) = .ok m' ∧
        m'.contents = Function.update m.contents addr (insert tx.content (m.contents addr))) ∧
      (∀ addr minNonce, ∃ m', step env m (.removeTxsFromNonce addr minNonce) = .ok m' ∧
        m'.contents = Function.update m.contents addr ((m.contents addr).filter fun c => c.nonce < minNonce)) ∧
      (∀ addr tx, ∃ m', step env m (.removeTx addr tx) = .ok m' ∧ m'.contents =
        Function.update m.contents addr ((m.contents addr).filter fun c => c.nonce < tx.content.nonce)) ∧
      ∀ filter order, m.Allowed env (.txs filter order) →
        ∃ m' pending, txs env m filter order = .ok (m', pending) ∧
          (∀ a, (m'.stored a).Perm (m.stored a)) ∧
          ∀ a, ∃ taken rest, (taken ++ rest).Perm (m.stored a) ∧
            (taken ++ rest).Pairwise (fun tx tx' => tx.content.nonce ≤ tx'.content.nonce) ∧
            (∀ tx ∈ taken, Tips env filter tx) ∧ (∀ tx ∈ rest.head?, ¬ Tips env filter tx) ∧
            pending a = if filter.onlyBlobTxs ∨ taken = [] then none else some (taken.map (wrapped env)) := by
  obtain ⟨m, items, hrun, h⟩ := initial_sound.run events hallowed
  have hcontents (a : Address) : m.contents a = ((items a).map Transaction.content).toFinset := by
    rw [contents, h.stored]
  have hremove (addr : Address) (minNonce : Nat) : ∃ m', removeTxsFromNonce env m addr minNonce = .ok m' ∧
      m'.contents = Function.update m.contents addr ((m.contents addr).filter fun c => c.nonce < minNonce) := by
    obtain ⟨m', hstep, hsound⟩ := h.remove addr minNonce
    refine ⟨m', hstep, (h.contents_update hsound).trans (congrArg _ ?_)⟩
    ext c
    simp only [hcontents, List.mem_toFinset, List.mem_map, List.mem_filter, Finset.mem_filter, decide_eq_true_eq]
    constructor
    · rintro ⟨tx, ⟨htx, hlt⟩, rfl⟩
      exact ⟨⟨tx, htx, rfl⟩, hlt⟩
    · rintro ⟨⟨tx, htx, rfl⟩, hlt⟩
      exact ⟨tx, ⟨htx, hlt⟩, rfl⟩
  refine ⟨m, hrun, ?_, ?_, fun hfew => ?_, fun cells => ?_, fun array index cell harray => ?_,
    fun addr txs passed hread hadd => ?_, fun addr tx hadd => ?_, hremove,
    fun addr tx => hremove addr tx.content.nonce, fun filter order horder => ?_⟩
  · rw [h.stored]
    exact h.consistent.known
  · rw [h.stored]
    exact fun a => ⟨h.consistent.distinct a, fun tx htx => (h.consistent.sent a tx htx).1⟩
  · rw [h.consistent.total, h.lookup_card, Nat.mod_eq_of_lt hfew]
  · obtain ⟨m', hstep, hsound⟩ := h.make cells
    exact ⟨m', hstep, hsound.stored.trans h.stored.symm⟩
  · obtain ⟨m', hstep, hsound⟩ := h.write harray index cell
    exact ⟨m', hstep, hsound.stored.trans h.stored.symm⟩
  · obtain ⟨-, passed', hread', hpassed⟩ := hadd
    obtain rfl := Option.some.inj (hread.symm.trans hread')
    obtain ⟨m', hstep, hsound⟩ := h.addTxs hread hpassed
    refine ⟨m', hstep, (h.contents_update hsound).trans (congrArg _ ?_)⟩
    rw [(h.consistent.add hpassed).2, hcontents]
  · have hpassed : ∀ tx' ∈ [tx], MayAdd env addr tx' := by
      intro tx' htx'
      exact List.mem_singleton.mp htx' ▸ hadd
    obtain ⟨m', hstep, hsound⟩ := h.addTx hadd
    refine ⟨m', hstep, (h.contents_update hsound).trans (congrArg _ ?_)⟩
    rw [(h.consistent.add hpassed).2, hcontents, Finset.union_comm]
    rfl
  · obtain ⟨m', pending, items', hcall, hsound, hperm, hpending⟩ := h.txs filter horder
    rw [h.stored]
    refine ⟨m', pending, hcall, by rw [hsound.stored]; exact hperm, fun a => ?_⟩
    obtain ⟨rest, hsplit, htips, hfails⟩ := tipped_longest env filter (env.sortByNonce (items a))
    have horder := env.sort_ordered (items a)
    have hsame := env.sort_perm (items a)
    rw [hsplit] at horder hsame
    refine ⟨_, rest, hsame, horder, htips, hfails, ?_⟩
    rw [hpending a, pendingOf]
    split
    · rename_i hblob
      rw [if_pos (.inl hblob)]
    · rename_i hblob
      simp only [hblob, false_or, Bool.false_eq_true]

def transfer (nonce gasFeeCap : Nat) : Transaction :=
  ⟨⟨Ethereum.zeroAddress, nonce, gasFeeCap, 1, 21000, 0, []⟩, 0⟩

def encoded (c : Content) : Bytes :=
  c.sender.bytes ++ Bytes.fixed 8 c.nonce ++ Bytes.fixed 32 c.gasFeeCap ++ Bytes.fixed 32 c.gasTipCap ++
    Bytes.fixed 8 c.gas ++ Bytes.fixed 8 c.blobGas ++ c.data

-- A digest that tells two transfers apart, and a sort by insertion.
def plain : Env where
  hash c := ⟨Bytes.sampleDigest (encoded c), Bytes.length_fixed 32 _⟩
  known := {(transfer 5 2).content, (transfer 4 2).content}
  hash_injOn := by
    rintro _ (rfl | rfl) _ (rfl | rfl) h
    · rfl
    · exact absurd h (by decide +kernel)
    · exact absurd h (by decide +kernel)
    · rfl
  sortByNonce := List.insertionSort fun tx tx' => tx.content.nonce ≤ tx'.content.nonce
  sort_perm := List.perm_insertionSort _
  sort_ordered txs := by
    have htotal : Std.Total fun tx tx' : Transaction => tx.content.nonce ≤ tx'.content.nonce :=
      ⟨fun _ _ => Nat.le_total ..⟩
    have htrans : IsTrans Transaction fun tx tx' => tx.content.nonce ≤ tx'.content.nonce :=
      ⟨fun _ _ _ => Nat.le_trans⟩
    exact List.pairwise_insertionSort _ txs
  spare cap _ := cap
  effectiveGasTipIntCmp tx minTip _ := (tx.content.gasTipCap : Int) - minTip

-- The caller adds two transactions out of order, and then writes over its slice.
theorem store_refines_reused : ∃ m : Machine,
    run plain initial [.make [some (transfer 5 2), some (transfer 4 2)],
        .addTxs Ethereum.zeroAddress ⟨0, 2⟩, .write 0 1 none] = .ok m ∧
      ∀ x, x ∈ m.store.lookup ↔ ∃ a, ∃ tx ∈ m.stored a, plain.hash tx.content = x := by
  have hallowed : AllAllowed plain initial [.make [some (transfer 5 2), some (transfer 4 2)],
      .addTxs Ethereum.zeroAddress ⟨0, 2⟩, .write 0 1 none] := by
    refine ⟨trivial, ?_⟩
    rintro _ ⟨⟩
    refine ⟨⟨by decide, [transfer 5 2, transfer 4 2], rfl, ?_⟩, ?_⟩
    · intro tx htx
      rcases List.mem_pair.mp htx with rfl | rfl
      · exact ⟨rfl, .inl rfl, by decide, by decide⟩
      · exact ⟨rfl, .inr rfl, by decide, by decide⟩
    · rintro _ ⟨⟩
      exact ⟨show 0 ∈ ({0} : Finset Nat) by decide, fun _ _ => trivial⟩
  obtain ⟨m, hrun, hlookup, -⟩ := store_refines_sets plain _ hallowed
  exact ⟨m, hrun, hlookup⟩

-- A filter for blob transactions gets nothing, and one that differs in this only gets the transaction.
theorem onlyBlobTxs_nothing : ∃ m, run plain initial [.addTx Ethereum.zeroAddress (transfer 0 2)] = .ok m ∧
    m.stored Ethereum.zeroAddress = [transfer 0 2] ∧
    txs plain m ⟨none, none, true⟩ [Ethereum.zeroAddress] = .ok (m, fun _ => none) ∧
    ∃ m' pending, txs plain m ⟨none, none, false⟩ [Ethereum.zeroAddress] = .ok (m', pending) ∧
      (pending Ethereum.zeroAddress).map (List.map LazyTransaction.tx) = some [transfer 0 2] :=
  ⟨_, rfl, rfl, rfl, _, _, rfl, rfl⟩

-- A fee cap that does not fit into 256 bits stops the collection of all accounts.
theorem txs_overflow : ∃ m, run plain initial [.addTx Ethereum.zeroAddress (transfer 0 (2 ^ 256))] = .ok m ∧
    txs plain m ⟨none, none, false⟩ [Ethereum.zeroAddress] = .error (.panic "overflow") :=
  ⟨_, rfl, rfl⟩

end Machine

end PosChain.Mempool.HeightStore
