import PosChain.Evm.Keeper.Theorems

namespace PosChain.Evm

variable {R : Type}

def visitSlots {σ : Type} (cb : Hash → Hash → σ → Bool × σ) : List (Hash × Bytes) → σ → σ
  | [], state => state
  | slot :: rest, state =>
    match cb slot.1 (Ethereum.bytesToHash slot.2) state with
    | (true, next) => visitSlots cb rest next
    | (false, next) => next

-- The stored slots of an account in the order of their keys.
def World.forEachStorage {σ : Type} (w : World R) (address : Address) (cb : Hash → Hash → σ → Bool × σ)
    (state : σ) : σ :=
  visitSlots cb (w.storage address).toList state

structure StackTrie (Node : Type) where
  new : Node
  update : Node → Bytes → Bytes → Except String Node
  hash : Node → Hash

namespace StateDB

variable {Node : Type} (trie : StackTrie Node) (s : StateDB (World R)) (address : Address)

-- A slot that the trie refuses ends the iteration.
def getStorageRoot : Hash :=
  trie.hash (s.world.forEachStorage address (fun key value sr =>
    match trie.update sr key.bytes value.bytes with
    | .ok next => (true, next)
    | .error _ => (false, sr)) trie.new)

def isStorageEmpty : Bool :=
  s.world.forEachStorage address (fun _ _ _ => (false, false)) true

-- The slots that the transaction has written are reported with their new values.
def forEachStorage {σ : Type} (env : Env (World R)) (cb : Hash → Hash → σ → Bool × σ) (state : σ) : σ :=
  match (s.getStateObject env address).1 with
  | none => state
  | some object =>
    s.world.forEachStorage address (fun key value state =>
      match object.dirtyStorage[key]? with
      | some dirty => cb key dirty state
      | none => if 0 < value.bytes.length then cb key value state else (true, state)) state

end StateDB

-- Every stored slot has the bytes of a hash, and not of the zero hash.
def World.Clean (w : World R) : Prop :=
  ∀ (address : Address) (key : Hash) (value : Bytes), (w.storage address)[key]? = some value →
    value.length = 32 ∧ Ethereum.bytesToHash value ≠ Ethereum.zeroHash

-- Ascending keys are accepted, and a trie with a leaf does not have the root of the
-- empty one.
def StackTrie.Lawful {Node : Type} (trie : StackTrie Node) : Prop :=
  ∀ slots : List (Hash × Hash), (slots.map Prod.fst).Pairwise (compare · · = .lt) →
    ∃ node, slots.foldlM (fun sr slot => trie.update sr slot.1.bytes slot.2.bytes) trie.new = .ok node ∧
      (trie.hash node = trie.hash trie.new ↔ slots = [])

-- A slot is stored if and only if it is not zero, and those who ask for the slots see
-- exactly these.
structure World.StorageLaw {Node : Type} (trie : StackTrie Node) (w : World R) (address : Address) : Prop where
  stored : ∀ key, key ∈ w.storage address ↔ w.getState address key ≠ Ethereum.zeroHash
  visited : ∀ key value,
    (key, value) ∈ w.forEachStorage address (fun key value seen => (true, seen ++ [(key, value)])) [] ↔
      value ≠ Ethereum.zeroHash ∧ w.getState address key = value
  empty : ∀ s : StateDB (World R), s.world = w →
    (s.isStorageEmpty address = true ↔ ∀ key, w.getState address key = Ethereum.zeroHash)
  root : ∀ s : StateDB (World R), s.world = w →
    (s.getStorageRoot trie address = trie.hash trie.new ↔ ∀ key, w.getState address key = Ethereum.zeroHash)
  loaded : ∀ (env : Env (World R)) (s : StateDB (World R)) object {σ : Type}
    (cb : Hash → Hash → σ → Bool × σ) (state : σ), s.world = w →
    (s.getStateObject env address).1 = some object → object.dirtyStorage = ∅ →
      s.forEachStorage address env cb state = w.forEachStorage address cb state

section Visits

theorem visitSlots_collect (slots : List (Hash × Bytes)) (seen : List (Hash × Hash)) :
    visitSlots (fun key value seen => (true, seen ++ [(key, value)])) slots seen =
      seen ++ slots.map fun slot => (slot.1, Ethereum.bytesToHash slot.2) := by
  induction slots generalizing seen with
  | nil => simp [visitSlots]
  | cons slot rest ih => simp [visitSlots, ih]

theorem visitSlots_stop (slots : List (Hash × Bytes)) :
    visitSlots (fun _ _ _ => (false, false)) slots true = slots.isEmpty := by
  cases slots with
  | nil => rfl
  | cons slot rest => rfl

-- An iteration that the trie never ends adds all slots to it.
theorem visitSlots_trie {Node : Type} (trie : StackTrie Node) {slots : List (Hash × Bytes)} {sr node : Node}
    (h : (slots.map fun slot => (slot.1, Ethereum.bytesToHash slot.2)).foldlM
      (fun sr slot => trie.update sr slot.1.bytes slot.2.bytes) sr = .ok node) :
    visitSlots (fun key value sr =>
      match trie.update sr key.bytes value.bytes with
      | .ok next => (true, next)
      | .error _ => (false, sr)) slots sr = node := by
  induction slots generalizing sr with
  | nil => exact Except.ok.inj h
  | cons slot rest ih =>
    rw [List.map_cons, List.foldlM_cons] at h
    cases hupdate : trie.update sr slot.1.bytes (Ethereum.bytesToHash slot.2).bytes with
    | error text =>
      rw [hupdate] at h
      cases h
    | ok next =>
      rw [hupdate] at h
      simp only [visitSlots, hupdate]
      exact ih h

end Visits

section Clean

variable {w v : World R} {address : Address}

theorem getState_of_stored (h : w.Clean) {key : Hash} {value : Bytes}
    (hstored : (w.storage address)[key]? = some value) :
    w.getState address key = Ethereum.bytesToHash value := by
  have hlength : value.length ≠ 0 := by
    rw [(h address key value hstored).1]
    decide
  rw [World.getState, hstored]
  exact if_neg hlength

theorem getState_of_absent {key : Hash} (h : (w.storage address)[key]? = none) :
    w.getState address key = Ethereum.zeroHash := by
  rw [World.getState, h]

theorem stored_iff (h : w.Clean) (key : Hash) :
    key ∈ w.storage address ↔ w.getState address key ≠ Ethereum.zeroHash := by
  rw [← Std.ExtTreeMap.isSome_getElem?_iff_mem]
  cases hstored : (w.storage address)[key]? with
  | none => simp [getState_of_absent hstored]
  | some value =>
    rw [getState_of_stored h hstored]
    simpa using (h address key value hstored).2

theorem slots_nil_iff (h : w.Clean) :
    (w.storage address).toList = [] ↔ ∀ key, w.getState address key = Ethereum.zeroHash := by
  constructor
  · intro hnil key
    refine getState_of_absent ?_
    cases hstored : (w.storage address)[key]? with
    | none => rfl
    | some value =>
      have hmem := Std.ExtTreeMap.mem_toList_iff_getElem?_eq_some.mpr hstored
      rw [hnil] at hmem
      cases hmem
  · intro hzero
    rw [List.eq_nil_iff_forall_not_mem]
    rintro ⟨key, value⟩ hmem
    have hstored := Std.ExtTreeMap.mem_toList_iff_getElem?_eq_some.mp hmem
    refine (h address key value hstored).2 ?_
    rw [← getState_of_stored h hstored, hzero key]

theorem keys_ascending (slots : Std.ExtTreeMap Hash Bytes) :
    ((slots.toList.map fun slot => (slot.1, Ethereum.bytesToHash slot.2)).map Prod.fst).Pairwise
      (compare · · = .lt) := by
  have hkeys : (slots.toList.map fun slot => (slot.1, Ethereum.bytesToHash slot.2)).map Prod.fst = slots.keys := by
    rw [List.map_map, ← Std.ExtTreeMap.map_fst_toList_eq_keys]
    rfl
  rw [hkeys]
  exact Std.ExtTreeMap.ordered_keys

theorem World.Clean.storageLaw {Node : Type} {trie : StackTrie Node} (htrie : trie.Lawful) (h : w.Clean)
    (address : Address) : w.StorageLaw trie address where
  stored := stored_iff h
  visited := by
    intro key value
    rw [World.forEachStorage, visitSlots_collect, List.nil_append, List.mem_map]
    constructor
    · rintro ⟨⟨found, bytes⟩, hmem, heq⟩
      obtain ⟨rfl, rfl⟩ := Prod.ext_iff.mp heq
      have hstored := Std.ExtTreeMap.mem_toList_iff_getElem?_eq_some.mp hmem
      exact ⟨(h address found bytes hstored).2, getState_of_stored h hstored⟩
    · rintro ⟨hvalue, rfl⟩
      have hmem := (stored_iff h key).mpr hvalue
      rw [← Std.ExtTreeMap.isSome_getElem?_iff_mem] at hmem
      obtain ⟨bytes, hstored⟩ := Option.isSome_iff_exists.mp hmem
      refine ⟨(key, bytes), Std.ExtTreeMap.mem_toList_iff_getElem?_eq_some.mpr hstored, ?_⟩
      rw [getState_of_stored h hstored]
  empty := by
    rintro s rfl
    rw [StateDB.isStorageEmpty, World.forEachStorage, visitSlots_stop, List.isEmpty_iff, slots_nil_iff h]
  root := by
    rintro s rfl
    obtain ⟨node, hnode, hroot⟩ := htrie _ (keys_ascending (s.world.storage address))
    rw [StateDB.getStorageRoot, World.forEachStorage, visitSlots_trie trie hnode, hroot, List.map_eq_nil_iff,
      slots_nil_iff h]
  loaded := by
    rintro env s object σ cb state rfl hobject hclean
    rw [StateDB.forEachStorage, hobject]
    refine congrArg (fun cb => visitSlots cb (s.world.storage address).toList state) ?_
    funext key value state
    have hlength : 0 < value.bytes.length := by
      rw [value.length_eq]
      decide
    simp [hclean, hlength]

theorem bytes_bytesToHash {value : Bytes} (h : value.length = 32) : (Ethereum.bytesToHash value).bytes = value := by
  simp [Ethereum.bytesToHash, Ethereum.rightAligned, h]

theorem World.Clean.storage_eq (h : w.Clean) (h' : v.Clean)
    (hreads : ∀ key, w.getState address key = v.getState address key) : w.storage address = v.storage address := by
  refine Std.ExtTreeMap.ext_getElem? fun key => ?_
  cases hstored : (w.storage address)[key]? with
  | none =>
    have hzero := getState_of_absent hstored
    rw [hreads] at hzero
    cases hstored' : (v.storage address)[key]? with
    | none => rfl
    | some value =>
      rw [getState_of_stored h' hstored'] at hzero
      exact absurd hzero (h' address key value hstored').2
  | some value =>
    have hvalue := getState_of_stored h hstored
    rw [hreads] at hvalue
    cases hstored' : (v.storage address)[key]? with
    | none =>
      rw [getState_of_absent hstored'] at hvalue
      exact absurd hvalue.symm (h address key value hstored).2
    | some found =>
      rw [getState_of_stored h' hstored'] at hvalue
      have hbytes := congrArg Hash.bytes hvalue
      rw [bytes_bytesToHash (h' address key found hstored').1,
        bytes_bytesToHash (h address key value hstored).1] at hbytes
      rw [hbytes]

end Clean

end PosChain.Evm
