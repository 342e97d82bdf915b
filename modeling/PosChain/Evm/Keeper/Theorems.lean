import PosChain.Evm.Keeper

namespace PosChain.Evm

structure Record where
  auth : Option AuthAccount
  balance : Nat
  codeHash : Option Hash
  storage : Std.ExtTreeMap Hash Bytes

namespace Record

def empty : Record :=
  ⟨none, 0, none, ∅⟩

def locked (record : Record) : Nat :=
  record.auth.elim 0 fun account => account.kind.locked

def isModule (record : Record) : Bool :=
  record.auth.any fun account => account.kind = .moduleAccount

def nonce (record : Record) : UInt64 :=
  record.auth.elim 0 AuthAccount.sequence

def spendable (record : Record) : Nat :=
  record.balance - record.locked

def hash (config : Config) (record : Record) : Hash :=
  record.codeHash.getD config.emptyCodeHash

def slot (record : Record) (key : Hash) : Hash :=
  match record.storage[key]? with
  | none => Ethereum.zeroHash
  | some value => if value.length = 0 then Ethereum.zeroHash else Ethereum.bytesToHash value

-- An account that is written gets the locked amount back on top of its balance.
def stored (config : Config) (number : Nat) (account : Account) (record : Record) : Record :=
  let acct := { record.auth.getD ⟨.baseAccount, number, 0⟩ with sequence := account.nonce }
  { auth := some acct
    balance := account.balance.toNat + account.lockedBalance.getD record.locked
    codeHash := if account.codeHash = config.emptyCodeHash then none else some account.codeHash
    storage := record.storage }

end Record

namespace World

variable {R : Type} (config : Config) (w : World R) (address : Address)

def record : Record :=
  ⟨w.accounts address, w.balances address, w.codeHashes[address]?, w.storage address⟩

theorem lockedCoin_eq : w.lockedCoin address = (w.record address).locked :=
  rfl

theorem spendableCoin_eq : w.spendableCoin address = (w.record address).spendable :=
  rfl

theorem isModule_eq : w.isModule address = (w.record address).isModule :=
  rfl

theorem getCodeHash_eq : w.getCodeHash config address = (w.record address).hash config :=
  rfl

theorem getState_eq (key : Hash) : w.getState address key = (w.record address).slot key :=
  rfl

section Records

variable (other : Address)

theorem record_putAccount (account : AuthAccount) :
    (w.putAccount address account).record other =
      if other = address then { w.record other with auth := some account } else w.record other := by
  by_cases h : other = address
  · subst h
    simp [record, putAccount]
  · simp [record, putAccount, h]

theorem record_removeAccount :
    (w.removeAccount address).record other =
      if other = address then { w.record other with auth := none } else w.record other := by
  by_cases h : other = address
  · subst h
    simp [record, removeAccount]
  · simp [record, removeAccount, h]

theorem record_putBalance (amount : Nat) (h : amount < 2 ^ 256) :
    (w.putBalance address amount h).record other =
      if other = address then { w.record other with balance := amount } else w.record other := by
  by_cases heq : other = address
  · subst heq
    simp [record, putBalance]
  · simp [record, putBalance, heq]

theorem record_putStorage (slots : Std.ExtTreeMap Hash Bytes) :
    (w.putStorage address slots).record other =
      if other = address then { w.record other with storage := slots } else w.record other := by
  by_cases h : other = address
  · subst h
    simp [record, putStorage]
  · simp [record, putStorage, h]

theorem record_setCodeHash (codeHash : Hash) :
    (w.setCodeHash address codeHash).record other =
      if other = address then { w.record other with codeHash := some codeHash } else w.record other := by
  by_cases h : other = address
  · subst h
    simp [record, setCodeHash]
  · have hne : ¬ address = other := fun heq => h heq.symm
    simp [record, setCodeHash, h, hne, Std.ExtTreeMap.getElem?_insert]

theorem record_deleteCodeHash :
    (w.deleteCodeHash address).record other =
      if other = address then { w.record other with codeHash := none } else w.record other := by
  by_cases h : other = address
  · subst h
    simp [record, deleteCodeHash]
  · have hne : ¬ address = other := fun heq => h heq.symm
    simp [record, deleteCodeHash, h, hne, Std.ExtTreeMap.getElem?_erase]

end Records

structure Wrote (address : Address) (w t : World R) : Prop where
  others : ∀ other, other ≠ address → t.record other = w.record other
  codes : t.codes = w.codes
  supply : t.supply = w.supply
  elsewhere : t.elsewhere = w.elsewhere

namespace Wrote

variable {address : Address} {w t u : World R}

theorem refl (w : World R) : Wrote address w w :=
  ⟨fun _ _ => rfl, rfl, rfl, rfl⟩

theorem trans (h : Wrote address w t) (h' : Wrote address t u) : Wrote address w u where
  others other hne := (h'.others other hne).trans (h.others other hne)
  codes := h'.codes.trans h.codes
  supply := h'.supply.trans h.supply
  elsewhere := h'.elsewhere.trans h.elsewhere

theorem putAccount (account : AuthAccount) : Wrote address w (w.putAccount address account) :=
  ⟨fun other hne => by rw [record_putAccount, if_neg hne], rfl, rfl, rfl⟩

theorem removeAccount : Wrote address w (w.removeAccount address) :=
  ⟨fun other hne => by rw [record_removeAccount, if_neg hne], rfl, rfl, rfl⟩

theorem putBalance (amount : Nat) (h : amount < 2 ^ 256) : Wrote address w (w.putBalance address amount h) :=
  ⟨fun other hne => by rw [record_putBalance, if_neg hne], rfl, rfl, rfl⟩

theorem putStorage (slots : Std.ExtTreeMap Hash Bytes) : Wrote address w (w.putStorage address slots) :=
  ⟨fun other hne => by rw [record_putStorage, if_neg hne], rfl, rfl, rfl⟩

theorem setCodeHash (codeHash : Hash) : Wrote address w (w.setCodeHash address codeHash) :=
  ⟨fun other hne => by rw [record_setCodeHash, if_neg hne], rfl, rfl, rfl⟩

theorem deleteCodeHash : Wrote address w (w.deleteCodeHash address) :=
  ⟨fun other hne => by rw [record_deleteCodeHash, if_neg hne], rfl, rfl, rfl⟩

end Wrote

end World

namespace VmKeeper

open World

variable {R : Type} {config : Config} {address : Address} {w t : World R}

theorem uncheckedSetBalance_ok {amount : Nat} {u : Unit}
    (h : (uncheckedSetBalance address amount).run w = .ok u t) :
    ∃ hbound : amount < 2 ^ 256, t = w.putBalance address amount hbound := by
  rw [uncheckedSetBalance, run_get_bind] at h
  split at h
  · rename_i hbound
    exact ⟨hbound, (EStateM.Result.ok.inj h).2.symm⟩
  · cases h

theorem setBalanceWithLocked_ok {amount : Uint256} {locked : Nat} {u : Unit}
    (h : (setBalanceWithLocked config address amount locked).run w = .ok u t) :
    Wrote address w t ∧
      t.record address = { w.record address with balance := amount.toNat + locked } := by
  rw [setBalanceWithLocked, run_get_bind, run_lift_bind] at h
  obtain ⟨-, -, hset⟩ := h
  obtain ⟨hbound, rfl⟩ := uncheckedSetBalance_ok hset
  exact ⟨.putBalance _ hbound, by rw [record_putBalance, if_pos rfl]⟩

theorem setBalanceWithLocked_succeeds (amount : Uint256) (locked : Nat)
    (hmodule : w.isModule address = false) (hblocked : config.blockedAddr address.bytes = false)
    (hbound : amount.toNat + locked < 2 ^ 256) :
    ∃ t, (setBalanceWithLocked config address amount locked).run w = .ok () t := by
  refine ⟨w.putBalance address _ hbound, ?_⟩
  rw [setBalanceWithLocked, run_get_bind, run_lift_bind]
  refine ⟨(), by simp [hmodule, hblocked], ?_⟩
  rw [uncheckedSetBalance, run_get_bind, dif_pos hbound]
  rfl

theorem setAccountBalance_eq (account : Account) :
    (setAccountBalance config address account).run w =
      (setBalanceWithLocked config address account.balance
        (account.lockedBalance.getD (w.lockedCoin address))).run w := by
  unfold setAccountBalance
  cases account.lockedBalance <;> rfl

theorem putCodeHash_record (config : Config) (address : Address) (codeHash : Hash) (w : World R) :
    Wrote address w (putCodeHash config address codeHash w) ∧
      (putCodeHash config address codeHash w).record address =
        { w.record address with
          codeHash := if codeHash = config.emptyCodeHash then none else some codeHash } := by
  unfold putCodeHash
  split
  · exact ⟨.deleteCodeHash, by rw [record_deleteCodeHash, if_pos rfl]⟩
  · exact ⟨.setCodeHash codeHash, by rw [record_setCodeHash, if_pos rfl]⟩

theorem authAccount_record (address : Address) (w : World R) :
    ∃ number, (authAccount address w).1 = (w.accounts address).getD ⟨.baseAccount, number, 0⟩ ∧
      Wrote address w (authAccount address w).2 ∧
      (authAccount address w).2.record address = w.record address := by
  refine ⟨w.nextNumber, ?_⟩
  unfold authAccount
  cases w.accounts address with
  | some acct => exact ⟨rfl, .refl w, rfl⟩
  | none => exact ⟨rfl, ⟨fun _ _ => rfl, rfl, rfl, rfl⟩, rfl⟩

theorem writeAccount_record (config : Config) (address : Address) (account : Account) (w : World R) :
    ∃ number, Wrote address w (writeAccount config address account w) ∧
      (writeAccount config address account w).record address =
        { Record.stored config number account (w.record address) with balance := w.balances address } := by
  obtain ⟨number, hacct, hwrote, hrecord⟩ := authAccount_record address w
  obtain ⟨hwrote', hrecord'⟩ :=
    putCodeHash_record config address account.codeHash (authAccount address w).2
  refine ⟨number, (hwrote.trans hwrote').trans (.putAccount _), ?_⟩
  unfold writeAccount
  rw [record_putAccount, if_pos rfl, hrecord', hrecord, hacct]
  rfl

-- Writing the account keeps its kind, so the locked amount and the mark of a module
-- stay.
theorem stored_locked (config : Config) (number : Nat) (account : Account) (record : Record) :
    (Record.stored config number account record).locked = record.locked := by
  unfold Record.locked Record.stored
  cases record.auth <;> rfl

theorem stored_isModule (config : Config) (number : Nat) (account : Account) (record : Record) :
    (Record.stored config number account record).isModule = record.isModule := by
  unfold Record.isModule Record.stored
  cases record.auth <;> rfl

theorem writeAccount_lockedCoin (account : Account) :
    (writeAccount config address account w).lockedCoin address = w.lockedCoin address := by
  obtain ⟨number, -, hrecord⟩ := writeAccount_record config address account w
  rw [lockedCoin_eq, hrecord]
  exact stored_locked config number account (w.record address)

theorem writeAccount_isModule (account : Account) :
    (writeAccount config address account w).isModule address = w.isModule address := by
  obtain ⟨number, -, hrecord⟩ := writeAccount_record config address account w
  rw [isModule_eq, hrecord]
  exact stored_isModule config number account (w.record address)

theorem setAccount_ok {account : Account} {u : Unit} (h : (setAccount config address account).run w = .ok u t) :
    Wrote address w t ∧ ∃ number, t.record address = .stored config number account (w.record address) := by
  rw [setAccount, run_modify_bind, setAccountBalance_eq, writeAccount_lockedCoin] at h
  obtain ⟨number, hwrote, hrecord⟩ := writeAccount_record config address account w
  obtain ⟨hwrote', hrecord'⟩ := setBalanceWithLocked_ok h
  exact ⟨hwrote.trans hwrote', number, by rw [hrecord', hrecord]; rfl⟩

theorem setAccount_succeeds {account : Account} (hmodule : w.isModule address = false)
    (hblocked : config.blockedAddr address.bytes = false)
    (hbound : account.balance.toNat + account.lockedBalance.getD (w.lockedCoin address) < 2 ^ 256) :
    ∃ t, (setAccount config address account).run w = .ok () t := by
  have hmodule' : (writeAccount config address account w).isModule address = false := by
    rw [writeAccount_isModule, hmodule]
  obtain ⟨t, ht⟩ := setBalanceWithLocked_succeeds account.balance
    (account.lockedBalance.getD (w.lockedCoin address)) hmodule' hblocked hbound
  refine ⟨t, ?_⟩
  rw [setAccount, run_modify_bind, setAccountBalance_eq, writeAccount_lockedCoin]
  exact ht

theorem deleteStates_record (address : Address) (keys : List Hash) (w : World R) :
    Wrote address w (keys.foldl (fun w key => w.deleteState address key) w) ∧
      (keys.foldl (fun w key => w.deleteState address key) w).record address =
        { w.record address with
          storage := keys.foldl (fun slots key => slots.erase key) (w.storage address) } := by
  induction keys generalizing w with
  | nil => exact ⟨.refl w, rfl⟩
  | cons key rest ih =>
    obtain ⟨hwrote, hrecord⟩ := ih (w.deleteState address key)
    have hfirst : (w.deleteState address key).record address =
        { w.record address with storage := (w.storage address).erase key } := by
      rw [deleteState, record_putStorage, if_pos rfl]
    have hstorage : (w.deleteState address key).storage address = (w.storage address).erase key :=
      congrArg Record.storage hfirst
    have hwrote' : Wrote address w (w.deleteState address key) := .putStorage _
    refine ⟨hwrote'.trans hwrote, ?_⟩
    rw [List.foldl_cons, hrecord, hfirst, hstorage]
    rfl

theorem erase_keys (slots : Std.ExtTreeMap Hash Bytes) :
    slots.keys.foldl (fun slots key => slots.erase key) slots = ∅ := by
  have hread : ∀ (keys : List Hash) (target : Std.ExtTreeMap Hash Bytes) (key : Hash),
      (keys.foldl (fun slots key => slots.erase key) target)[key]? =
        if key ∈ keys then none else target[key]? := by
    intro keys
    induction keys with
    | nil => simp
    | cons first rest ih =>
      intro target key
      rw [List.foldl_cons, ih, Std.ExtTreeMap.getElem?_erase]
      by_cases hrest : key ∈ rest
      · simp [hrest]
      · by_cases hfirst : key = first
        · subst hfirst
          simp
        · have hne : ¬ first = key := fun heq => hfirst heq.symm
          simp [hrest, hfirst, hne]
  refine Std.ExtTreeMap.ext_getElem? fun key => ?_
  rw [hread]
  by_cases hmem : key ∈ slots.keys
  · simp [hmem]
  · have hnone : slots[key]? = none := by
      rw [Std.ExtTreeMap.mem_keys] at hmem
      exact Std.ExtTreeMap.getElem?_eq_none hmem
    simp [hmem, hnone]

theorem deleteAccount_ok {u : Unit} (h : (deleteAccount config address).run w = .ok u t) :
    Wrote address w t ∧
      t.record address = if w.accounts address = none then w.record address else .empty := by
  rw [deleteAccount, run_get_bind] at h
  cases hacct : w.accounts address with
  | none =>
    rw [hacct] at h
    cases h
    exact ⟨.refl w, by simp⟩
  | some acct =>
    rw [hacct] at h
    dsimp only at h
    rw [run_lift_bind] at h
    obtain ⟨-, -, h⟩ := h
    rw [run_modify_bind, run_bind_eq_ok] at h
    obtain ⟨_, emptied, hbalance, h⟩ := h
    rw [run_modify_bind, run_modify_eq_ok] at h
    obtain ⟨hwrote, hrecord⟩ := setBalanceWithLocked_ok hbalance
    obtain ⟨hwrote', hrecord'⟩ := deleteStates_record address (emptied.storage address).keys emptied
    rw [erase_keys] at hrecord'
    subst h
    refine ⟨((((Wrote.putAccount _).trans hwrote).trans hwrote').trans .deleteCodeHash).trans
      .removeAccount, ?_⟩
    rw [record_removeAccount, if_pos rfl, record_deleteCodeHash, if_pos rfl, hrecord', hrecord]
    simp
    rfl

theorem deleteAccount_succeeds (h : w.accounts address = none ∨
      (w.isContract config address = true ∧ config.blockedAddr address.bytes = false)) :
    ∃ t, (deleteAccount config address).run w = .ok () t := by
  rw [deleteAccount]
  cases hacct : w.accounts address with
  | none =>
    refine ⟨w, ?_⟩
    rw [run_get_bind, hacct]
    rfl
  | some acct =>
    rw [hacct] at h
    obtain ⟨hcontract, hblocked⟩ := h.resolve_left (by simp)
    have hmodule : (w.putAccount address { acct with kind := .baseAccount }).isModule address = false := by
      rw [isModule_eq, record_putAccount, if_pos rfl]
      rfl
    obtain ⟨emptied, hbalance⟩ := setBalanceWithLocked_succeeds 0 0 hmodule hblocked (by decide)
    refine ⟨(((emptied.storage address).keys.foldl (fun w key => w.deleteState address key)
      emptied).deleteCodeHash address).removeAccount address, ?_⟩
    rw [run_get_bind, hacct]
    dsimp only
    rw [run_lift_bind]
    refine ⟨(), by simp [hcontract], ?_⟩
    rw [run_modify_bind, run_bind_eq_ok]
    refine ⟨(), emptied, hbalance, ?_⟩
    rw [run_modify_bind, run_modify_eq_ok]

end VmKeeper

end PosChain.Evm
