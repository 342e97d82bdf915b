import PosChain.Base.KVStore
import PosChain.Cosmos.Bank
import PosChain.Ethereum.Common

namespace PosChain.Evm

abbrev Uint256 := BitVec 256

-- An account as the StateDB holds it. The balance is the spendable one, and the
-- locked balance is what the bank held back when the account was loaded.
structure Account where
  nonce : UInt64
  balance : Uint256
  codeHash : Hash
  lockedBalance : Option Nat
  deriving DecidableEq

-- The events of a context as the balance handler tells them apart. The amount is
-- the one of the EVM denomination.
inductive Event where
  | coinSpent (spender : AccAddress) (amount : Nat)
  | coinReceived (receiver : AccAddress) (amount : Nat)
  | other (type : String)
  deriving DecidableEq

-- The stores of the modules together with the events emitted on a context.
structure Ctx (W : Type) where
  world : W
  events : List Event

structure Keeper (W : Type) where
  getAccount : W → Address → Option Account
  getState : W → Address → Hash → Hash
  getCode : W → Hash → Option Bytes
  setAccount : Address → Account → Action (Ctx W) Unit
  deleteState : Address → Hash → Action (Ctx W) Unit
  setState : Address → Hash → Bytes → Action (Ctx W) Unit
  deleteCode : Hash → Action (Ctx W) Unit
  setCode : Hash → Bytes → Action (Ctx W) Unit
  deleteAccount : Address → Action (Ctx W) Unit

structure Env (W : Type) where
  keeper : Keeper W
  keccak256 : Bytes → Hash
  blockedAddr : AccAddress → Bool

namespace Env

variable {W : Type} (env : Env W)

def emptyCodeHash : Hash :=
  env.keccak256 []

def emptyAccount : Account :=
  ⟨0, 0, env.emptyCodeHash, none⟩

end Env

def maxPrecompileCalls : UInt8 := 20

structure Log where
  address : Address
  topics : List Hash
  data : Bytes
  txIndex : Nat
  index : Nat
  deriving DecidableEq

-- An account that the transaction has loaded or created, with the storage it
-- read and the storage it wrote.
structure StateObject where
  account : Account
  code : Option Bytes
  originStorage : Hash → Option Hash
  dirtyStorage : Std.ExtTreeMap Hash Hash
  dirtyCode : Bool
  selfDestructed : Bool
  newContract : Bool

def newObject (account : Account) : StateObject :=
  ⟨account, none, fun _ => none, ∅, false, false, false⟩

-- One entry for each kind of change that can be reverted, with what the change
-- has overwritten.
inductive JournalEntry where
  | createObjectChange (account : Address)
  | selfDestructChange (account : Address)
  | balanceChange (account : Address) (prev : Uint256)
  | nonceChange (account : Address) (prev : UInt64)
  | storageChange (account : Address) (key prevalue : Hash)
  | transientStorageChange (account : Address) (key prevalue : Hash)
  | codeChange (account : Address) (prevcode : Option Bytes) (prevhash : Hash)
  | refundChange (prev : UInt64)
  | addLogChange
  | accessListAddAccountChange (address : Address)
  | accessListAddSlotChange (address : Address) (slot : Hash)
  | precompileCallChange (snapshot : Nat) (prevEvents : List Event) (prevProcessedEventCount : Nat)
  | createContractChange (account : Address)

def JournalEntry.dirtied : JournalEntry → Option Address
  | .createObjectChange account => some account
  | .selfDestructChange account => some account
  | .balanceChange account _ => some account
  | .nonceChange account _ => some account
  | .storageChange account _ _ => some account
  | .codeChange account _ _ => some account
  | .transientStorageChange _ _ _ => none
  | .refundChange _ => none
  | .addLogChange => none
  | .accessListAddAccountChange _ => none
  | .accessListAddSlotChange _ _ => none
  | .precompileCallChange _ _ _ => none
  | .createContractChange _ => none

def dirtyCount (entries : List JournalEntry) (address : Address) : Nat :=
  entries.countP fun entry => entry.dirtied = some address

theorem dirtyCount_cons (entry : JournalEntry) (older : List JournalEntry) (address : Address) :
    dirtyCount (entry :: older) address =
      dirtyCount older address + if entry.dirtied = some address then 1 else 0 := by
  simp [dirtyCount, List.countP_cons]

-- The journal, the newest entry first, with its count of changes for each account
-- that has any.
structure Journal where
  entries : List JournalEntry
  dirties : Std.ExtTreeMap Address Nat
  counted : ∀ address, dirties[address]? =
    if dirtyCount entries address = 0 then none else some (dirtyCount entries address)

namespace Journal

def new : Journal :=
  ⟨[], ∅, fun _ => by simp [dirtyCount]⟩

def length (journal : Journal) : Nat :=
  journal.entries.length

def sortedDirties (journal : Journal) : List Address :=
  journal.dirties.keys

def appendDirties (dirties : Std.ExtTreeMap Address Nat) : Option Address → Std.ExtTreeMap Address Nat
  | none => dirties
  | some address => dirties.insert address (dirties.getD address 0 + 1)

def dropDirties (dirties : Std.ExtTreeMap Address Nat) : Option Address → Std.ExtTreeMap Address Nat
  | none => dirties
  | some address =>
    if dirties.getD address 0 - 1 = 0 then dirties.erase address
    else dirties.insert address (dirties.getD address 0 - 1)

theorem getD_counted {entries : List JournalEntry} {dirties : Std.ExtTreeMap Address Nat}
    (counted : ∀ address, dirties[address]? =
      if dirtyCount entries address = 0 then none else some (dirtyCount entries address))
    (address : Address) : dirties.getD address 0 = dirtyCount entries address := by
  rw [Std.ExtTreeMap.getD_eq_getD_getElem?, counted]
  split
  · rename_i h
    rw [h]
    rfl
  · rfl

def append (journal : Journal) (entry : JournalEntry) : Journal where
  entries := entry :: journal.entries
  dirties := appendDirties journal.dirties entry.dirtied
  counted address := by
    rw [dirtyCount_cons]
    cases hdirtied : entry.dirtied with
    | none => simpa [appendDirties] using journal.counted address
    | some changed =>
      rw [appendDirties, Std.ExtTreeMap.getElem?_insert, getD_counted journal.counted]
      by_cases h : changed = address
      · subst h
        simp
      · have hcompare : compare changed address ≠ .eq := fun heq =>
          h (Std.LawfulEqCmp.eq_of_compare heq)
        simpa [hcompare, h] using journal.counted address

-- Reverting an entry drops it together with the dirty mark that it has set.
def dropLast (journal : Journal) : Journal :=
  match hentries : journal.entries with
  | [] => journal
  | entry :: older =>
    { entries := older
      dirties := dropDirties journal.dirties entry.dirtied
      counted := by
        intro address
        have hcounted := journal.counted
        rw [hentries] at hcounted
        have haddress := hcounted address
        rw [dirtyCount_cons] at haddress
        cases hdirtied : entry.dirtied with
        | none => simpa [dropDirties, hdirtied] using haddress
        | some changed =>
          have hcount := getD_counted hcounted changed
          rw [dirtyCount_cons, hdirtied, if_pos rfl] at hcount
          rw [dropDirties, hcount, Nat.add_sub_cancel]
          by_cases h : changed = address
          · subst h
            by_cases hzero : dirtyCount older changed = 0
            · simp [hzero]
            · simp [hzero]
          · have hcompare : compare changed address ≠ .eq := fun heq =>
              h (Std.LawfulEqCmp.eq_of_compare heq)
            have hother : ¬ some changed = some address := by simpa using h
            simp only [hdirtied, hother, if_false, Nat.add_zero] at haddress
            by_cases hzero : dirtyCount older changed = 0
            · rw [if_pos hzero, Std.ExtTreeMap.getElem?_erase, if_neg hcompare, haddress]
            · rw [if_neg hzero, Std.ExtTreeMap.getElem?_insert, if_neg hcompare, haddress] }

@[simp] theorem entries_append (journal : Journal) (entry : JournalEntry) :
    (journal.append entry).entries = entry :: journal.entries :=
  rfl

@[simp] theorem entries_dropLast (journal : Journal) : journal.dropLast.entries = journal.entries.tail := by
  unfold dropLast
  split
  · rename_i h
    simp [h]
  · rename_i h
    simp [h]

theorem eq_of_entries {first second : Journal} (h : first.entries = second.entries) : first = second := by
  obtain ⟨entries, dirties, counted⟩ := first
  obtain ⟨entries', dirties', counted'⟩ := second
  obtain rfl : entries = entries' := h
  congr
  refine Std.ExtTreeMap.ext_getElem? fun address => ?_
  rw [counted, counted']

theorem mem_sortedDirties (journal : Journal) (address : Address) :
    address ∈ journal.sortedDirties ↔ ∃ entry ∈ journal.entries, entry.dirtied = some address := by
  rw [sortedDirties, Std.ExtTreeMap.mem_keys, ← Std.ExtTreeMap.isSome_getElem?_iff_mem, journal.counted]
  have hcount : dirtyCount journal.entries address = 0 ↔
      ¬ ∃ entry ∈ journal.entries, entry.dirtied = some address := by
    simp [dirtyCount]
  by_cases h : dirtyCount journal.entries address = 0
  · simpa [h] using hcount.mp h
  · simpa [h] using (not_congr hcount).mp h

end Journal

end PosChain.Evm
