import PosChain.Base.UndoLog
import PosChain.Evm.StateDB

namespace PosChain.Evm

variable {W : Type}

structure ObjectView where
  account : Account
  code : Option Bytes
  storage : Hash → Hash
  selfDestructed : Bool
  newContract : Bool

-- What the getters report of the accounts and of the rest of the transaction.
structure Core where
  objects : Address → Option ObjectView
  transientStorage : Address → Hash → Hash
  refund : UInt64
  logs : List Log
  accessList : AccessList

structure CacheView (W : Type) where
  cache : Cache W
  processed : Nat

def lookupCode (env : Env W) (world : W) (codeHash : Hash) : Option Bytes :=
  if codeHash = env.emptyCodeHash then none else env.keeper.getCode world codeHash

namespace StateObject

variable (env : Env W) (world : W) (address : Address) (object : StateObject)

def view : ObjectView where
  account := object.account
  code := object.codeOf env world
  storage := object.getState env world address
  selfDestructed := object.selfDestructed
  newContract := object.newContract

theorem codeOf_eq : object.codeOf env world = object.code.or (lookupCode env world object.account.codeHash) := by
  unfold codeOf lookupCode
  cases object.code <;> rfl

@[simp] theorem view_loadCode : (object.loadCode env world).view env world address =
    object.view env world address := by
  have hcode : (object.loadCode env world).codeOf env world = object.codeOf env world := by
    rw [codeOf_eq, codeOf_eq]
    simp only [loadCode, codeOf_eq]
    cases object.code <;> simp
  simp only [view, hcode]
  rfl

@[simp] theorem view_loadState (key : Hash) : (object.loadState env world address key).view env world address =
    object.view env world address := by
  have hstorage : (object.loadState env world address key).getState env world address =
      object.getState env world address := by
    funext other
    unfold loadState
    split
    · rfl
    · simp only [getState, getCommittedState]
      by_cases h : other = key
      · subst h
        simp
      · simp [h]
  have hrest : (object.loadState env world address key).account = object.account ∧
      (object.loadState env world address key).codeOf env world = object.codeOf env world ∧
      (object.loadState env world address key).selfDestructed = object.selfDestructed ∧
      (object.loadState env world address key).newContract = object.newContract := by
    unfold loadState
    split
    · exact ⟨rfl, rfl, rfl, rfl⟩
    · exact ⟨rfl, rfl, rfl, rfl⟩
  simp only [view, hstorage, hrest.1, hrest.2.1, hrest.2.2.1, hrest.2.2.2]

theorem storage_setState (key value : Hash) : (object.setState key value).getState env world address =
    Function.update (object.getState env world address) key value := by
  funext other
  by_cases h : other = key
  · subst h
    simp [getState, setState]
  · have hne : ¬ key = other := fun heq => h heq.symm
    simp [getState, setState, h, hne, Std.ExtTreeMap.getElem?_insert, getCommittedState]

-- An object keeps the marks that decide what a commit writes of it.
structure Within (object next : StateObject) : Prop where
  dirtyCode : object.dirtyCode = true → next.dirtyCode = true
  dirtyStorage : ∀ key, key ∈ object.dirtyStorage → key ∈ next.dirtyStorage

theorem Within.refl : Within object object :=
  ⟨id, fun _ => id⟩

theorem Within.trans {first second third : StateObject} (h : Within first second)
    (h' : Within second third) : Within first third :=
  ⟨fun hd => h'.dirtyCode (h.dirtyCode hd), fun key hk => h'.dirtyStorage key (h.dirtyStorage key hk)⟩

theorem within_loadState (key : Hash) : Within object (object.loadState env world address key) := by
  unfold loadState
  split
  · exact Within.refl object
  · exact ⟨id, fun _ => id⟩

theorem within_setState (key value : Hash) : Within object (object.setState key value) := by
  refine ⟨id, fun other hother => ?_⟩
  simp only [setState, Std.ExtTreeMap.mem_insert]
  exact Or.inr hother

end StateObject

namespace Core

def onObject (core : Core) (address : Address) (write : ObjectView → ObjectView) : Option Core :=
  (core.objects address).map fun object =>
    { core with objects := Function.update core.objects address (some (write object)) }

def forget (destructed : List Address) (core : Core) : Core :=
  { core with
    objects := fun address =>
      if address ∈ destructed then
        (core.objects address).map fun object => { object with selfDestructed := false }
      else core.objects address }

@[simp] theorem forget_nil (core : Core) : core.forget [] = core := by
  simp [forget]

theorem forget_forget (first second : List Address) (core : Core) :
    (core.forget first).forget second = core.forget (first ++ second) := by
  have hobjects : ((core.forget first).forget second).objects = (core.forget (first ++ second)).objects := by
    funext address
    simp only [forget, List.mem_append]
    by_cases hfirst : address ∈ first <;> by_cases hsecond : address ∈ second <;>
      simp [hfirst, hsecond, Function.comp_def]
  exact congrArg (fun objects => { core with objects := objects }) hobjects

theorem forget_congr {first second : List Address} (h : ∀ address, address ∈ first ↔ address ∈ second)
    (core : Core) : core.forget first = core.forget second := by
  simp only [forget, h]

theorem forget_of_absent {core : Core} {address : Address} (h : core.objects address = none) :
    core.forget [address] = core := by
  have hobjects : (core.forget [address]).objects = core.objects := by
    funext other
    by_cases heq : other = address
    · subst heq
      simp [forget, h]
    · simp [forget, heq]
  exact congrArg (fun objects => { core with objects := objects }) hobjects

theorem forget_of_present {core : Core} {address : Address} {view : ObjectView}
    (h : core.objects address = some view) :
    core.forget [address] =
      { core with
        objects := Function.update core.objects address (some { view with selfDestructed := false }) } := by
  have hobjects : (core.forget [address]).objects =
      Function.update core.objects address (some { view with selfDestructed := false }) := by
    funext other
    by_cases heq : other = address
    · subst heq
      simp [forget, h]
    · simp [forget, heq]
  exact congrArg (fun objects => { core with objects := objects }) hobjects

end Core

-- The object of an entry, and how the entry is undone on it.
def JournalEntry.undoObject (env : Env W) (world : W) :
    JournalEntry → Option (Address × (ObjectView → ObjectView))
  | .balanceChange account prev =>
    some (account, fun view => { view with account := { view.account with balance := prev } })
  | .nonceChange account prev =>
    some (account, fun view => { view with account := { view.account with nonce := prev } })
  | .storageChange account key prevalue =>
    some (account, fun view => { view with storage := Function.update view.storage key prevalue })
  | .codeChange account prevcode prevhash =>
    some (account, fun view =>
      { view with
        account := { view.account with codeHash := prevhash }
        code := prevcode.or (lookupCode env world prevhash) })
  | .createContractChange account => some (account, fun view => { view with newContract := false })
  | _ => none

def loadedView (env : Env W) (world : W) (address : Address) : Option ObjectView :=
  (env.keeper.getAccount world address).map fun account => (newObject account).view env world address

def undoCore (env : Env W) (world : W) (entry : JournalEntry) (core : Core) : Option Core :=
  match entry.undoObject env world with
  | some (account, write) => core.onObject account write
  | none =>
    match entry with
    | .createObjectChange account =>
      some { core with objects := Function.update core.objects account (loadedView env world account) }
    | .selfDestructChange account => some (core.forget [account])
    | .transientStorageChange account key prevalue =>
      some { core with
        transientStorage := Function.update core.transientStorage account
          (Function.update (core.transientStorage account) key prevalue) }
    | .refundChange prev => some { core with refund := prev }
    | .addLogChange => if core.logs = [] then none else some { core with logs := core.logs.dropLast }
    | .accessListAddAccountChange address =>
      some { core with accessList := core.accessList.deleteAddress address }
    | .accessListAddSlotChange address slot =>
      (core.accessList.deleteSlot address slot).toOption.map fun list => { core with accessList := list }
    | _ => some core

def undoCache (entry : JournalEntry) (view : CacheView W) : Option (CacheView W) :=
  match entry with
  | .precompileCallChange snapshot prevEvents prevProcessedEventCount =>
    (view.cache.stores.revert snapshot).map fun stores =>
      ⟨⟨stores, prevEvents⟩, prevProcessedEventCount⟩
  | _ => some view

theorem undoCore_forget (env : Env W) (world : W) (destructed : List Address) (entry : JournalEntry)
    (core : Core) :
    undoCore env world entry (core.forget destructed) =
      (undoCore env world entry core).map (Core.forget destructed) := by
  have hobject : ∀ (account : Address) (write : ObjectView → ObjectView),
      (∀ view, write { view with selfDestructed := false } = { write view with selfDestructed := false }) →
        (core.forget destructed).onObject account write =
          (core.onObject account write).map (Core.forget destructed) := by
    intro account write hwrite
    cases hfound : core.objects account with
    | none =>
      have hnone : (core.forget destructed).objects account = none := by
        simp [Core.forget, hfound]
      simp [Core.onObject, hfound, hnone]
    | some view =>
      by_cases hmem : account ∈ destructed
      · have hsome : (core.forget destructed).objects account =
            some { view with selfDestructed := false } := by
          simp [Core.forget, hfound, hmem]
        simp only [Core.onObject, hfound, hsome, Option.map_some, hwrite, Option.some_inj]
        simp only [Core.forget]
        congr 1
        funext address
        by_cases h : address = account
        · subst h
          simp [hmem]
        · simp [h]
      · have hsome : (core.forget destructed).objects account = some view := by
          simp [Core.forget, hfound, hmem]
        simp only [Core.onObject, hfound, hsome, Option.map_some, Option.some_inj]
        simp only [Core.forget]
        congr 1
        funext address
        by_cases h : address = account
        · subst h
          simp [hmem]
        · simp [h]
  cases entry with
  | balanceChange account prev => exact hobject account _ fun _ => rfl
  | nonceChange account prev => exact hobject account _ fun _ => rfl
  | storageChange account key prevalue => exact hobject account _ fun _ => rfl
  | codeChange account prevcode prevhash => exact hobject account _ fun _ => rfl
  | createContractChange account => exact hobject account _ fun _ => rfl
  | createObjectChange account =>
    simp only [undoCore, JournalEntry.undoObject, Option.map_some, Option.some_inj]
    simp only [Core.forget]
    congr 1
    funext address
    by_cases h : address = account
    · subst h
      by_cases hmem : address ∈ destructed
      · simp [hmem, loadedView, Function.comp_def, StateObject.view, newObject]
      · simp [hmem]
    · simp [h]
  | selfDestructChange account =>
    have hcomm : core.forget (destructed ++ [account]) = core.forget ([account] ++ destructed) :=
      Core.forget_congr (fun address => by simp [or_comm]) core
    simp only [undoCore, JournalEntry.undoObject, Option.map_some, Core.forget_forget, hcomm]
  | transientStorageChange account key prevalue => rfl
  | refundChange prev => rfl
  | addLogChange =>
    simp only [undoCore, JournalEntry.undoObject]
    by_cases h : core.logs = []
    · simp [h, Core.forget]
    · simp [h, Core.forget]
  | accessListAddAccountChange address => rfl
  | accessListAddSlotChange address slot =>
    simp only [undoCore, JournalEntry.undoObject, Option.map_map]
    rfl
  | precompileCallChange snapshot prevEvents prevProcessed => rfl

end PosChain.Evm
