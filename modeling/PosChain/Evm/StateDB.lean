import PosChain.Base.Snapshots
import PosChain.Evm.AccessList
import PosChain.Evm.Types

namespace PosChain.Evm

variable {W : Type}

structure Revision where
  id : Nat
  journalIndex : Nat
  deriving DecidableEq

-- The snapshots that can be reverted to, the newest one last, and the next free
-- identifier, which is above all that are in use.
structure Revisions where
  valid : List Revision
  next : Nat
  fresh : ∀ revision ∈ valid, revision.id < next

namespace Revisions

def new : Revisions :=
  ⟨[], 0, by simp⟩

def push (revisions : Revisions) (journalIndex : Nat) : Revisions where
  valid := revisions.valid ++ [⟨revisions.next, journalIndex⟩]
  next := revisions.next + 1
  fresh := by
    intro revision hrevision
    rcases List.mem_append.mp hrevision with hold | hnew
    · exact Nat.lt_succ_of_lt (revisions.fresh revision hold)
    · rw [List.mem_singleton.mp hnew]
      exact Nat.lt_succ_self revisions.next

def take (revisions : Revisions) (count : Nat) : Revisions :=
  { revisions with
    valid := revisions.valid.take count
    fresh := fun revision hrevision => revisions.fresh revision (List.mem_of_mem_take hrevision) }

end Revisions

-- The context that precompiles run on: the stores above those of the transaction's
-- context, with their snapshots, and its own events.
structure Cache (W : Type) where
  stores : Snapshots W
  events : List Event

-- The cache context is made by the first precompile call.
structure StateDB (W : Type) where
  ctx : Ctx W
  cache : Option (Cache W)
  transientStorage : Address → Hash → Hash
  journal : Journal
  revisions : Revisions
  stateObjects : Address → Option StateObject
  txIndex : Nat
  refund : UInt64
  logs : List Log
  accessList : AccessList
  precompileCallsCounter : UInt8
  processedEventsCount : Nat

namespace StateObject

variable (env : Env W) (world : W) (address : Address)

def codeOf (object : StateObject) : Option Bytes :=
  match object.code with
  | some code => some code
  | none =>
    if object.account.codeHash = env.emptyCodeHash then none
    else env.keeper.getCode world object.account.codeHash

def loadCode (object : StateObject) : StateObject :=
  { object with code := object.codeOf env world }

def getCommittedState (object : StateObject) (key : Hash) : Hash :=
  (object.originStorage key).getD (env.keeper.getState world address key)

def getState (object : StateObject) (key : Hash) : Hash :=
  (object.dirtyStorage[key]?).getD (object.getCommittedState env world address key)

def loadState (object : StateObject) (key : Hash) : StateObject :=
  if key ∈ object.dirtyStorage then object
  else
    { object with
      originStorage := Function.update object.originStorage key
        (some (object.getCommittedState env world address key)) }

def setBalance (object : StateObject) (amount : Uint256) : StateObject :=
  { object with account := { object.account with balance := amount } }

def setNonce (object : StateObject) (nonce : UInt64) : StateObject :=
  { object with account := { object.account with nonce := nonce } }

def setCode (object : StateObject) (codeHash : Hash) (code : Option Bytes) : StateObject :=
  { object with account := { object.account with codeHash := codeHash }, code := code, dirtyCode := true }

def setState (object : StateObject) (key value : Hash) : StateObject :=
  { object with dirtyStorage := object.dirtyStorage.insert key value }

def setSelfDestructed (object : StateObject) (flag : Bool) : StateObject :=
  { object with selfDestructed := flag }

def setNewContract (object : StateObject) (flag : Bool) : StateObject :=
  { object with newContract := flag }

end StateObject

namespace StateDB

def new (ctx : Ctx W) (txIndex : Nat) : StateDB W where
  ctx := ctx
  cache := none
  transientStorage _ _ := Ethereum.zeroHash
  journal := .new
  revisions := .new
  stateObjects _ := none
  txIndex := txIndex
  refund := 0
  logs := []
  accessList := .new
  precompileCallsCounter := 0
  processedEventsCount := ctx.events.length

def world (s : StateDB W) : W :=
  s.ctx.world

def cacheOrNew (s : StateDB W) : Cache W :=
  s.cache.getD ⟨.new s.world, []⟩

def cacheCtx (s : StateDB W) : Ctx W :=
  ⟨s.cacheOrNew.stores.current, s.cacheOrNew.events⟩

def append (s : StateDB W) (entry : JournalEntry) : StateDB W :=
  { s with journal := s.journal.append entry }

def setStateObject (s : StateDB W) (address : Address) (object : StateObject) : StateDB W :=
  { s with stateObjects := Function.update s.stateObjects address (some object) }

def removeStateObject (s : StateDB W) (address : Address) : StateDB W :=
  { s with stateObjects := Function.update s.stateObjects address none }

-- A change of an object is journalled with what it overwrites.
def change (s : StateDB W) (address : Address) (entry : JournalEntry) (object : StateObject) : StateDB W :=
  (s.append entry).setStateObject address object

section Objects

variable (env : Env W) (s : StateDB W) (address : Address)

-- Live objects come first. The others are loaded and inserted.
def getStateObject : Option StateObject × StateDB W :=
  match s.stateObjects address with
  | some object => (some object, s)
  | none =>
    match env.keeper.getAccount s.world address with
    | none => (none, s)
    | some account => (some (newObject account), s.setStateObject address (newObject account))

def createObject : StateObject × StateDB W :=
  (newObject env.emptyAccount, s.change address (.createObjectChange address) (newObject env.emptyAccount))

def getOrNewStateObject : StateObject × StateDB W :=
  match s.getStateObject env address with
  | (some object, s) => (object, s)
  | (none, s) => s.createObject env address

end Objects

section Getters

variable (env : Env W) (s : StateDB W) (address : Address)

def exist : Bool :=
  (s.getStateObject env address).1.isSome

def getBalance : Uint256 :=
  match (s.getStateObject env address).1 with
  | some object => object.account.balance
  | none => 0

def getNonce : UInt64 :=
  match (s.getStateObject env address).1 with
  | some object => object.account.nonce
  | none => 0

def getCode : Option Bytes :=
  match (s.getStateObject env address).1 with
  | some object => object.codeOf env s.world
  | none => none

def getCodeHash : Hash :=
  match (s.getStateObject env address).1 with
  | some object => object.account.codeHash
  | none => Ethereum.zeroHash

def getState (key : Hash) : Hash :=
  match (s.getStateObject env address).1 with
  | some object => object.getState env s.world address key
  | none => Ethereum.zeroHash

def hasSelfDestructed : Bool :=
  match (s.getStateObject env address).1 with
  | some object => object.selfDestructed
  | none => false

def isNewContract : Bool :=
  match (s.getStateObject env address).1 with
  | some object => object.newContract
  | none => false

end Getters

-- The getters keep what they have loaded.
section Loads

variable (env : Env W) (s : StateDB W) (address : Address)

def loadObject : StateDB W :=
  (s.getStateObject env address).2

def loadCode : StateDB W :=
  match s.getStateObject env address with
  | (some object, s) => s.setStateObject address (object.loadCode env s.world)
  | (none, s) => s

def loadState (key : Hash) : StateDB W :=
  match s.getStateObject env address with
  | (some object, s) => s.setStateObject address (object.loadState env s.world address key)
  | (none, s) => s

end Loads

section Setters

variable (env : Env W) (s : StateDB W)

def addBalance (address : Address) (amount : Uint256) : StateDB W :=
  let (object, s) := s.getOrNewStateObject env address
  if amount = 0 then s
  else
    s.change address (.balanceChange address object.account.balance)
      (object.setBalance (object.account.balance + amount))

def subBalance (address : Address) (amount : Uint256) : Check (StateDB W) :=
  let (object, s) := s.getOrNewStateObject env address
  if amount = 0 then .ok s
  else if object.account.balance < amount then
    .error (.panic ("state balance underflow for " ++ Ethereum.addressHex env.keccak256 address ++
      s!": have={object.account.balance.toNat} sub={amount.toNat}"))
  else
    .ok (s.change address (.balanceChange address object.account.balance)
      (object.setBalance (object.account.balance - amount)))

def setNonce (address : Address) (nonce : UInt64) : StateDB W :=
  let (object, s) := s.getOrNewStateObject env address
  s.change address (.nonceChange address object.account.nonce) (object.setNonce nonce)

def setCode (address : Address) (code : Option Bytes) : StateDB W :=
  let (object, s) := s.getOrNewStateObject env address
  s.change address (.codeChange address (object.codeOf env s.world) object.account.codeHash)
    (object.setCode (env.keccak256 (code.getD [])) code)

-- A value that does not change is not journalled.
def setState (address : Address) (key value : Hash) : StateDB W :=
  let (object, s) := s.getOrNewStateObject env address
  let prev := object.getState env s.world address key
  let loaded := object.loadState env s.world address key
  if prev = value then s.setStateObject address loaded
  else s.change address (.storageChange address key prev) (loaded.setState key value)

def selfDestruct (address : Address) : StateDB W :=
  match s.getStateObject env address with
  | (none, s) => s
  | (some object, s) => s.change address (.selfDestructChange address) (object.setSelfDestructed true)

def createAccount (address : Address) : StateDB W :=
  (s.createObject env address).2

def createContract (address : Address) : Check (StateDB W) :=
  match s.getStateObject env address with
  | (none, _) => .error nilDereference
  | (some object, s) =>
    if object.newContract then .ok s
    else .ok (s.change address (.createContractChange address) (object.setNewContract true))

end Setters

section Counters

variable (s : StateDB W)

def setTransientState (address : Address) (key value : Hash) : StateDB W :=
  { s with
    transientStorage := Function.update s.transientStorage address
      (Function.update (s.transientStorage address) key value) }

def changeTransientState (address : Address) (key value : Hash) : StateDB W :=
  let prev := s.transientStorage address key
  if prev = value then s
  else (s.append (.transientStorageChange address key prev)).setTransientState address key value

def addLog (log : Log) : StateDB W :=
  { s.append .addLogChange with
    logs := s.logs ++ [{ log with txIndex := s.txIndex, index := s.logs.length }] }

def addRefund (gas : UInt64) : StateDB W :=
  { s.append (.refundChange s.refund) with refund := s.refund + gas }

def subRefund (gas : UInt64) : Check (StateDB W) :=
  if gas > s.refund then
    .error (.panic s!"Refund counter below zero (gas: {gas.toNat} > refund: {s.refund.toNat})")
  else .ok { s.append (.refundChange s.refund) with refund := s.refund - gas }

def addAddressToAccessList (address : Address) : StateDB W :=
  let (added, accessList) := s.accessList.addAddress address
  if added then { s.append (.accessListAddAccountChange address) with accessList := accessList } else s

def addSlotToAccessList (address : Address) (slot : Hash) : Check (StateDB W) := do
  let (addressAdded, slotAdded, accessList) ← s.accessList.addSlot address slot
  let s := if addressAdded then s.append (.accessListAddAccountChange address) else s
  let s := if slotAdded then s.append (.accessListAddSlotChange address slot) else s
  return { s with accessList := accessList }

-- Preparing a transaction starts a new access list and a new transient storage.
structure Rules where
  isEIP2929 : Bool
  isEIP4762 : Bool
  isShanghai : Bool

def preparedAccessList (rules : Rules) (sender coinbase : Address) (dst : Option Address)
    (precompiles : List Address) (list : List (Address × List Hash)) : Check AccessList := do
  let start := (AccessList.new.addAddress sender).2
  let called := dst.toList.foldl (fun acc address => (acc.addAddress address).2) start
  let known := precompiles.foldl (fun acc address => (acc.addAddress address).2) called
  let full ← list.foldlM (fun acc tuple =>
    tuple.2.foldlM (fun acc key => do return (← AccessList.addSlot acc tuple.1 key).2.2)
      (acc.addAddress tuple.1).2) known
  return if rules.isShanghai then (full.addAddress coinbase).2 else full

def prepare (rules : Rules) (sender coinbase : Address) (dst : Option Address)
    (precompiles : List Address) (list : List (Address × List Hash)) : Check (StateDB W) := do
  if rules.isEIP2929 && rules.isEIP4762 then
    throw (.panic "eip2929 and eip4762 are both activated")
  let accessList ←
    if rules.isEIP2929 then preparedAccessList rules sender coinbase dst precompiles list
    else .ok s.accessList
  return { s with accessList := accessList, transientStorage := fun _ _ => Ethereum.zeroHash }

end Counters

section Reverting

variable (env : Env W)

-- The object of an entry is written through a pointer that may be nil.
def revertObject (s : StateDB W) (address : Address) (write : StateObject → StateObject) :
    Check (StateDB W) :=
  match s.getStateObject env address with
  | (none, _) => .error nilDereference
  | (some object, s) => .ok (s.setStateObject address (write object))

-- The stores and the events of the cache context go back together.
def revertCache (s : StateDB W) (snapshot : Nat) (events : List Event) : Check (StateDB W) :=
  match s.cache with
  | none => .error nilDereference
  | some cache =>
    match cache.stores.revert snapshot with
    | none =>
      .error (.panic s!"snapshot index {snapshot} out of bound [0..{cache.stores.saved.length})")
    | some stores => .ok { s with cache := some ⟨stores, events⟩ }

def revertEntry (s : StateDB W) : JournalEntry → Check (StateDB W)
  | .createObjectChange account => .ok (s.removeStateObject account)
  | .selfDestructChange account =>
    match s.getStateObject env account with
    | (none, s) => .ok s
    | (some object, s) => .ok (s.setStateObject account (object.setSelfDestructed false))
  | .balanceChange account prev => s.revertObject env account fun object => object.setBalance prev
  | .nonceChange account prev => s.revertObject env account fun object => object.setNonce prev
  | .storageChange account key prevalue =>
    s.revertObject env account fun object => object.setState key prevalue
  | .transientStorageChange account key prevalue => .ok (s.setTransientState account key prevalue)
  | .codeChange account prevcode prevhash =>
    s.revertObject env account fun object => object.setCode prevhash prevcode
  | .refundChange prev => .ok { s with refund := prev }
  | .addLogChange =>
    if s.logs = [] then .error (.panic "runtime error: slice bounds out of range [:-1]")
    else .ok { s with logs := s.logs.dropLast }
  | .accessListAddAccountChange address =>
    .ok { s with accessList := s.accessList.deleteAddress address }
  | .accessListAddSlotChange address slot => do
    return { s with accessList := ← s.accessList.deleteSlot address slot }
  | .precompileCallChange snapshot prevEvents prevProcessedEventCount => do
    let s ← s.revertCache snapshot prevEvents
    return { s with processedEventsCount := prevProcessedEventCount }
  | .createContractChange account =>
    s.revertObject env account fun object => object.setNewContract false

-- The entries of the journal are reverted from the newest one on.
def revertEntries : List JournalEntry → StateDB W → Check (StateDB W)
  | [], s => .ok s
  | entry :: older, s => do
    let s ← s.revertEntry env entry
    revertEntries older { s with journal := s.journal.dropLast }

def revertJournal (s : StateDB W) (snapshot : Nat) : Check (StateDB W) :=
  revertEntries env (s.journal.entries.take (s.journal.length - snapshot)) s

def snapshot (s : StateDB W) : Nat × StateDB W :=
  (s.revisions.next, { s with revisions := s.revisions.push s.journal.length })

def revertToSnapshot (s : StateDB W) (revid : Nat) : Check (StateDB W) :=
  let index := s.revisions.valid.findIdx fun revision => revision.id ≥ revid
  match s.revisions.valid[index]? with
  | none => .error (.panic s!"revision id {revid} cannot be reverted")
  | some revision =>
    if revision.id ≠ revid then .error (.panic s!"revision id {revid} cannot be reverted")
    else do
      let s ← s.revertJournal env revision.journalIndex
      return { s with revisions := s.revisions.take index }

end Reverting

section Committing

variable (env : Env W) (s : StateDB W)

def commitState (address : Address) (entry : Hash × Hash) : Action (Ctx W) Unit :=
  if entry.2.bytes.length = 0 then env.keeper.deleteState address entry.1
  else env.keeper.setState address entry.1 entry.2.bytes

def commitCode (object : StateObject) : Action (Ctx W) Unit :=
  match object.code with
  | none => pure ()
  | some code =>
    if object.dirtyCode then
      if code.length = 0 then env.keeper.deleteCode object.account.codeHash
      else env.keeper.setCode object.account.codeHash code
    else pure ()

-- A contract that was created in this transaction has to be stored before it can
-- be deleted.
def commitDestructed (address : Address) (object : StateObject) : Action (Ctx W) Unit := do
  match object.code with
  | none => pure ()
  | some code =>
    runIf (object.dirtyCode && decide (0 < code.length)) do
      env.keeper.setCode object.account.codeHash code
      wrapError "failed to set account before delete" (env.keeper.setAccount address object.account)
  wrapError ("failed to delete account " ++ Ethereum.addressHex env.keccak256 address)
    (env.keeper.deleteAccount address)

def commitLive (address : Address) (object : StateObject) : Action (Ctx W) Unit := do
  commitCode env object
  wrapError "failed to set account" (env.keeper.setAccount address object.account)
  object.dirtyStorage.toList.forM (commitState env address)

def commitObject (address : Address) : Action (Ctx W) Unit :=
  match s.stateObjects address with
  | none => throw nilDereference
  | some object =>
    if object.selfDestructed then commitDestructed env address object
    else commitLive env address object

def commitWithCtx : Action (Ctx W) Unit :=
  s.journal.sortedDirties.forM (s.commitObject env)

-- The stores and events of the precompile calls go to the context first.
def writeCache : Ctx W :=
  match s.cache with
  | none => s.ctx
  | some cache => ⟨cache.stores.write.published, s.ctx.events ++ cache.events⟩

def commit : EStateM.Result Fault (Ctx W) Unit :=
  (s.commitWithCtx env).run s.writeCache

def setCacheCtx (ctx : Ctx W) (s : StateDB W) : StateDB W :=
  { s with cache := some ⟨s.cacheOrNew.stores.modify fun _ => ctx.world, ctx.events⟩ }

-- The cache context has to be there.
def flushToCacheCtx : Action (StateDB W) Unit := do
  let s ← get
  let _ ← orFail s.cache nilDereference
  onPart cacheCtx setCacheCtx (s.commitWithCtx env)
  modify fun s => { s with processedEventsCount := s.cacheCtx.events.length }

end Committing

section Precompiles

variable (env : Env W) (s : StateDB W)

def getCacheContext : StateDB W :=
  { s with cache := some s.cacheOrNew }

def multiStoreSnapshot : Check (Nat × StateDB W) :=
  match s.cache with
  | none => .error nilDereference
  | some cache =>
    .ok (cache.stores.snapshot.1, { s with cache := some { cache with stores := cache.stores.snapshot.2 } })

def addPrecompileFn (snapshot : Nat) : Action (StateDB W) Unit := do
  let _ ← orFail (← get).cache nilDereference
  modify fun s =>
    { s.append (.precompileCallChange snapshot s.cacheCtx.events s.processedEventsCount) with
      precompileCallsCounter := s.precompileCallsCounter + 1 }
  let s ← get
  failIf (maxPrecompileCalls < s.precompileCallsCounter)
    s!"max calls to precompiles ({maxPrecompileCalls.toNat}) reached"

def isEventProcessed (index : Nat) : Bool :=
  decide (index < s.processedEventsCount)

def parseAmount (type : String) (amount : Nat) : Check Uint256 :=
  if amount < 2 ^ 256 then .ok (BitVec.ofNat 256 amount)
  else
    .error (.error ("failed to parse amount from event \"" ++ type ++
      "\": failed to convert coin amount to Uint256: overflow trying to convert *big.Int (" ++
      toString amount ++ ") to uint256.Int (" ++ toString (amount % 2 ^ 256) ++ ")"))

-- Blocked addresses keep what the stores say.
def applyEvent (s : StateDB W) : Event → Check (StateDB W)
  | .coinSpent spender amount =>
    if env.blockedAddr spender then .ok s
    else do
      let amount ← parseAmount "coin_spent" amount
      s.subBalance env (Ethereum.bytesToAddress spender) amount
  | .coinReceived receiver amount =>
    if env.blockedAddr receiver then .ok s
    else do
      let amount ← parseAmount "coin_received" amount
      return s.addBalance env (Ethereum.bytesToAddress receiver) amount
  | .other _ => .ok s

def handleEvent (entry : Event × Nat) : Action (StateDB W) Unit := do
  let s ← get
  if s.isEventProcessed entry.2 then pure ()
  else
    let s ← s.applyEvent env entry.1
    set s

def afterBalanceChange (prevEventsLen : Nat) : Action (StateDB W) Unit := do
  let s ← get
  ((s.cacheCtx.events.drop prevEventsLen).zipIdx prevEventsLen).forM (handleEvent env)

end Precompiles

end StateDB

end PosChain.Evm
