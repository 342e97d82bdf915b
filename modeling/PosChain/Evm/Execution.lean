import PosChain.Base.Triple
import PosChain.Evm.StateDB

namespace PosChain.Evm

variable {W : Type}

-- The operations of the StateDB that the EVM issues. The three loads stand for the
-- getters, which change nothing but what is cached.
inductive Op where
  | loadObject (address : Address)
  | loadCode (address : Address)
  | loadState (address : Address) (key : Hash)
  | addBalance (address : Address) (amount : Uint256)
  | subBalance (address : Address) (amount : Uint256)
  | transfer (sender recipient : Address) (amount : Uint256)
  | setNonce (address : Address) (nonce : UInt64)
  | setCode (address : Address) (code : Option Bytes)
  | setState (address : Address) (key value : Hash)
  | setTransientState (address : Address) (key value : Hash)
  | selfDestruct (address : Address)
  | createAccount (address : Address)
  | createContract (address : Address)
  | addLog (log : Log)
  | addRefund (gas : UInt64)
  | subRefund (gas : UInt64)
  | addAddressToAccessList (address : Address)
  | addSlotToAccessList (address : Address) (slot : Hash)

-- An account is created only where there is none.
def Op.apply (env : Env W) : Op → StateDB W → Check (StateDB W)
  | .loadObject address, s => .ok (s.loadObject env address)
  | .loadCode address, s => .ok (s.loadCode env address)
  | .loadState address key, s => .ok (s.loadState env address key)
  | .addBalance address amount, s => .ok (s.addBalance env address amount)
  | .subBalance address amount, s => s.subBalance env address amount
  | .transfer sender recipient amount, s => do
    let s ← s.subBalance env sender amount
    return s.addBalance env recipient amount
  | .setNonce address nonce, s => .ok (s.setNonce env address nonce)
  | .setCode address code, s => .ok (s.setCode env address code)
  | .setState address key value, s => .ok (s.setState env address key value)
  | .setTransientState address key value, s => .ok (s.changeTransientState address key value)
  | .selfDestruct address, s => .ok (s.selfDestruct env address)
  | .createAccount address, s =>
    .ok (if s.exist env address then s.loadObject env address else s.createAccount env address)
  | .createContract address, s => s.createContract env address
  | .addLog log, s => .ok (s.addLog log)
  | .addRefund gas, s => .ok (s.addRefund gas)
  | .subRefund gas, s => s.subRefund gas
  | .addAddressToAccessList address, s => .ok (s.addAddressToAccessList address)
  | .addSlotToAccessList address slot, s => s.addSlotToAccessList address slot

-- An execution is a script of the operations it issues, in their nesting. Code runs
-- in the EVM, or in the native action of a precompile with or without a balance
-- handler. The world is whatever the stores of the modules hold.
inductive Place where
  | evm
  | action (handled : Bool)

-- A frame ends with a revert or without one. A call of a precompile is a frame of
-- its own, which transfers its value, runs the native action and is reverted if
-- that fails. An action writes the stores, emits events and may call the EVM.
inductive Script (W : Type) : Place → Type where
  | done {place : Place} : Script W place
  | op (o : Op) (rest : Script W .evm) : Script W .evm
  | frame (body : Script W .evm) (reverts : Bool) (rest : Script W .evm) : Script W .evm
  | precompile (before : List Op) (handled : Bool) (action : Script W (.action handled)) (fails : Bool)
      (rest : Script W .evm) : Script W .evm
  | native (handled : Bool) (act : Ctx W → Ctx W) (rest : Script W (.action handled)) :
      Script W (.action handled)
  | reenter (handled : Bool) (body : Script W .evm) (rest : Script W (.action handled)) :
      Script W (.action handled)

-- What an execution has done so far, the newest step first, each with the state in
-- which it was done.
inductive Step (W : Type) where
  | op (o : Op) (db : StateDB W)
  | native (handled : Bool) (before after : Ctx W)
  | reenter (db : StateDB W)

structure Machine (W : Type) where
  db : StateDB W
  history : List (Step W)

namespace Machine

variable (env : Env W)

def record (step : Step W) (m : Machine W) : Machine W :=
  { m with history := step :: m.history }

def setDb (db : StateDB W) (m : Machine W) : Machine W :=
  { m with db := db }

def issue (o : Op) : Action (Machine W) Unit := do
  let m ← get
  let db ← o.apply env m.db
  set (m.record (.op o m.db) |>.setDb db)

def snapshot : Action (Machine W) Nat := do
  let m ← get
  set (m.setDb m.db.snapshot.2)
  return m.db.snapshot.1

def revertToSnapshot (revid : Nat) : Action (Machine W) Unit := do
  let m ← get
  let db ← m.db.revertToSnapshot env revid
  set (m.setDb db)

def flushToCacheCtx : Action (Machine W) Unit :=
  onPart db setDb (StateDB.flushToCacheCtx env)

def native (handled : Bool) (act : Ctx W → Ctx W) : Action (Machine W) Unit :=
  modify fun m =>
    m.record (.native handled m.db.cacheCtx (act m.db.cacheCtx)) |>.setDb
      (m.db.setCacheCtx (act m.db.cacheCtx))

-- The context of a precompile call: a snapshot of the stores, the entry of the
-- journal that leads back to it, and the state of the transaction written to the
-- stores that the action will read.
def enterPrecompile : Action (Machine W) Unit := do
  modify fun m => m.setDb m.db.getCacheContext
  let m ← get
  let (index, db) ← m.db.multiStoreSnapshot
  set (m.setDb db)
  onPart Machine.db setDb (StateDB.addPrecompileFn index)
  flushToCacheCtx env

def runNativeAction (handled : Bool) (action : Action (Machine W) Unit) : Action (Machine W) Unit := do
  enterPrecompile env
  let m ← get
  action
  runIf handled (onPart db setDb (StateDB.afterBalanceChange env m.db.cacheCtx.events.length))

def exec : {place : Place} → Script W place → Action (Machine W) Unit
  | _, .done => pure ()
  | _, .op o rest => do
    issue env o
    exec rest
  | _, .frame body reverts rest => do
    let revid ← snapshot
    exec body
    runIf reverts (revertToSnapshot env revid)
    exec rest
  | _, .precompile before handled action fails rest => do
    let revid ← snapshot
    before.forM (issue env)
    let succeeded ← attempt (runNativeAction env handled (exec action))
    runIf (!succeeded || fails) (revertToSnapshot env revid)
    exec rest
  | _, .native handled act rest => do
    native handled act
    exec rest
  | _, .reenter _ body rest => do
    modify fun m => m.record (.reenter m.db)
    exec body
    flushToCacheCtx env
    exec rest

end Machine

end PosChain.Evm
