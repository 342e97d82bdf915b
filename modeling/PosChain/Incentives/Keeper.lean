import PosChain.Base.KVStore
import PosChain.Incentives.Types

namespace PosChain.Incentives

structure State (World : Type) where
  store : KVStore
  world : World

def treasuryAccountName : String := "validator_incentives"
def incentiveDenom : String := "axtc"
def feeCollectorName : String := "fee_collector"

def paramsKey : Bytes := [0x01]
def periodStateKey : Bytes := [0x02]
def totalDistributedKey : Bytes := [0x03]
def authorityKey : Bytes := [0x04]

section Actions

variable {World : Type}

def writeStore (key value : Bytes) : Action (State World) Unit :=
  modify fun s => { s with store := s.store.set key value }

def withWorld {α : Type} (action : Action World α) : Action (State World) α :=
  onPart State.world (fun world s => { s with world }) action

end Actions

section Reads

def getAuthority (store : KVStore) : String :=
  Bytes.toText (store.get authorityKey)

def getParams (store : KVStore) : Params :=
  let value := store.get paramsKey
  if value.length != 20 then defaultParams
  else ⟨UInt32.ofNat (Bytes.toNat (value.take 4)), Bytes.uint64 ((value.drop 4).take 8),
    Bytes.uint64 (value.drop 12)⟩

def getPeriodState (store : KVStore) : Check (Option PeriodState) :=
  let value := store.get periodStateKey
  if value.isEmpty then pure none
  else do
    let state ← orFail ((Json.unmarshal value).bind PeriodState.ofJson)
      (.error "calculation period does not decode")
    state.validate
    return some state

def getTotalDistributed (store : KVStore) : Check SdkInt :=
  let value := Bytes.toText (store.get totalDistributedKey)
  if value == "" then pure SdkInt.zeroInt
  else do
    let amount ← parseAtomicAmount value
    failIf amount.isNegative "stored total distributed amount is negative"
    return amount

end Reads

section Writes

variable {World : Type}

def encodeParams (params : Params) : Bytes :=
  Bytes.fixed 4 params.treasuryReleaseRateBasisPoints.toNat ++ Bytes.putUint64 params.blocksPerYear ++
    Bytes.putUint64 params.calculationPeriodBlocks

def setAuthority (authority : String) : Action (State World) Unit :=
  writeStore authorityKey (Bytes.utf8 authority)

def setParams (params : Params) : Action (State World) Unit := do
  params.validate
  writeStore paramsKey (encodeParams params)

def setPeriodState (state : PeriodState) : Action (State World) Unit := do
  state.validate
  writeStore periodStateKey state.encode

def setTotalDistributed (amount : SdkInt) : Action (State World) Unit := do
  failIf amount.isNegative "total distributed amount cannot be negative"
  writeStore totalDistributedKey (Bytes.utf8 amount.toText)

def updateParams (next : Params) : Action (State World) Unit := do
  let previous := getParams (← get).store
  next.validateUpdate previous
  setParams next

end Writes

section Genesis

variable {World : Type} (env : Env World)

def initGenesis (state : GenesisState) : Action (State World) Unit := do
  state.validate env
  setParams state.params
  setTotalDistributed SdkInt.zeroInt
  runIf (state.authority != "") (setAuthority state.authority)

def exportGenesis (store : KVStore) : GenesisState :=
  ⟨getAuthority store, getParams store⟩

end Genesis

section Treasury

variable {World : Type} (env : Env World)

def Treasury.balance (world : World) : Check Coin := do
  let address := env.getModuleAddress treasuryAccountName
  failIf address.isEmpty "incentive treasury module account is missing"
  return env.getBalance world address incentiveDenom

def Treasury.sendToModule (recipientModule : String) (amount : SdkInt) : Action (State World) Unit := do
  failIf (recipientModule == "") "reward recipient module is empty"
  failIf (!amount.isPositive) "reward amount must be positive"
  let balance ← Treasury.balance env (← get).world
  failIf (balance.amount.lt amount) "incentive treasury balance is insufficient"
  withWorld (env.sendCoinsFromModuleToModule treasuryAccountName recipientModule
    ⟨incentiveDenom, amount⟩)

end Treasury

section Period

variable {World : Type} (env : Env World) (blockHeight : Int64)

def snapshotPeriod : Action (State World) PeriodState := do
  failIf (blockHeight < 0) "block height cannot be negative"
  let s ← get
  let eligibleBonded ← passOn (env.totalValidatorPower s.world)
  failIf eligibleBonded.isNegative "eligible bonded stake cannot be negative"
  let balance ← Treasury.balance env s.world
  failIf (balance.denom != incentiveDenom) "unexpected incentive treasury denomination"
  let state ← newPeriodState blockHeight.toUInt64 eligibleBonded balance.amount (getParams s.store)
  setPeriodState state
  return state

def recordDistribution (amount : SdkInt) : Action (State World) Unit := do
  failIf (!amount.isPositive) "distribution amount must be positive"
  let s ← get
  let found ← getPeriodState s.store
  let state ← orFail found (.error "no calculation period has been configured")
  let remaining ← state.remainingProvision
  failIf (amount.gt remaining) "distribution exceeds the remaining period provision"
  let distributed ← parseAtomicAmount state.distributedAtomic
  let total ← getTotalDistributed s.store
  let sum ← distributed.add amount
  setPeriodState { state with distributedAtomic := sum.toText }
  let newTotal ← total.add amount
  setTotalDistributed newTotal

def activePeriod (height : UInt64) : Action (State World) PeriodState := do
  let found ← getPeriodState (← get).store
  match found with
  | none => snapshotPeriod env blockHeight
  | some state => if height ≥ state.endBlock then snapshotPeriod env blockHeight else pure state

def dueAmount (state : PeriodState) (height : UInt64) : Check SdkInt := do
  failIf (height < state.startBlock || height ≥ state.endBlock)
    "block is outside the active calculation period"
  let periodProvision ← parseAtomicAmount state.periodProvisionAtomic
  let distributed ← parseAtomicAmount state.distributedAtomic
  let elapsed := height - state.startBlock + 1
  let target ← cumulativeProvision periodProvision elapsed (state.endBlock - state.startBlock)
  let amount ← target.sub distributed
  failIf amount.isNegative "stored distribution exceeds the cumulative target"
  return amount

def processBlock (feeCollector : String) : Action (State World) Unit := do
  failIf (blockHeight < 0) "block height cannot be negative"
  let height := blockHeight.toUInt64
  let state ← activePeriod env blockHeight height
  let amount ← dueAmount state height
  if amount.isZero then pure ()
  else do
    Treasury.sendToModule env feeCollector amount
    recordDistribution amount

def beginBlock : Action (State World) Unit :=
  processBlock env blockHeight feeCollectorName

end Period

section MsgServer

variable {World : Type} (env : Env World)

def requireAuthority (store : KVStore) (caller : String) : Check Unit := do
  let authority := getAuthority store
  failIf (authority == "") "validator incentive authority is not configured"
  failIf (caller == "") "validator incentive caller is empty"
  failIf (caller != authority) "validator incentive caller is not authorized"

def updateParamsAuthorized (caller : String) (next : Params) : Action (State World) Unit := do
  requireAuthority (← get).store caller
  updateParams next

def handleUpdateParamsCommand (command : UpdateParamsCommand) : Action (State World) Unit := do
  command.validateBasic env
  updateParamsAuthorized command.authority command.params

def MsgServer.updateParams (message : MsgUpdateParams) : Action (State World) Unit :=
  handleUpdateParamsCommand env ⟨message.authority, ⟨message.treasuryReleaseRateBasisPoints,
    message.blocksPerYear, message.calculationPeriodBlocks⟩⟩

end MsgServer

end PosChain.Incentives
