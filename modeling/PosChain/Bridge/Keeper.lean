import PosChain.Base.KVStore
import PosChain.Bridge.Types

namespace PosChain.Bridge

structure Event where
  kind : String
  attributes : List (String × String)
  deriving DecidableEq, Repr

structure State (Bank : Type) where
  store : KVStore
  bank : Bank
  events : List Event

-- What a keeper built over a bank has been checked for. A keeper built without
-- one has no settlement and no authority.
structure Settlement where
  nativeDenom : String
  maxSupply : SdkInt
  denom_valid : validateDenom nativeDenom = true
  maxSupply_pos : maxSupply.isPositive = true

structure Keeper where
  settlement : Option Settlement
  authority : String

section Store

variable {Bank : Type}

def writeStore (write : KVStore → KVStore) : Action (State Bank) Unit :=
  modify fun s => { s with store := write s.store }

def emitEvent (kind : String) (attributes : List (String × String)) : Action (State Bank) Unit :=
  modify fun s => { s with events := s.events ++ [⟨kind, attributes⟩] }

def withBank (action : Action Bank Unit) : Action (State Bank) Unit :=
  onPart State.bank (fun bank s => { s with bank }) action

end Store

section Keys

variable {Bank : Type} (env : Env Bank)

def processedKey (id : Hash) : Bytes := 0x01 :: id.bytes
def routeConfigKey : Bytes := [0x02]
def processedControlKey (id : Hash) : Bytes := 0x04 :: id.bytes
def routeStateKey : Bytes := [0x05]
def processedPauseKey (id : Hash) : Bytes := 0x06 :: id.bytes
def keyOutstandingAmount : Bytes := [0x07]
def keyOutboundNonce : Bytes := [0x08]

-- Usage is kept for each route and day; the day of a block is its Unix time
-- divided towards zero.
def usageIndex (routeID : String) (unixTime : Int64) : Bytes :=
  (env.sha256 (Bytes.utf8 routeID)).bytes ++ Bytes.putUint64 (unixTime / 86400).toUInt64

def dailyUsageKey (routeID : String) (unixTime : Int64) : Bytes :=
  0x03 :: usageIndex env routeID unixTime

end Keys

structure RouteState where
  paused : Bool
  deriving DecidableEq, Repr

namespace RouteState

def toJson (state : RouteState) : Json.Value :=
  .obj [("paused", .bool state.paused)]

def ofJson (value : Json.Value) : Option RouteState := do
  guard (Json.isStruct value)
  let paused ← Json.boolField value "paused"
  return { paused }

def encode (state : RouteState) : Bytes :=
  Json.marshal state.toJson

end RouteState

section Reads

variable {Bank : Type} (env : Env Bank)

def isProcessed (store : KVStore) (id : Hash) : Bool :=
  store.has (processedKey id)

def getRouteConfig (store : KVStore) : Check (Option RouteConfig) :=
  let value := store.get routeConfigKey
  if value.isEmpty then pure none
  else do
    let config ← orFail ((Json.unmarshal value).bind RouteConfig.ofJson)
      (.error "bridge route configuration does not decode")
    config.validate env
    return some config

def getRouteState (store : KVStore) : Check RouteState :=
  let value := store.get routeStateKey
  if value.isEmpty then pure ⟨false⟩
  else orFail ((Json.unmarshal value).bind RouteState.ofJson)
    (.error "bridge route state does not decode")

def requireRouteAvailable (store : KVStore) (config : RouteConfig) : Check Unit := do
  config.validate env
  failIf (!config.enabled) "bridge route is disabled"
  let state ← getRouteState store
  failIf state.paused "bridge route is paused"

def dailyUsage (ctx : Context) (store : KVStore) (routeID : String) : Nat :=
  Bytes.toNat (store.get (dailyUsageKey env routeID ctx.blockTime))

def outstandingAmount (store : KVStore) : Check SdkInt :=
  let value := store.get keyOutstandingAmount
  if value.isEmpty then pure SdkInt.zeroInt
  else SdkInt.newIntFromBigInt (Bytes.toNat value)

def routeStatePayloadHash (config : RouteConfig) (state : RouteState) : Check Hash := do
  config.validate env
  return env.sha256 (Json.marshal (.obj [("config", config.toJson), ("state", state.toJson)]))

end Reads

section Writes

variable {Bank : Type} (env : Env Bank) (keeper : Keeper) (ctx : Context)

def markProcessed (id : Hash) : Action (State Bank) Unit :=
  writeStore (·.set (processedKey id) [1])

def setRouteConfig (config : RouteConfig) : Action (State Bank) Unit := do
  config.validate env
  writeStore (·.set routeConfigKey config.encode)

-- A zero amount has no entry.
def putOutstandingAmount (amount : SdkInt) (store : KVStore) : KVStore :=
  if amount.isZero then store.delete keyOutstandingAmount
  else store.set keyOutstandingAmount (Bytes.ofNat amount.value.natAbs)

def setOutstandingAmount (amount : SdkInt) : Action (State Bank) Unit :=
  writeStore (putOutstandingAmount amount)

def checkAndRecordLimits (config : RouteConfig) (amountText : String) :
    Action (State Bank) Unit := do
  let s ← get
  requireRouteAvailable env s.store config
  let amount ← orFail (BigInt.setString amountText 10) (.error "bridge amount must be positive")
  failIf (amount ≤ 0) "bridge amount must be positive"
  let maxTransfer ← orFail (BigInt.setString config.maxTransferAmount 10) nilDereference
  failIf (maxTransfer < amount) "bridge transfer limit exceeded"
  let next := (dailyUsage env ctx s.store config.routeID : Int) + amount
  let dailyLimit ← orFail (BigInt.setString config.dailyLimit 10) nilDereference
  failIf (dailyLimit < next) "bridge daily limit exceeded"
  writeStore (·.set (dailyUsageKey env config.routeID ctx.blockTime) (Bytes.ofNat next.natAbs))

def admitAttestation (config : RouteConfig) (attestation : Attestation) (signatures : List Bytes) :
    Action (State Bank) Hash := do
  config.validate env
  failIf (attestation.routeID != config.routeID) "bridge attestation route does not match configuration"
  let s ← get
  requireRouteAvailable env s.store config
  attestation.validateAt env ctx.blockTime
  let _ ← verifyApprovals env attestation config.bridgeSigners signatures
  let id ← attestation.id env
  failIf (isProcessed s.store id) "bridge attestation already processed"
  checkAndRecordLimits env ctx config attestation.amount
  markProcessed id
  return id

def pauseRoute (config : RouteConfig) (action : GuardianPauseAction) (signature : Bytes) :
    Action (State Bank) Unit := do
  config.validate env
  failIf (action.routeID != config.routeID) "guardian pause route does not match configuration"
  action.validate env
  failIf (ctx.blockTime ≥ action.expiresUnix) "guardian pause action has expired"
  let id ← action.id env
  let s ← get
  failIf (s.store.has (processedPauseKey id)) "bridge control action already processed"
  let _ ← verifyGuardianPause env action config.guardian signature
  let state ← getRouteState s.store
  failIf state.paused "bridge route is already paused"
  writeStore (·.set routeStateKey (RouteState.encode ⟨true⟩))
  writeStore (·.set (processedPauseKey id) [1])

def resumeRoute (config : RouteConfig) (action : ControlAction) (signatures : List Bytes) :
    Action (State Bank) Unit := do
  config.validate env
  failIf (action.action != actionResumeRoute || action.routeID != config.routeID)
    "bridge control payload does not match route configuration"
  action.validate env
  failIf (ctx.blockTime < action.notBeforeUnix || ctx.blockTime ≥ action.expiresUnix)
    "bridge control action is not active"
  let s ← get
  let state ← getRouteState s.store
  failIf (!state.paused) "bridge route is not paused"
  let payloadHash ← routeStatePayloadHash env config ⟨false⟩
  failIf (!Text.equalFold env.unicode (Ethereum.hashHex payloadHash) action.payloadHash)
    "bridge control payload does not match route configuration"
  let id ← action.id env
  failIf (s.store.has (processedControlKey id)) "bridge control action already processed"
  let _ ← verifyControlApprovals env action config.bridgeSigners signatures
  writeStore (·.set routeStateKey (RouteState.encode ⟨false⟩))
  writeStore (·.set (processedControlKey id) [1])

def applyRouteConfigUpdate (current : RouteConfig) (action : ControlAction) (next : RouteConfig)
    (signatures : List Bytes) : Action (State Bank) Unit := do
  current.validate env
  next.validate env
  failIf (action.action != actionUpdateRouteConfig || action.routeID != current.routeID ||
    next.routeID != current.routeID) "bridge control payload does not match route configuration"
  action.validate env
  failIf (ctx.blockTime < action.notBeforeUnix || ctx.blockTime ≥ action.expiresUnix)
    "bridge control action is not active"
  let payloadHash ← routeConfigPayloadHash env next
  failIf (!Text.equalFold env.unicode (Ethereum.hashHex payloadHash) action.payloadHash)
    "bridge control payload does not match route configuration"
  let id ← action.id env
  let s ← get
  failIf (s.store.has (processedControlKey id)) "bridge control action already processed"
  let _ ← verifyControlApprovals env action current.bridgeSigners signatures
  setRouteConfig env next
  writeStore (·.set (processedControlKey id) [1])

def settleInbound (config : RouteConfig) (attestation : Attestation) :
    Action (State Bank) Unit := do
  let settlement ← orFail keeper.settlement (.error "bridge settlement is unavailable")
  failIf (attestation.direction != directionCronosToXitcoin)
    "bridge attestation is not an inbound Cronos transfer"
  let recipient ← passOn ((env.accAddressFromBech32 (Text.trimSpace attestation.destination)).mapError
    ("invalid Xitcoin destination: " ++ ·))
  let amount ← orFail (SdkInt.newIntFromString attestation.amount)
    (.error "bridge amount must be positive")
  failIf (!amount.isPositive) "bridge amount must be positive"
  let outstandingLimit := SdkInt.newIntFromString config.maxOutstandingAmount
  let s ← get
  let outstanding ← outstandingAmount s.store
  let nextOutstanding ← outstanding.add amount
  let aboveLimit ← nextOutstanding.gtNil outstandingLimit
  failIf aboveLimit "bridge outstanding limit exceeded"
  let nextSupply ← (env.bank.getSupply s.bank settlement.nativeDenom).add amount
  failIf (nextSupply.gt settlement.maxSupply) "XTC maximum supply exceeded"
  withBank (env.bank.mintCoins moduleName ⟨settlement.nativeDenom, amount⟩)
  withBank (env.bank.sendCoinsFromModuleToAccount moduleName recipient ⟨settlement.nativeDenom, amount⟩)
  setOutstandingAmount nextOutstanding

-- The nonce wraps at 64 bits, and anything but eight stored bytes reads as zero.
def outboundNonce (store : KVStore) : UInt64 :=
  let value := store.get keyOutboundNonce
  bif value.length == 8 then Bytes.uint64 value else 0

def nextOutboundNonce : Action (State Bank) UInt64 := do
  let s ← get
  let next := outboundNonce s.store + 1
  writeStore (·.set keyOutboundNonce (Bytes.putUint64 next))
  return next

def requestText (config : RouteConfig) (sender : AccAddress) (destination : String) (amount : SdkInt)
    (nonce : UInt64) : String :=
  Text.join [config.routeID, env.accAddressText sender,
    Text.toLower env.unicode (Ethereum.addressHex env.keccak256 (Ethereum.hexToAddress destination)),
    amount.toText, toString nonce.toNat] "\x00"

def initiateOutboundTransfer (config : RouteConfig) (sender : AccAddress)
    (destination amountText : String) : Action (State Bank) (Hash × UInt64) := do
  let settlement ← orFail keeper.settlement (.error "bridge settlement is unavailable")
  requireRouteAvailable env (← get).store config
  let destination := Text.trimSpace destination
  failIf (!Ethereum.isHexAddress destination ||
    Ethereum.hexToAddress destination == Ethereum.zeroAddress) "invalid Cronos destination"
  let amount ← orFail (SdkInt.newIntFromString amountText) (.error "bridge amount must be positive")
  failIf (!amount.isPositive) "bridge amount must be positive"
  checkAndRecordLimits env ctx config amountText
  let outstanding ← outstandingAmount (← get).store
  failIf (amount.gt outstanding) "bridge outstanding amount is insufficient"
  withBank (env.bank.sendCoinsFromAccountToModule sender moduleName ⟨settlement.nativeDenom, amount⟩)
  withBank (env.bank.burnCoins moduleName ⟨settlement.nativeDenom, amount⟩)
  let nonce ← nextOutboundNonce
  let id := env.sha256 (Bytes.utf8 (requestText env config sender destination amount nonce))
  let rest ← outstanding.sub amount
  setOutstandingAmount rest
  return (id, nonce)

end Writes

end PosChain.Bridge
