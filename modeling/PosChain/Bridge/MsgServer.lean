import PosChain.Bridge.Keeper

namespace PosChain.Bridge

structure MsgInitializeRouteConfig where
  authority : String
  routeId : String
  bridgeSigners : List String
  guardian : String
  maxTransferAmount : String
  dailyLimit : String
  maxOutstandingAmount : String
  deriving DecidableEq, Repr

structure MsgEmergencyPauseRoute where
  submitter : String
  routeId : String
  nonce : UInt64
  expiresUnix : Int64
  guardianSignature : Bytes
  deriving DecidableEq, Repr

structure MsgResumeRoute where
  submitter : String
  routeId : String
  nonce : UInt64
  notBeforeUnix : Int64
  expiresUnix : Int64
  signatures : List Bytes
  deriving DecidableEq, Repr

structure MsgUpdateRouteConfig where
  submitter : String
  routeId : String
  bridgeSigners : List String
  guardian : String
  maxTransferAmount : String
  dailyLimit : String
  maxOutstandingAmount : String
  enabled : Bool
  nonce : UInt64
  notBeforeUnix : Int64
  expiresUnix : Int64
  signatures : List Bytes
  deriving DecidableEq, Repr

structure MsgSubmitAttestation where
  submitter : String
  routeId : String
  direction : String
  sourceChainId : String
  sourceRef : String
  nonce : UInt64
  destination : String
  amount : String
  deadlineUnix : Int64
  signatures : List Bytes
  deriving DecidableEq, Repr

structure MsgInitiateOutboundTransfer where
  sender : String
  routeId : String
  destination : String
  amount : String
  deriving DecidableEq, Repr

section Basic

variable {Bank : Type} (env : Env Bank)

def validateControlSignatures (signatures : List Bytes) : Check Unit := do
  failIf (signatures.length < requiredApprovals || maxBridgeSigners < signatures.length)
    "invalid bridge control signature count"
  failIf (signatures.any fun signature => signature.length != 65)
    "bridge control signatures must be 65 bytes"

namespace MsgInitializeRouteConfig

-- The first configuration is always stored disabled.
def routeConfig (m : MsgInitializeRouteConfig) : RouteConfig :=
  { routeID := m.routeId, bridgeSigners := m.bridgeSigners, guardian := m.guardian,
    maxTransferAmount := m.maxTransferAmount, dailyLimit := m.dailyLimit,
    maxOutstandingAmount := m.maxOutstandingAmount, enabled := false }

def validateBasic (m : MsgInitializeRouteConfig) : Check Unit := do
  let _ ← passOn (env.accAddressFromBech32 m.authority)
  m.routeConfig.validate env

end MsgInitializeRouteConfig

namespace MsgEmergencyPauseRoute

def action (m : MsgEmergencyPauseRoute) : GuardianPauseAction :=
  { routeID := m.routeId, nonce := m.nonce, expiresUnix := m.expiresUnix }

def validateBasic (m : MsgEmergencyPauseRoute) : Check Unit := do
  let _ ← passOn (env.accAddressFromBech32 m.submitter)
  m.action.validate env
  failIf (m.guardianSignature.length != 65) "guardian signature must be 65 bytes"

end MsgEmergencyPauseRoute

namespace MsgResumeRoute

def action (m : MsgResumeRoute) (payloadHash : String) : ControlAction :=
  { routeID := m.routeId, action := actionResumeRoute, payloadHash, nonce := m.nonce,
    notBeforeUnix := m.notBeforeUnix, expiresUnix := m.expiresUnix }

def validateBasic (m : MsgResumeRoute) : Check Unit := do
  let _ ← passOn (env.accAddressFromBech32 m.submitter)
  failIf (!validRouteID env m.routeId || m.nonce == 0 || m.notBeforeUnix ≤ 0 ||
    m.expiresUnix ≤ m.notBeforeUnix) "invalid route resume action"
  validateControlSignatures m.signatures

end MsgResumeRoute

namespace MsgUpdateRouteConfig

def routeConfig (m : MsgUpdateRouteConfig) : RouteConfig :=
  { routeID := m.routeId, bridgeSigners := m.bridgeSigners, guardian := m.guardian,
    maxTransferAmount := m.maxTransferAmount, dailyLimit := m.dailyLimit,
    maxOutstandingAmount := m.maxOutstandingAmount, enabled := m.enabled }

def action (m : MsgUpdateRouteConfig) (payloadHash : String) : ControlAction :=
  { routeID := m.routeId, action := actionUpdateRouteConfig, payloadHash, nonce := m.nonce,
    notBeforeUnix := m.notBeforeUnix, expiresUnix := m.expiresUnix }

def validateBasic (m : MsgUpdateRouteConfig) : Check Unit := do
  let _ ← passOn (env.accAddressFromBech32 m.submitter)
  m.routeConfig.validate env
  failIf (m.nonce == 0 || m.notBeforeUnix ≤ 0 || m.expiresUnix ≤ m.notBeforeUnix)
    "invalid route configuration update action"
  validateControlSignatures m.signatures

end MsgUpdateRouteConfig

namespace MsgSubmitAttestation

def attestation (m : MsgSubmitAttestation) : Attestation :=
  { routeID := m.routeId, direction := m.direction, sourceChainID := m.sourceChainId,
    sourceRef := m.sourceRef, nonce := m.nonce, destination := m.destination, amount := m.amount,
    deadlineUnix := m.deadlineUnix }

def validateBasic (m : MsgSubmitAttestation) : Check Unit := do
  let _ ← passOn (env.accAddressFromBech32 m.submitter)
  m.attestation.validate env

end MsgSubmitAttestation

namespace MsgInitiateOutboundTransfer

def validateBasic (m : MsgInitiateOutboundTransfer) : Check Unit := do
  let _ ← passOn (env.accAddressFromBech32 m.sender)
  failIf (!validRouteID env m.routeId) "invalid route ID"
  let destination := Text.trimSpace m.destination
  failIf (!Ethereum.isHexAddress destination ||
    Ethereum.hexToAddress destination == Ethereum.zeroAddress) "invalid Cronos destination"
  failIf (!positiveAmount m.amount) "amount must be a positive integer in atomic units"

end MsgInitiateOutboundTransfer

end Basic

section Handlers

variable {Bank : Type} (env : Env Bank) (keeper : Keeper) (ctx : Context)

def serveInitializeRouteConfig (req : MsgInitializeRouteConfig) : Action (State Bank) Unit := do
  passOn (env.validateAuthority ctx keeper.authority req.authority)
  req.validateBasic env
  let found ← getRouteConfig env (← get).store
  failIf found.isSome "bridge: initial route configuration already exists"
  let config := req.routeConfig
  setRouteConfig env config
  writeStore (·.set routeStateKey (RouteState.encode ⟨true⟩))
  emitEvent "bridge_route_initialized"
    [("route_id", config.routeID), ("enabled", "false"), ("paused", "true")]

-- The other handlers all validate the request and load the configuration; what
-- they do under that configuration has a definition of its own.
def requireRouteConfig (store : KVStore) : Check RouteConfig := do
  let found ← getRouteConfig env store
  orFail found (.error "bridge route is disabled")

def withRouteConfig {α : Type} (basic : Check Unit) (rest : RouteConfig → Action (State Bank) α) :
    Action (State Bank) α := do
  basic
  let config ← requireRouteConfig env (← get).store
  rest config

def pauseUnder (req : MsgEmergencyPauseRoute) (config : RouteConfig) : Action (State Bank) Unit := do
  pauseRoute env ctx config req.action req.guardianSignature
  emitEvent "bridge_route_paused"
    [("route_id", config.routeID), ("nonce", toString req.nonce.toNat)]

def serveEmergencyPauseRoute (req : MsgEmergencyPauseRoute) : Action (State Bank) Unit :=
  withRouteConfig env (req.validateBasic env) (pauseUnder env ctx req)

def resumeUnder (req : MsgResumeRoute) (config : RouteConfig) : Action (State Bank) Unit := do
  let payloadHash ← routeStatePayloadHash env config ⟨false⟩
  resumeRoute env ctx config (req.action (Ethereum.hashHex payloadHash)) req.signatures
  emitEvent "bridge_route_resumed"
    [("route_id", config.routeID), ("nonce", toString req.nonce.toNat)]

def serveResumeRoute (req : MsgResumeRoute) : Action (State Bank) Unit :=
  withRouteConfig env (req.validateBasic env) (resumeUnder env ctx req)

def updateUnder (req : MsgUpdateRouteConfig) (current : RouteConfig) : Action (State Bank) Unit := do
  let next := req.routeConfig
  let payloadHash ← routeConfigPayloadHash env next
  applyRouteConfigUpdate env ctx current (req.action (Ethereum.hashHex payloadHash)) next
    req.signatures
  emitEvent "bridge_route_config_updated"
    [("route_id", next.routeID), ("enabled", toString next.enabled),
      ("nonce", toString req.nonce.toNat)]

def serveUpdateRouteConfig (req : MsgUpdateRouteConfig) : Action (State Bank) Unit :=
  withRouteConfig env (req.validateBasic env) (updateUnder env ctx req)

def submitUnder (req : MsgSubmitAttestation) (config : RouteConfig) :
    Action (State Bank) String := do
  let attestation := req.attestation
  failIf (attestation.direction != directionCronosToXitcoin)
    "bridge attestation is not an inbound Cronos transfer"
  let id ← admitAttestation env ctx config attestation req.signatures
  settleInbound env keeper config attestation
  emitEvent "bridge_inbound_settled"
    [("attestation_id", Bytes.hexEncode id.bytes), ("route_id", config.routeID),
      ("destination", attestation.destination), ("amount", attestation.amount)]
  return Bytes.hexEncode id.bytes

def serveSubmitAttestation (req : MsgSubmitAttestation) : Action (State Bank) String :=
  withRouteConfig env (req.validateBasic env) (submitUnder env keeper ctx req)

def transferUnder (req : MsgInitiateOutboundTransfer) (config : RouteConfig) :
    Action (State Bank) (String × UInt64) := do
  failIf (req.routeId != config.routeID) "bridge attestation route does not match configuration"
  let sender ← passOn (env.accAddressFromBech32 req.sender)
  let (id, nonce) ← initiateOutboundTransfer env keeper ctx config sender req.destination req.amount
  let requestID := Bytes.hexEncode id.bytes
  emitEvent "bridge_outbound_burned"
    [("request_id", requestID), ("route_id", config.routeID),
      ("sender", env.accAddressText sender), ("destination", req.destination),
      ("amount", req.amount), ("nonce", toString nonce.toNat)]
  return (requestID, nonce)

def serveInitiateOutboundTransfer (req : MsgInitiateOutboundTransfer) :
    Action (State Bank) (String × UInt64) :=
  withRouteConfig env (req.validateBasic env) (transferUnder env keeper ctx req)

end Handlers

inductive Msg where
  | initializeRouteConfig (req : MsgInitializeRouteConfig)
  | emergencyPauseRoute (req : MsgEmergencyPauseRoute)
  | resumeRoute (req : MsgResumeRoute)
  | updateRouteConfig (req : MsgUpdateRouteConfig)
  | submitAttestation (req : MsgSubmitAttestation)
  | initiateOutboundTransfer (req : MsgInitiateOutboundTransfer)
  deriving DecidableEq, Repr

inductive Response where
  | done
  | attestation (attestationId : String)
  | outbound (requestId : String) (nonce : UInt64)
  deriving DecidableEq, Repr

structure Call where
  ctx : Context
  msg : Msg
  deriving DecidableEq, Repr

section Deliver

variable {Bank : Type} (env : Env Bank) (keeper : Keeper)

def serve (ctx : Context) : Msg → Action (State Bank) Response
  | .initializeRouteConfig req => do
    serveInitializeRouteConfig env keeper ctx req
    return .done
  | .emergencyPauseRoute req => do
    serveEmergencyPauseRoute env ctx req
    return .done
  | .resumeRoute req => do
    serveResumeRoute env ctx req
    return .done
  | .updateRouteConfig req => do
    serveUpdateRouteConfig env ctx req
    return .done
  | .submitAttestation req => do
    let id ← serveSubmitAttestation env keeper ctx req
    return .attestation id
  | .initiateOutboundTransfer req => do
    let (id, nonce) ← serveInitiateOutboundTransfer env keeper ctx req
    return .outbound id nonce

-- The transaction runner keeps the writes of a message only when it succeeds;
-- an error or a recovered panic discards them.
def deliver (s : State Bank) (call : Call) : Option (Response × State Bank) :=
  kept ((serve env keeper call.ctx call.msg).run s)

end Deliver

end PosChain.Bridge
