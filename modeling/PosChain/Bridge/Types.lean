import PosChain.Base.Json
import PosChain.Cosmos.Bank
import PosChain.Ethereum.Common

namespace PosChain.Bridge

-- Time of the block and the part of the consensus parameters that the
-- authority check reads.
structure Context where
  blockTime : Int64
  consensusAuthority : String
  deriving DecidableEq, Repr

-- The libraries the module calls: Unicode tables, hash functions, public-key
-- recovery, the account address codec, the authority check and the bank.
structure Env (Bank : Type) where
  unicode : Unicode
  sha256 : Bytes → Hash
  keccak256 : Bytes → Hash
  sigToPub : Hash → Bytes → Except String Bytes
  pubkeyToAddress : Bytes → Address
  accAddressFromBech32 : String → Except String AccAddress
  accAddressText : AccAddress → String
  validateAuthority : Context → String → String → Except String Unit
  bank : BankKeeper Bank

def maxBridgeSigners : Nat := 3
def requiredApprovals : Nat := 2
def maxRouteIDLength : Nat := 96
def maxDestinationLen : Nat := 256

def directionCronosToXitcoin : String := "cronos_to_xitcoin"
def directionXitcoinToCronos : String := "xitcoin_to_cronos"

def signingDomain : String := "xitcoin-bridge-testnet-attestation-v1"
def controlDomain : String := "xitcoin-bridge-testnet-control-v1"
def guardianPauseDomain : String := "xitcoin-bridge-testnet-guardian-pause-v1"

def actionUpdateRouteConfig : String := "update_route_config"
def actionPauseRoute : String := "pause_route"
def actionResumeRoute : String := "resume_route"
def actionCloseRoute : String := "close_route"

def moduleName : String := "bridge"

section Validation

variable {Bank : Type} (env : Env Bank)

def validRouteID (routeID : String) : Bool :=
  if routeID == "" || maxRouteIDLength < Text.len routeID then false
  else (Text.runes routeID).all fun r => env.unicode.lower r || env.unicode.digit r || r == '-' || r == '_'

def normalizeHexReference (reference : String) : String :=
  Text.trimPrefix (Text.toLower env.unicode (Text.trimSpace reference)) "0x"

def validHexReference (reference : String) : Bool :=
  let normalized := normalizeHexReference env reference
  Text.len normalized == 64 && Bytes.hexDecodable (Bytes.utf8 normalized)

def positiveAmount (value : String) : Bool :=
  match BigInt.setString value 10 with
  | some amount => 0 < amount
  | none => false

-- The addresses of the signers in order, refused at the first text that is no
-- address or repeats one.
def configuredSignersFrom (allowed : List Address) : List String → Check (List Address)
  | [] => pure allowed
  | signer :: rest => do
    failIf (!Ethereum.isHexAddress (Text.trimSpace signer)) "invalid configured bridge signer"
    failIf (allowed.contains (Ethereum.hexToAddress signer)) "duplicate configured bridge signer"
    configuredSignersFrom (allowed ++ [Ethereum.hexToAddress signer]) rest

def configuredSigners (signers : List String) : Check (List Address) := do
  failIf (signers.length != maxBridgeSigners) "exactly 3 bridge signers are required"
  configuredSignersFrom [] signers

end Validation

structure RouteConfig where
  routeID : String
  bridgeSigners : List String
  guardian : String
  maxTransferAmount : String
  dailyLimit : String
  maxOutstandingAmount : String
  enabled : Bool
  deriving DecidableEq, Repr

namespace RouteConfig

variable {Bank : Type} (env : Env Bank)

def validate (c : RouteConfig) : Check Unit := do
  failIf (!validRouteID env c.routeID) "invalid route ID"
  let _ ← configuredSigners c.bridgeSigners
  failIf (!Ethereum.isHexAddress (Text.trimSpace c.guardian)) "invalid bridge guardian"
  let guardian := Ethereum.hexToAddress c.guardian
  failIf (c.bridgeSigners.any fun signer => guardian == Ethereum.hexToAddress signer)
    "bridge guardian must use a distinct address"
  failIf (!positiveAmount c.maxTransferAmount) "max transfer amount must be positive"
  failIf (!positiveAmount c.dailyLimit) "daily limit must be positive"
  failIf (!positiveAmount c.maxOutstandingAmount) "max outstanding amount must be positive"

def toJson (c : RouteConfig) : Json.Value :=
  .obj [("route_id", .str c.routeID), ("bridge_signers", .arr (c.bridgeSigners.map .str)),
    ("guardian", .str c.guardian), ("max_transfer_amount", .str c.maxTransferAmount),
    ("daily_limit", .str c.dailyLimit), ("max_outstanding_amount", .str c.maxOutstandingAmount),
    ("enabled", .bool c.enabled)]

def ofJson (value : Json.Value) : Option RouteConfig := do
  guard (Json.isStruct value)
  let routeID ← Json.stringField value "route_id"
  let bridgeSigners ← Json.stringListField value "bridge_signers"
  let guardian ← Json.stringField value "guardian"
  let maxTransferAmount ← Json.stringField value "max_transfer_amount"
  let dailyLimit ← Json.stringField value "daily_limit"
  let maxOutstandingAmount ← Json.stringField value "max_outstanding_amount"
  let enabled ← Json.boolField value "enabled"
  return { routeID, bridgeSigners, guardian, maxTransferAmount, dailyLimit, maxOutstandingAmount, enabled }

def encode (c : RouteConfig) : Bytes :=
  Json.marshal c.toJson

end RouteConfig

def routeConfigPayloadHash {Bank : Type} (env : Env Bank) (config : RouteConfig) : Check Hash := do
  config.validate env
  return env.sha256 config.encode

structure Attestation where
  routeID : String
  direction : String
  sourceChainID : String
  sourceRef : String
  nonce : UInt64
  destination : String
  amount : String
  deadlineUnix : Int64
  deriving DecidableEq, Repr

namespace Attestation

variable {Bank : Type} (env : Env Bank)

def validate (a : Attestation) : Check Unit := do
  failIf (!validRouteID env a.routeID) "invalid route ID"
  failIf (a.direction != directionCronosToXitcoin && a.direction != directionXitcoinToCronos)
    "invalid bridge direction"
  failIf (Text.trimSpace a.sourceChainID == "") "source chain ID is required"
  failIf (!validHexReference env a.sourceRef)
    "source reference must be a 32-byte hexadecimal transaction identifier"
  failIf (a.nonce == 0) "nonce must be greater than zero"
  let destination := Text.trimSpace a.destination
  failIf (destination == "" || maxDestinationLen < Text.len destination) "invalid destination"
  failIf (!positiveAmount a.amount) "amount must be a positive integer in atomic units"
  failIf (a.deadlineUnix ≤ 0) "deadline is required"

def idText (a : Attestation) : String :=
  Text.join [a.routeID, a.direction, a.sourceChainID, normalizeHexReference env a.sourceRef,
    toString a.nonce.toNat, Text.trimSpace a.destination, a.amount,
    toString a.deadlineUnix.toInt] "\x00"

def id (a : Attestation) : Check Hash := do
  a.validate env
  return env.sha256 (Bytes.utf8 (a.idText env))

def validateAt (a : Attestation) (unixTime : Int64) : Check Unit := do
  a.validate env
  failIf (unixTime > a.deadlineUnix) "bridge attestation expired"

end Attestation

structure ControlAction where
  routeID : String
  action : String
  payloadHash : String
  nonce : UInt64
  notBeforeUnix : Int64
  expiresUnix : Int64
  deriving DecidableEq, Repr

namespace ControlAction

variable {Bank : Type} (env : Env Bank)

def validate (a : ControlAction) : Check Unit := do
  failIf (!validRouteID env a.routeID) "invalid route ID"
  failIf (!(List.contains [actionUpdateRouteConfig, actionPauseRoute, actionResumeRoute,
    actionCloseRoute] a.action)) "invalid bridge control action"
  failIf (!Ethereum.isHexHash (Text.trimSpace a.payloadHash)) "invalid bridge control payload hash"
  failIf (a.nonce == 0) "bridge control nonce must be positive"
  failIf (a.notBeforeUnix ≤ 0 || a.expiresUnix ≤ a.notBeforeUnix)
    "invalid bridge control validity window"

def idText (a : ControlAction) : String :=
  Text.join [controlDomain, a.routeID, a.action,
    Text.toLower env.unicode (Text.trimSpace a.payloadHash), toString a.nonce.toNat,
    toString a.notBeforeUnix.toInt, toString a.expiresUnix.toInt] "\x00"

def id (a : ControlAction) : Check Hash := do
  a.validate env
  return env.sha256 (Bytes.utf8 (a.idText env))

end ControlAction

structure GuardianPauseAction where
  routeID : String
  nonce : UInt64
  expiresUnix : Int64
  deriving DecidableEq, Repr

namespace GuardianPauseAction

variable {Bank : Type} (env : Env Bank)

def validate (a : GuardianPauseAction) : Check Unit := do
  failIf (!validRouteID env a.routeID) "invalid route ID"
  failIf (a.nonce == 0) "guardian pause nonce must be positive"
  failIf (a.expiresUnix ≤ 0) "guardian pause expiry must be positive"

def idText (a : GuardianPauseAction) : String :=
  Text.join [guardianPauseDomain, a.routeID, toString a.nonce.toNat,
    toString a.expiresUnix.toInt] "\x00"

def id (a : GuardianPauseAction) : Check Hash := do
  a.validate env
  return env.sha256 (Bytes.utf8 (a.idText))

end GuardianPauseAction

section Signatures

variable {Bank : Type} (env : Env Bank)

def domainDigest (domain : String) (id : Hash) : Hash :=
  env.keccak256 (Bytes.utf8 domain ++ id.bytes)

def signingDigest (attestation : Attestation) : Check Hash := do
  let id ← attestation.id env
  return domainDigest env signingDomain id

def controlDigest (action : ControlAction) : Check Hash := do
  let id ← action.id env
  return domainDigest env controlDomain id

def guardianPauseDigest (action : GuardianPauseAction) : Check Hash := do
  let id ← action.id env
  return domainDigest env guardianPauseDomain id

def normalizeRecoveryID (signature : Bytes) : Bytes :=
  let v := signature.getD 64 0
  if v == 27 || v == 28 then signature.set 64 (v - 27) else signature

def recoverSigner (digest : Hash) (signature : Bytes) : Check Address := do
  failIf (signature.length != 65) "invalid signature length"
  let sig := normalizeRecoveryID signature
  let v := sig.getD 64 0
  failIf (1 < v) "invalid signature recovery ID"
  let r := Bytes.toNat (sig.take 32)
  let s := Bytes.toNat ((sig.drop 32).take 32)
  failIf (!Secp256k1.validateSignatureValues v r s) "invalid signature values"
  let pub ← passOn ((env.sigToPub digest sig).mapError ("recover signer: " ++ ·))
  return env.pubkeyToAddress pub

-- The loop of both verifiers: every signature recovers to an allowed address
-- that no earlier one recovered to.
def recoverApprovals (digest : Hash) (allowed recovered : List Address) :
    List Bytes → Check (List Address)
  | [] => pure recovered
  | signature :: rest => do
    let address ← recoverSigner env digest signature
    failIf (!allowed.contains address) "approval is not from a configured bridge signer"
    failIf (recovered.contains address) "duplicate signer approval"
    recoverApprovals digest allowed (recovered ++ [address]) rest

def verifyQuorum (digest : Check Hash) (bridgeSigners : List String) (signatures : List Bytes) :
    Check (List Address) := do
  let allowed ← configuredSigners bridgeSigners
  failIf (signatures.length < requiredApprovals || maxBridgeSigners < signatures.length)
    "signature count must be between 2 and 3"
  let digest ← digest
  recoverApprovals env digest allowed [] signatures

def verifyApprovals (attestation : Attestation) (bridgeSigners : List String)
    (signatures : List Bytes) : Check (List Address) :=
  verifyQuorum env (signingDigest env attestation) bridgeSigners signatures

def verifyControlApprovals (action : ControlAction) (bridgeSigners : List String)
    (signatures : List Bytes) : Check (List Address) :=
  verifyQuorum env (controlDigest env action) bridgeSigners signatures

def verifyGuardianPause (action : GuardianPauseAction) (guardian : String) (signature : Bytes) :
    Check Address := do
  failIf (!Ethereum.isHexAddress (Text.trimSpace guardian)) "invalid bridge guardian"
  let digest ← guardianPauseDigest env action
  let recovered ← recoverSigner env digest signature
  failIf (recovered != Ethereum.hexToAddress guardian)
    "pause approval is not from the configured guardian"
  return recovered

end Signatures

end PosChain.Bridge
