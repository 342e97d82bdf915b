import PosChain.Admission.Keeper
import PosChain.Ante.AuthzLimiter
import PosChain.Ethereum.Common

namespace PosChain.Admission

structure Description where
  moniker : String
  identity : String
  website : String
  securityContact : String
  details : String
  deriving DecidableEq

structure Commission where
  rate : Nat
  maxRate : Nat
  maxChangeRate : Nat
  deriving DecidableEq, Repr

-- The messages of the staking and slashing modules that admission guards.
structure MsgCreateValidator where
  description : Description
  commission : Commission
  minSelfDelegation : SdkInt
  delegatorAddress : String
  validatorAddress : String
  pubkey : Bytes
  value : Coin
  deriving DecidableEq

structure MsgUnjail where
  validatorAddr : String
  deriving DecidableEq, Repr

structure CreateValidatorArgs where
  description : Description
  commission : Commission
  minSelfDelegation : Nat
  validatorAddress : Address
  pubkey : String
  value : Nat
  deriving DecidableEq

-- A call that EVM code makes to a precompile and does not revert, with the
-- account that makes it. Everything else that happens between two of them is a
-- step of its own.
inductive PrecompileCall where
  | createValidator (caller : Address) (args : CreateValidatorArgs)
  | unjail (caller validatorAddress : Address)
  | other (input : Bytes)

-- The messages that a transaction can carry, as far as the ante handlers tell
-- them apart. EVM code counts by the calls it makes, in an Ethereum transaction
-- and in messages of other modules (conversions of the erc20 module, IBC packets
-- with callbacks).
inductive Msg where
  | createValidator (msg : MsgCreateValidator)
  | unjail (msg : MsgUnjail)
  | admission (msg : AdmissionMsg)
  | mintUpdateParams (value : Bytes)
  | stakingUpdateParams (bondDenom : String) (value : Bytes)
  | submitProposal (value : Bytes)
  | exec (grantee : String) (msgs : List Msg)
  | grant (authorization : String) (value : Bytes)
  | ethereumTx (calls : List PrecompileCall)
  | other (typeURL : String) (value : Bytes) (calls : List PrecompileCall)

def Msg.typeURL : Msg → String
  | .createValidator _ => "/cosmos.staking.v1beta1.MsgCreateValidator"
  | .unjail _ => "/cosmos.slashing.v1beta1.MsgUnjail"
  | .admission (.approveValidator _) => "/cosmos.evm.validatoradmission.v1.MsgApproveValidator"
  | .admission (.revokeValidator _) => "/cosmos.evm.validatoradmission.v1.MsgRevokeValidator"
  | .admission (.updateParams _) => "/cosmos.evm.validatoradmission.v1.MsgUpdateParams"
  | .mintUpdateParams _ => "/cosmos.mint.v1beta1.MsgUpdateParams"
  | .stakingUpdateParams _ _ => "/cosmos.staking.v1beta1.MsgUpdateParams"
  | .submitProposal _ => "/cosmos.gov.v1.MsgSubmitProposal"
  | .exec _ _ => Ante.execURL
  | .grant _ _ => Ante.grantURL
  | .ethereumTx _ => "/cosmos.evm.vm.v1.MsgEthereumTx"
  | .other typeURL _ _ => typeURL

mutual
def Msg.authz : Msg → Ante.AuthzMsg
  | .exec _ msgs => .exec (authzMsgs msgs)
  | .grant authorization _ => .grant (.ok authorization)
  | msg => .other msg.typeURL

def authzMsgs : List Msg → List Ante.AuthzMsg
  | [] => []
  | msg :: rest => msg.authz :: authzMsgs rest
end

inductive Extension where
  | ethereumTx
  | dynamicFee
  | other (typeURL : String)
  deriving DecidableEq, Repr

-- The first extension option decides how a transaction is handled.
structure Tx where
  ctx : Context
  extension : Option Extension
  msgs : List Msg

-- The rest of the application: address texts, the message servers of the other
-- modules, the grants of authz, the accounts of the EVM and the ante decorators
-- that are not about the kinds of messages.
structure Application (World : Type) where
  env : Env World
  allowGovernance : Bool
  addressText : Address → String
  accAddressToText : Bytes → Except String String
  valAddressToText : Bytes → Except String String
  valAddressText : ValAddress → String
  createValidator : MsgCreateValidator → Action World Unit
  unjail : MsgUnjail → Action World Unit
  bondDenom : World → Except String String
  getCode : World → Address → Bytes
  authorize : String → Msg → Action World Unit
  serveOther : Msg → Action World Unit
  runOther : Bytes → Action World Unit
  cosmosDecorators : Tx → Action World Unit
  evmDecorators : Tx → Action World Unit

section Ante

variable {World : Type} (app : Application World)

def unauthorized (text : String) : String :=
  text ++ ": unauthorized"

def admissionCheck (store : KVStore) : Msg → Check Unit
  | .createValidator msg => do
    failIf (!isApprovedValidator store msg.validatorAddress)
      (unauthorized "Validator Admission: validator is not approved by Xitcoin")
    let minimumSelfDelegation ← passOn
      ((app.env.parseCoinNormalized (getMinimumSelfDelegation store)).mapError fun _ =>
        "Validator Admission: invalid on-chain minimum self delegation: invalid request")
    failIf (msg.value.denom != minimumSelfDelegation.denom ||
        msg.value.amount.lt minimumSelfDelegation.amount)
      (unauthorized ("Validator Admission: self delegation must be at least " ++
        minimumSelfDelegation.amount.toText ++ minimumSelfDelegation.denom))
  | .unjail msg =>
    failIf (!isApprovedValidator store msg.validatorAddr)
      (unauthorized "Validator Admission: revoked validator cannot unjail")
  | .mintUpdateParams _ =>
    failIf true (unauthorized "Fixed monetary policy: Mint parameters cannot be changed")
  | .submitProposal _ =>
    failIf (!app.allowGovernance)
      (unauthorized "Governance safeguards: executable on-chain proposals are disabled")
  | _ => pure ()

def admissionAnte (store : KVStore) : List Msg → Check Unit
  | [] => pure ()
  | msg :: rest => do
    admissionCheck app store msg
    admissionAnte store rest

def isEthereumTx : Msg → Bool
  | .ethereumTx _ => true
  | _ => false

def cosmosAnte (tx : Tx) : Action (State World) Unit := do
  failIf (tx.msgs.any isEthereumTx)
    ("MsgEthereumTx needs to be contained within a tx with 'ExtensionOptionsEthereumTx' option: " ++
      "invalid type")
  Ante.authzLimiter.anteHandle (authzMsgs tx.msgs)
  withWorld (app.cosmosDecorators tx)

def evmAnte (tx : Tx) : Action (State World) Unit := do
  failIf (tx.msgs.length != 1)
    ("expected 1 message, got " ++ toString tx.msgs.length ++ ": invalid request")
  failIf (!tx.msgs.all isEthereumTx) "invalid message type: unknown request"
  withWorld (app.evmDecorators tx)

def anteHandler (tx : Tx) : Action (State World) Unit := do
  admissionAnte app (← get).store tx.msgs
  match tx.extension with
  | some .ethereumTx => evmAnte app tx
  | some .dynamicFee => cosmosAnte app tx
  | some (.other typeURL) => throw (.error ("rejecting tx with unsupported extension option: " ++
      typeURL ++ ": unknown extension options"))
  | none => cosmosAnte app tx

end Ante

-- An operation that the staking or the slashing module has carried out, with
-- the address text it was given.
inductive Operation where
  | createValidator (validatorAddress : String) (value : Coin)
  | unjail (validatorAddress : String)
  deriving DecidableEq

structure Execution where
  operation : Operation
  store : KVStore

section Execution

variable {World : Type} (app : Application World)

-- The two message servers decode the address of the operator before anything else.
def callCreateValidator (msg : MsgCreateValidator) : Action (State World) (List Execution) := do
  let s ← get
  let _ ← passOn (app.env.valAddressFromBech32 msg.validatorAddress)
  withWorld (app.createValidator msg)
  return [⟨.createValidator msg.validatorAddress msg.value, s.store⟩]

def callUnjail (msg : MsgUnjail) : Action (State World) (List Execution) := do
  let s ← get
  let _ ← passOn (app.env.valAddressFromBech32 msg.validatorAddr)
  withWorld (app.unjail msg)
  return [⟨.unjail msg.validatorAddr, s.store⟩]

def ed25519PubKeySize : Nat := 32

def newMsgCreateValidator (args : CreateValidatorArgs) (denom : String) : Check MsgCreateValidator := do
  failIf (args.validatorAddress == Ethereum.zeroAddress)
    ("invalid validator address: " ++ app.addressText args.validatorAddress)
  let pubkey ← orFail (Bytes.base64Decode args.pubkey) (.error "illegal base64 data")
  failIf (pubkey.length != ed25519PubKeySize)
    ("consensus pubkey len is invalid, got: " ++ toString pubkey.length ++ ", expected: " ++
      toString ed25519PubKeySize)
  let delegatorAddress ← passOn ((app.accAddressToText args.validatorAddress.bytes).mapError
    ("failed to decode delegator address: " ++ ·))
  let minSelfDelegation ← SdkInt.newIntFromBigInt args.minSelfDelegation
  let amount ← SdkInt.newIntFromBigInt args.value
  return { description := args.description, commission := args.commission, minSelfDelegation,
           delegatorAddress, validatorAddress := app.valAddressText args.validatorAddress.bytes,
           pubkey, value := ⟨denom, amount⟩ }

def notMsgSender (msgSender requester : Address) : String :=
  "msg.sender address " ++ app.addressText msgSender ++ " does not match the requester address " ++
    app.addressText requester

def runPrecompile : PrecompileCall → Action (State World) (List Execution)
  | .createValidator caller args => do
    let s ← get
    let bondDenom ← passOn (app.bondDenom s.world)
    let msg ← newMsgCreateValidator app args bondDenom
    let code := app.getCode s.world caller
    failIf (!code.isEmpty && (Ethereum.parseDelegation code).isNone)
      "this method can only be called directly to the precompile, not from a smart contract"
    failIf (caller != args.validatorAddress) (notMsgSender app caller args.validatorAddress)
    callCreateValidator app msg
  | .unjail caller validatorAddress => do
    failIf (caller != validatorAddress) (notMsgSender app caller validatorAddress)
    let valAddr ← passOn ((app.valAddressToText validatorAddress.bytes).mapError
      ("failed to convert validator address: " ++ ·))
    callUnjail app ⟨valAddr⟩
  | .other input => do
    withWorld (app.runOther input)
    return []

def runPrecompiles : List PrecompileCall → Action (State World) (List Execution)
  | [] => pure []
  | call :: rest => do
    let first ← runPrecompile app call
    let later ← runPrecompiles rest
    return first ++ later

-- The message router. The authz module checks a grant before each inner message
-- and then routes it in the same way.
mutual
def runMsg (ctx : Context) : Msg → Action (State World) (List Execution)
  | .createValidator msg => callCreateValidator app msg
  | .unjail msg => callUnjail app msg
  | .admission msg => do
    serve app.env ctx msg
    return []
  | .exec grantee msgs => dispatchActions ctx grantee msgs
  | .ethereumTx calls => runPrecompiles app calls
  | .other typeURL value calls => do
    withWorld (app.serveOther (.other typeURL value calls))
    runPrecompiles app calls
  | msg => do
    withWorld (app.serveOther msg)
    return []

def dispatchActions (ctx : Context) (grantee : String) : List Msg → Action (State World) (List Execution)
  | [] => pure []
  | msg :: rest => do
    withWorld (app.authorize grantee msg)
    let first ← runMsg ctx msg
    let later ← dispatchActions ctx grantee rest
    return first ++ later
end

def runMsgs (ctx : Context) : List Msg → Action (State World) (List Execution)
  | [] => pure []
  | msg :: rest => do
    let first ← runMsg app ctx msg
    let later ← runMsgs ctx rest
    return first ++ later

-- An accepted transaction passes the ante handler and runs all its messages.
def deliverTx (s : State World) (tx : Tx) : Option (List Execution × State World) :=
  kept ((do
    anteHandler app tx
    runMsgs app tx.ctx tx.msgs).run s)

end Execution

end PosChain.Admission
