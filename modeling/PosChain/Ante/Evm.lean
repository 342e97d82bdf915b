import PosChain.Ante.Gas
import PosChain.Evm.ApplyTransaction

namespace PosChain.Ante

open Ethereum Evm

variable {R : Type}

-- A transaction of the SDK that carries Ethereum transactions. What the SDK itself says
-- about it is part of the value, apart from the signatures, which it lacks. A message of
-- another type is missing here.
structure MsgEthereumTx where
  raw : Transaction
  sender : AccAddress

structure TxFee where
  amount : Int
  gasLimit : UInt64
  payer : String
  granter : String

structure EthTx where
  basic : Except String Unit
  memo : String
  timeoutHeight : UInt64
  nonCriticalExtensionOptions : Nat
  extensionOptions : Nat
  signerInfos : Nat
  fee : Option TxFee
  hasTip : Bool
  signatures : Nat
  msgs : List (Option MsgEthereumTx)

inductive AccessType where
  | permissionless
  | restricted
  | permissioned
  deriving DecidableEq

-- What the handler reads besides the block. The checks of go-ethereum's pool get the
-- transaction and the base fee.
structure Options where
  isCheckTx : Bool
  isReCheckTx : Bool
  simulate : Bool
  createAccess : AccessType
  callAccess : AccessType
  mempoolMinGasPrice : LegacyDec
  maxGasWanted : UInt64
  maxGas : Option Int64
  validateTransaction : Transaction → Option Int → Check Unit

def EthTx.validate (tx : EthTx) : Check TxFee := do
  annotate "tx basic validation failed" (passOn tx.basic)
  failIf (tx.memo ≠ "" || tx.timeoutHeight ≠ 0 || 0 < tx.nonCriticalExtensionOptions)
    "for eth tx body Memo TimeoutHeight NonCriticalExtensionOptions should be empty: invalid request"
  failIf (tx.extensionOptions ≠ 1) "for eth tx length of ExtensionOptions should be 1: invalid request"
  failIf (0 < tx.signerInfos) "for eth tx AuthInfo SignerInfos should be empty: invalid request"
  let fee ← orFail tx.fee (.error "authInfo.Fee should not be nil: invalid request")
  failIf (fee.payer ≠ "" || fee.granter ≠ "")
    "for eth tx AuthInfo Fee payer and granter should be empty: invalid request"
  failIf tx.hasTip "authInfo.Tip must be nil: invalid request"
  failIf (0 < tx.signatures) "for eth tx Signatures should be empty: invalid request"
  return fee

-- A transaction that is checked again was validated before.
def EthTx.feeInfo (tx : EthTx) (options : Options) : Check (Option TxFee) :=
  if options.isReCheckTx then .ok none else some <$> tx.validate

def EthTx.unpackMsg (tx : EthTx) : Check MsgEthereumTx :=
  match tx.msgs with
  | [msg] => orFail msg (.error "invalid message type: unknown request")
  | msgs => .error (.error ("expected 1 message, got " ++ toString msgs.length ++ ": invalid request"))

section Fees

variable (tx : Transaction)

def getFee : Int :=
  tx.gas.toNat * tx.gasPrice

def getEffectiveFee (baseFee : Int) : Int :=
  tx.gas.toNat * (tx.effectiveGasTip baseFee + baseFee)

def checkMempoolFee (fee mempoolMinGasPrice gasLimit : LegacyDec) (isLondon : Bool) : Check Unit := do
  if isLondon then return
  let requiredFee ← mempoolMinGasPrice.mul gasLimit
  failIf (fee.lt requiredFee)
    ("got: " ++ fee.toText ++ ", minimum required: " ++ requiredFee.toText ++ ": insufficient fee")

def checkGlobalFee (fee : LegacyDec) (globalMinGasPrice : Option LegacyDec) (gasLimit : LegacyDec) :
    Check Unit := do
  let globalMinGasPrice ← FeeMarket.notNil globalMinGasPrice
  if globalMinGasPrice.isZero then return
  let requiredFee ← globalMinGasPrice.mul gasLimit
  if fee.lt requiredFee then
    let provided ← fee.truncateInt
    let required ← requiredFee.truncateInt
    throw (.error ("provided fee < minimum global fee (" ++ provided.toText ++ " < " ++ required.toText ++
      "). Please increase the priority tip (for EIP-1559 txs) or the gas prices (for access list or" ++
      " legacy txs): insufficient fee"))

-- The fee of the whole gas limit. A nil base fee is dereferenced by the sum.
def verifyFee (forks : Forks) (baseFee : Option Int) (isCheckTx : Bool) : Check Int := do
  let intrinsicGas ← annotate ("failed to retrieve intrinsic gas, contract creation = " ++
      toString tx.recipient.isNone ++ "; homestead = " ++ toString forks.isHomestead ++ ", istanbul = " ++
      toString forks.isIstanbul)
    (intrinsicGas forks tx.data tx.accessList tx.setCodeAuthorizations tx.recipient.isNone)
  failIf (isCheckTx && tx.gas < intrinsicGas) ("gas limit too low: " ++ toString tx.gas.toNat ++
    " (gas limit) < " ++ toString intrinsicGas.toNat ++ " (intrinsic gas): out of gas")
  let baseFee ← orFail baseFee nilDereference
  failIf ((tx.gasFeeCap : Int) < baseFee) ("the tx gasfeecap is lower than the tx baseFee: " ++
    toString tx.gasFeeCap ++ " (gasfeecap), " ++ toString baseFee ++ " (basefee) : insufficient fee")
  return (← SdkInt.newIntFromBigInt (tx.gas.toNat * (tx.effectiveGasTip baseFee + baseFee))).value

def checkTxFee (txFeeInfo : Option TxFee) (txFee : Int) (txGasLimit : UInt64) : Check Unit := do
  match txFeeInfo with
  | none => return
  | some info =>
    let fee ← SdkInt.newIntFromBigInt txFee
    failIf (info.amount ≠ fee.value) ("invalid AuthInfo Fee Amount (" ++ toString info.amount ++ " != " ++
      toString txFee ++ "): invalid request")
    failIf (info.gasLimit ≠ txGasLimit) ("invalid AuthInfo Fee GasLimit (" ++
      toString info.gasLimit.toNat ++ " != " ++ toString txGasLimit.toNat ++ "): invalid request")

end Fees

def checkDisabledCreateCall (options : Options) (tx : Transaction) : Check Unit := do
  failIf (options.createAccess = .restricted && tx.recipient.isNone)
    "failed to create new contract: EVM create operation is disabled"
  failIf (options.callAccess = .restricted && tx.recipient.isSome)
    "failed to perform a call: EVM Call operation is disabled"

def invalidSigner (text : String) : Fault :=
  .error ("signature verification failed: " ++ text ++ ": tx intended signer does not match the given signer")

-- The sender has to be the one that the signature yields.
def verifySender (keccak256 : Bytes → Hash) (msg : MsgEthereumTx) : Check Address := do
  let sender ← msg.raw.sender.mapError invalidSigner
  if msg.sender ≠ sender.bytes then
    throw (invalidSigner ("sender verification failed. got " ++ addressHex keccak256 sender ++
      ", expected 0x" ++ Bytes.hexEncode msg.sender))
  return sender

section Accounts

variable (config : Config) (tx : Transaction) (sender : Address)

def checkSenderBalance (balance : Nat) : Check Unit :=
  failIf (balance < tx.cost) ("failed to check sender balance: sender balance < tx cost (" ++
    toString balance ++ " < " ++ toString tx.cost ++ "): insufficient funds")

-- Only accounts without code, or with a delegation, send transactions. An account
-- that does not exist is made.
def verifyAccountBalance : Action (Ctx (World R)) Unit := do
  let w := (← get).world
  match w.getAccount config sender with
  | none =>
    modify fun ctx => { ctx with world := Bank.makeAccount .baseAccount sender ctx.world }
    checkSenderBalance tx 0
  | some account =>
    let code := if account.codeHash = config.emptyCodeHash then []
      else (w.getCode account.codeHash).getD []
    failIf (code.length ≠ 0 && (parseDelegation code).isNone) ("the sender is not EOA: address " ++
      addressHex config.keccak256 sender ++ ": invalid type")
    checkSenderBalance tx account.balance.toNat

def canTransfer (msg : Message) (baseFee : Option Int) (isLondon : Bool) : Action (Ctx (World R)) Unit := do
  if isLondon then
    let baseFee ← orFail baseFee nilDereference
    failIf ((msg.gasFeeCap : Int) < baseFee) ("max fee per gas less than block base fee (" ++
      toString msg.gasFeeCap ++ " < " ++ toString baseFee ++ "): insufficient fee")
  let value ← uint256FromBigInt msg.value
  if 0 < msg.value then
    let account ← orFail ((← get).world.getAccount config msg.sender) nilDereference
    failIf (account.balance < value) ("failed to transfer " ++ toString msg.value ++ " from address " ++
      addressHex config.keccak256 msg.sender ++
      " using the EVM block context transfer function: insufficient funds")

def incrementNonce (txNonce : UInt64) : Action (Ctx (World R)) Unit := do
  let account ← orFail ((← get).world.accounts sender)
    (.error ("account " ++ config.bech32 sender.bytes ++ " does not exist: unknown address"))
  failIf (account.sequence < txNonce) ("tx nonce: " ++ toString txNonce.toNat ++
    ", account accountNonce: " ++ toString account.sequence.toNat ++ ": tx nonce is higher than account nonce")
  failIf (txNonce < account.sequence) ("invalid nonce; got " ++ toString txNonce.toNat ++ ", expected " ++
    toString account.sequence.toNat ++ ": tx nonce is lower than account nonce")
  failIf (account.sequence = UInt64.ofNat (2 ^ 64 - 1))
    "nonce overflow: increment beyond 2^64-1 violates EIP-2681: invalid account sequence"
  modify fun ctx => { ctx with
    world := ctx.world.putAccount sender { account with sequence := account.sequence + 1 } }

end Accounts

section Handler

variable (block : Block R)

def getBaseFee : Check (Option Int) := do
  if !block.chain.rules.isLondon then return none
  let params := block.feeMarket.getParams
  if params.noBaseFee then return some 0
  let baseFee ← FeeMarket.notNil params.baseFee
  if baseFee.isZero then return some 0
  let converted ← block.convertAmount baseFee
  return some (← converted.truncateInt).value

def deductFees (sender : Address) (fees : Int) : Action (Ctx (World R)) Unit :=
  if fees = 0 then pure ()
  else do
    let account := (← get).world.accounts sender
    failIf account.isNone ("failed to deduct transaction costs from user balance: account not found for" ++
      " sender " ++ addressHex block.config.keccak256 sender ++ ": account " ++
      block.config.bech32 sender.bytes ++ " does not exist: unknown address")
    let coins := toString fees ++ block.evmDenom
    let description := "failed to deduct transaction costs from user balance: failed to deduct full gas cost " ++
      coins ++ " from the user " ++ addressHex block.config.keccak256 sender ++ " balance: "
    failIf (fees < 0) (description ++ "invalid fee amount: " ++ coins ++ ": insufficient fee")
    rewordError (fun text => description ++ text ++ ": insufficient funds")
      (Bank.sendCoinsFromAccountToModule sender block.feeCollector fees.toNat)

-- The checks of the fees that the handler makes before it looks at the sender.
def checkFees (options : Options) (tx : Transaction) (baseFee : Option Int) : Check Unit := do
  let gasLimit := LegacyDec.ofInt tx.gas.toNat
  if options.isCheckTx && !options.simulate then
    checkMempoolFee (.ofInt (getFee tx)) options.mempoolMinGasPrice gasLimit block.chain.rules.isLondon
  let fee := match baseFee with
    | some baseFee => if tx.isDynamic then getEffectiveFee tx baseFee else getFee tx
    | none => getFee tx
  checkGlobalFee (.ofInt fee) block.feeMarket.getParams.minGasPrice gasLimit

def anteHandle (options : Options) (tx : EthTx) : Action (Ctx (World R)) Unit := do
  let txFeeInfo ← tx.feeInfo options
  let baseFee ← getBaseFee block
  let msg ← tx.unpackMsg
  let raw := msg.raw
  options.validateTransaction raw baseFee
  checkFees block options raw baseFee
  checkDisabledCreateCall options raw
  let sender ← verifySender block.config.keccak256 msg
  verifyAccountBalance block.config raw sender
  canTransfer block.config (raw.messageFrom sender baseFee) baseFee block.chain.rules.isLondon
  let fees ← verifyFee raw block.chain.rules.toForks baseFee options.isCheckTx
  deductFees block sender fees
  incrementNonce block.config sender raw.nonce
  checkTxFee txFeeInfo (getFee raw) raw.gas
  checkBlockGasLimit options.maxGas
    (updateCumulativeGasWanted options.isCheckTx raw.gas options.maxGasWanted 0)

end Handler

end PosChain.Ante
