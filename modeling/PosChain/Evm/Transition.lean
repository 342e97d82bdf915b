import PosChain.Ethereum.Transaction
import PosChain.Evm.Execution
import PosChain.Evm.Keeper
import PosChain.FeeMarket.Keeper

namespace PosChain.Evm

open Ethereum

-- What the EVM does with a message: the script of its operations, the gas it leaves
-- and the error it ends with.
structure Outcome (W : Type) where
  script : Script W .evm
  leftoverGas : UInt64
  vmErr : Option String

structure Interpreter (W : Type) where
  create : StateDB W → Address → Bytes → UInt64 → Uint256 → Outcome W
  call : StateDB W → Address → Address → Bytes → UInt64 → Uint256 → Outcome W

structure Rules extends Forks, StateDB.Rules where
  isLondon : Bool
  isPrague : Bool

structure Chain (W : Type) where
  rules : Rules
  chainID : Nat
  activePrecompiles : List Address
  interpreter : Interpreter W

structure EVMConfig where
  minGasMultiplier : Option LegacyDec
  baseFee : Option Int

structure Response where
  gasUsed : UInt64
  maxUsedGas : UInt64
  vmError : String
  deriving DecidableEq

def Response.failed (res : Response) : Bool :=
  decide (res.vmError ≠ "")

def gasToRefund (availableRefund gasConsumed refundQuotient : UInt64) : UInt64 :=
  if availableRefund < gasConsumed / refundQuotient then availableRefund else gasConsumed / refundQuotient

def uint256FromBigInt (value : Nat) : Check Uint256 :=
  if value < 2 ^ 256 then .ok (BitVec.ofNat 256 value)
  else
    .error (.error ("overflow trying to convert *big.Int (" ++ toString value ++ ") to uint256.Int (" ++
      toString (value % 2 ^ 256) ++ ")"))

def truncateUint64 (dec : LegacyDec) : Check UInt64 := do
  let number ← dec.truncateInt
  if FeeMarket.isUint64 number then return FeeMarket.uint64 number
  else throw (.panic "Uint64() out of bounds")

namespace Machine

variable {W : Type} (env : Env W)

def commit : Action (Machine W) Unit := do
  let m ← get
  onPart (fun m => m.db.writeCache) (fun ctx m => m.setDb { m.db with ctx := ctx })
    (m.db.commitWithCtx env)

-- Within a precompile the state is flushed only.
def commitOrFlush (callFromPrecompile : Bool) : Action (Machine W) Unit :=
  if callFromPrecompile then
    wrapError "failed to flush stateDB to cacheCtx" (flushToCacheCtx env)
  else wrapError "failed to commit stateDB" (commit env)

end Machine

namespace Chain

variable {W : Type} (env : Env W) (chain : Chain W)

section Authorizations

variable (auth : SetCodeAuthorization)

-- The authority is in the access list even if its authorization is not valid.
def validateAuthorization : Action (Machine W) Address := do
  failIf (auth.chainID ≠ 0 && auth.chainID ≠ chain.chainID) "EIP-7702 authorization chain ID mismatch"
  failIf (auth.nonce + 1 < auth.nonce) "EIP-7702 authorization nonce > 64 bit"
  let authority ← annotate "EIP-7702 authorization has invalid signature" (passOn auth.authority)
  Machine.issue env (.addAddressToAccessList authority)
  let code := ((← get).db.getCode env authority).getD []
  Machine.issue env (.loadCode authority)
  failIf (code.length ≠ 0 && (parseDelegation code).isNone) "EIP-7702 authorization destination is a contract"
  failIf ((← get).db.getNonce env authority ≠ auth.nonce)
    "EIP-7702 authorization nonce does not match current account nonce"
  return authority

-- An account that exists already gets back what the authorization has cost for a new
-- one. A delegation to the zero address clears the code.
def applyAuthorization : Action (Machine W) Unit := do
  let authority ← chain.validateAuthorization env auth
  runIf ((← get).db.exist env authority) (Machine.issue env (.addRefund (25000 - 12500)))
  Machine.issue env (.setNonce authority (auth.nonce + 1))
  if auth.address = zeroAddress then Machine.issue env (.setCode authority none)
  else Machine.issue env (.setCode authority (some (addressToDelegation auth.address)))

end Authorizations

section Messages

variable (msg : Message)

def getEthIntrinsicGas : Check UInt64 :=
  intrinsicGas chain.rules.toForks msg.data msg.accessList msg.setCodeAuthorizations msg.recipient.isNone

def checkFloorDataGas : Check Unit := do
  let floor ← floorDataGas msg.data
  failIf (msg.gasLimit < floor) ("insufficient gas for floor data gas cost: have " ++
    toString msg.gasLimit.toNat ++ ", want " ++ toString floor.toNat)

def checkGas : Check UInt64 := do
  let intrinsicGas ← annotate "intrinsic gas failed" (chain.getEthIntrinsicGas msg)
  failIf (msg.gasLimit < intrinsicGas) "apply message: intrinsic gas too low"
  if chain.rules.isPrague then checkFloorDataGas msg
  return msg.gasLimit - intrinsicGas

def prepare : Action (Machine W) Unit := do
  let m ← get
  let db ← m.db.prepare chain.rules.toRules msg.sender zeroAddress msg.recipient chain.activePrecompiles
    msg.accessList
  set (m.setDb db)

-- The nonce of the sender goes back to the one of the message before the contract is
-- created, and is behind it afterwards, whatever the result is.
def runCreation (gas : UInt64) (value : Uint256) : Action (Machine W) (UInt64 × Option String) := do
  Machine.issue env (.setNonce msg.sender msg.nonce)
  let outcome := chain.interpreter.create (← get).db msg.sender msg.data gas value
  Machine.exec env outcome.script
  if (← get).db.getNonce env msg.sender = msg.nonce then
    Machine.issue env (.setNonce msg.sender (msg.nonce + 1))
  return (outcome.leftoverGas, outcome.vmErr)

-- Authorizations that fail are skipped. The target of a delegation is warmed.
def runCall (recipient : Address) (gas : UInt64) (value : Uint256) :
    Action (Machine W) (UInt64 × Option String) := do
  msg.setCodeAuthorizations.forM fun auth => do
    let _ ← attempt (chain.applyAuthorization env auth)
  let target := parseDelegation (((← get).db.getCode env recipient).getD [])
  Machine.issue env (.loadCode recipient)
  match target with
  | some address => Machine.issue env (.addAddressToAccessList address)
  | none => pure ()
  let outcome := chain.interpreter.call (← get).db msg.sender recipient msg.data gas value
  Machine.exec env outcome.script
  return (outcome.leftoverGas, outcome.vmErr)

-- The message up to the return of the EVM, with the gas it leaves and its error.
def runMessage (callFromPrecompile : Bool) : Action (Machine W) (UInt64 × Option String) := do
  let gas ← chain.checkGas msg
  runIf (!callFromPrecompile) (chain.prepare msg)
  let value ← uint256FromBigInt msg.value
  match msg.recipient with
  | none => chain.runCreation env msg gas value
  | some recipient => chain.runCall env msg recipient gas value

def refundQuotient (internal : Bool) : UInt64 :=
  if internal then 1 else if chain.rules.isLondon then 5 else 2

-- The gas of the message that the EVM has used, and the part of it that is refunded.
def usedGas (internal : Bool) (leftoverGas refundCounter : UInt64) : Check (UInt64 × UInt64) := do
  failIf (msg.gasLimit < leftoverGas) "apply message: gas computation overflow/underflow"
  let maxUsedGas := msg.gasLimit - leftoverGas
  return (maxUsedGas, gasToRefund refundCounter maxUsedGas (chain.refundQuotient internal))

def chargedGas (cfg : EVMConfig) (internal : Bool) (leftoverGas temporaryGasUsed : UInt64) : Check UInt64 := do
  let gasLimit := LegacyDec.newDecFromInt (.newIntFromUint64 msg.gasLimit)
  let minimumGasUsed ← gasLimit.mul (cfg.minGasMultiplier.getD .zeroDec)
  let minimum ← minimumGasUsed.truncateInt
  failIf (!FeeMarket.isUint64 minimum) ("minimumGasUsed(" ++ minimum.toText ++
    ") is not a uint64: gas computation overflow/underflow")
  failIf (msg.gasLimit < leftoverGas) ("message gas limit < leftover gas (" ++
    toString msg.gasLimit.toNat ++ " < " ++ toString leftoverGas.toNat ++
    "): gas computation overflow/underflow")
  let gasUsed := LegacyDec.newDec temporaryGasUsed.toInt64
  truncateUint64 (if internal then gasUsed else gasUsed.maxDec minimumGasUsed)

def applyMessageWithConfig (cfg : EVMConfig) (commit callFromPrecompile internal : Bool) :
    Action (Machine W) Response := do
  let (leftoverGas, vmErr) ← chain.runMessage env msg callFromPrecompile
  let (maxUsedGas, refund) ← chain.usedGas msg internal leftoverGas (← get).db.refund
  runIf commit (Machine.commitOrFlush env callFromPrecompile)
  let gasUsed ← chargedGas msg cfg internal (leftoverGas + refund) (maxUsedGas - refund)
  return ⟨gasUsed, maxUsedGas, vmErr.getD ""⟩

end Messages

end Chain

end PosChain.Evm
