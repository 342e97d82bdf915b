import PosChain.Base.Action
import PosChain.Ethereum.Common

namespace PosChain.Ethereum

-- The transactions and messages of go-ethereum as far as the chain uses them. What
-- the library recovers from a signature is part of the value.
structure SetCodeAuthorization where
  chainID : Nat
  address : Address
  nonce : UInt64
  authority : Except String Address

abbrev AccessTuples := List (Address × List Hash)

-- A transaction that sets codes has a recipient and creates no contract.
inductive TxData where
  | legacy (gasPrice : Nat) (recipient : Option Address)
  | accessList (gasPrice : Nat) (recipient : Option Address) (list : AccessTuples)
  | dynamicFee (gasTipCap gasFeeCap : Nat) (recipient : Option Address) (list : AccessTuples)
  | setCode (gasTipCap gasFeeCap : Nat) (recipient : Address) (list : AccessTuples)
      (authorizations : List SetCodeAuthorization)

structure Transaction where
  inner : TxData
  nonce : UInt64
  gas : UInt64
  value : Nat
  data : Bytes
  sender : Except String Address

structure Message where
  sender : Address
  recipient : Option Address
  nonce : UInt64
  value : Nat
  gasLimit : UInt64
  gasPrice : Int
  gasFeeCap : Nat
  gasTipCap : Nat
  data : Bytes
  accessList : AccessTuples
  setCodeAuthorizations : List SetCodeAuthorization

namespace Transaction

variable (tx : Transaction)

def recipient : Option Address :=
  match tx.inner with
  | .legacy _ recipient => recipient
  | .accessList _ recipient _ => recipient
  | .dynamicFee _ _ recipient _ => recipient
  | .setCode _ _ recipient _ _ => some recipient

def gasTipCap : Nat :=
  match tx.inner with
  | .legacy gasPrice _ => gasPrice
  | .accessList gasPrice _ _ => gasPrice
  | .dynamicFee gasTipCap _ _ _ => gasTipCap
  | .setCode gasTipCap _ _ _ _ => gasTipCap

def gasFeeCap : Nat :=
  match tx.inner with
  | .legacy gasPrice _ => gasPrice
  | .accessList gasPrice _ _ => gasPrice
  | .dynamicFee _ gasFeeCap _ _ => gasFeeCap
  | .setCode _ gasFeeCap _ _ _ => gasFeeCap

def gasPrice : Nat :=
  tx.gasFeeCap

def isDynamic : Bool :=
  match tx.inner with
  | .legacy _ _ => false
  | .accessList _ _ _ => false
  | .dynamicFee _ _ _ _ => true
  | .setCode _ _ _ _ _ => true

def accessList : AccessTuples :=
  match tx.inner with
  | .legacy _ _ => []
  | .accessList _ _ list => list
  | .dynamicFee _ _ _ list => list
  | .setCode _ _ _ list _ => list

def setCodeAuthorizations : List SetCodeAuthorization :=
  match tx.inner with
  | .setCode _ _ _ _ authorizations => authorizations
  | _ => []

def cost : Nat :=
  tx.gasPrice * tx.gas.toNat + tx.value

-- What a base fee leaves for the proposer, which is negative when the fee cap is
-- below the base fee.
def effectiveGasTip (baseFee : Int) : Int :=
  min tx.gasTipCap (tx.gasFeeCap - baseFee)

-- The price of a message: without a base fee it is the price of the transaction.
def messageGasPrice (baseFee : Option Int) : Int :=
  match baseFee with
  | none => tx.gasPrice
  | some baseFee => min (tx.gasTipCap + baseFee) tx.gasFeeCap

def messageFrom (sender : Address) (baseFee : Option Int) : Message where
  sender := sender
  recipient := tx.recipient
  nonce := tx.nonce
  value := tx.value
  gasLimit := tx.gas
  gasPrice := tx.messageGasPrice baseFee
  gasFeeCap := tx.gasFeeCap
  gasTipCap := tx.gasTipCap
  data := tx.data
  accessList := tx.accessList
  setCodeAuthorizations := tx.setCodeAuthorizations

def toMessage (baseFee : Option Int) : Check Message := do
  let sender ← passOn tx.sender
  return tx.messageFrom sender baseFee

theorem messageGasPrice_of_not_dynamic (h : tx.isDynamic = false) {baseFee : Int} (hbase : 0 ≤ baseFee) :
    tx.messageGasPrice (some baseFee) = tx.gasPrice := by
  have hcaps : tx.gasTipCap = tx.gasFeeCap := by
    unfold isDynamic at h
    unfold gasTipCap gasFeeCap
    cases hinner : tx.inner with
    | legacy gasPrice recipient => rfl
    | accessList gasPrice recipient list => rfl
    | dynamicFee gasTipCap gasFeeCap recipient list => simp [hinner] at h
    | setCode gasTipCap gasFeeCap recipient list authorizations => simp [hinner] at h
  simp only [messageGasPrice, gasPrice]
  omega

theorem effectiveGasTip_add (baseFee : Int) :
    tx.effectiveGasTip baseFee + baseFee = tx.messageGasPrice (some baseFee) := by
  simp only [effectiveGasTip, messageGasPrice]
  omega

end Transaction

section Costs

def zeroBytes (data : Bytes) : Nat :=
  data.countP (· == 0)

structure Forks where
  isHomestead : Bool
  isIstanbul : Bool
  isShanghai : Bool

def dataGas (forks : Forks) (isContractCreation : Bool) (data : Bytes) : Nat :=
  let zeros := zeroBytes data
  let words := if isContractCreation && forks.isShanghai then (data.length + 31) / 32 else 0
  (if isContractCreation && forks.isHomestead then 53000 else 21000) +
    (data.length - zeros) * (if forks.isIstanbul then 16 else 68) + zeros * 4 + words * 2

-- Only the part of the data is checked for an overflow.
def intrinsicGas (forks : Forks) (data : Bytes) (accessList : AccessTuples)
    (authorizations : List SetCodeAuthorization) (isContractCreation : Bool) : Check UInt64 := do
  failIf (2 ^ 64 ≤ dataGas forks isContractCreation data) "gas uint64 overflow"
  let keys := (accessList.map fun tuple => tuple.2.length).sum
  return UInt64.ofNat (dataGas forks isContractCreation data + accessList.length * 2400 + keys * 1900 +
    authorizations.length * 25000)

-- The floor of EIP-7623 counts four tokens for a byte that is not zero.
def dataTokens (data : Bytes) : Nat :=
  zeroBytes data + (data.length - zeroBytes data) * 4

def floorDataGas (data : Bytes) : Check UInt64 := do
  failIf ((2 ^ 64 - 1 - 21000) / 10 < dataTokens data) "gas uint64 overflow"
  return UInt64.ofNat (21000 + dataTokens data * 10)

end Costs

end PosChain.Ethereum
