import PosChain.Erc20.Types

namespace PosChain.Erc20

-- The key families of the module's store. The precompiles are kept under the
-- text of their address.
@[ext] structure Store where
  params : Params
  tokenPairs : Std.ExtTreeMap Bytes TokenPair
  erc20Map : Address → Option Bytes
  denomMap : String → Option Bytes
  allowances : Std.ExtTreeMap Bytes Allowance
  nativePrecompiles : Std.ExtTreeMap String Unit
  dynamicPrecompiles : Std.ExtTreeMap String Unit

namespace Store

def empty : Store :=
  ⟨⟨false, false⟩, ∅, fun _ => none, fun _ => none, ∅, ∅, ∅⟩

section TokenPairs

variable (sum : Bytes → Bytes)

def isERC20Registered (s : Store) (erc20 : Address) : Bool :=
  (s.erc20Map erc20).isSome

def isDenomRegistered (s : Store) (denom : String) : Bool :=
  (s.denomMap denom).isSome

-- A token is named by its address in hexadecimal or by its denomination.
def getTokenPairID (s : Store) (token : String) : Option Bytes :=
  if Ethereum.isHexAddress token then s.erc20Map (Ethereum.hexToAddress token) else s.denomMap token

def getTokenPair (s : Store) (id : Option Bytes) : Option TokenPair :=
  id.bind fun id => s.tokenPairs[id]?

def setTokenPair (s : Store) (pair : TokenPair) : Store :=
  { s with tokenPairs := s.tokenPairs.insert (pair.getID sum) pair }

def setERC20Map (s : Store) (erc20 : Address) (id : Option Bytes) : Store :=
  { s with erc20Map := Function.update s.erc20Map erc20 id }

def setDenomMap (s : Store) (denom : String) (id : Option Bytes) : Store :=
  { s with denomMap := Function.update s.denomMap denom id }

def addToken (s : Store) (pair : TokenPair) : Store :=
  ((s.setTokenPair sum pair).setDenomMap pair.denom (pair.getID sum)).setERC20Map
    pair.getERC20Contract (pair.getID sum)

def setToken (pair : TokenPair) : Action Store Unit := do
  let s ← get
  failIf (s.isDenomRegistered pair.denom)
    ("token already exists for denom " ++ pair.denom ++ ": token pair already exists")
  failIf (s.isERC20Registered pair.getERC20Contract)
    ("token already exists for token " ++ pair.erc20Address ++ ": token pair already exists")
  modify fun s => s.addToken sum pair

def deleteAllowances (s : Store) (erc20 : Address) : Store :=
  { s with allowances := s.allowances.filter fun key _ => !erc20.bytes.isPrefixOf key }

def deleteTokenPair (s : Store) (pair : TokenPair) : Store :=
  let s := { s with tokenPairs := s.tokenPairs.erase (pair.getID sum) }
  ((s.setERC20Map pair.getERC20Contract none).setDenomMap pair.denom none).deleteAllowances
    pair.getERC20Contract

def toggleConversion (token : String) : Action Store TokenPair := do
  let s ← get
  let id ← orFail (s.getTokenPairID token)
    (.error ("token '" ++ token ++ "' not registered by id: token pair not found"))
  let pair ← orFail (s.getTokenPair (some id))
    (.error ("token '" ++ token ++ "' not registered: token pair not found"))
  let pair := { pair with enabled := !pair.enabled }
  modify fun s => s.setTokenPair sum pair
  return pair

end TokenPairs

section Allowances

variable (keccak256 : Bytes → Hash)

def putAllowance (s : Store) (erc20 owner spender : Address) (value : SdkInt) : Store :=
  let key := allowanceKey erc20 owner spender
  if value.isZero then { s with allowances := s.allowances.erase key }
  else { s with allowances := s.allowances.insert key (newAllowance keccak256 erc20 owner spender value) }

-- A value of more than 256 bits is no integer of the module.
def allowanceValue (value : Int) : Check SdkInt := do
  failIf (value < 0) ("value '" ++ toString value ++ "' is less than zero: invalid allowance")
  orFail (SdkInt.ofInt? value) (.error
    ("value '" ++ toString value ++ "' is greater than max value of uint256: invalid allowance"))

def writeAllowance (erc20 owner spender : Address) (value : Int) (allowDisabledTokenPair : Bool) :
    Action Store Unit := do
  let s ← get
  let address := Ethereum.addressHex keccak256 erc20
  let tokenPair ← orFail (s.getTokenPair (s.erc20Map erc20)) (.error
    ("token pair for address '" ++ address ++ "' not registered: token pair not found"))
  failIf (!allowDisabledTokenPair && !tokenPair.enabled)
    ("token pair for address '" ++ address ++ "' is disabled: erc20 token pair is disabled")
  failIf (owner == Ethereum.zeroAddress) "owner address is empty: invalid address"
  failIf (spender == Ethereum.zeroAddress) "spender address is empty: invalid address"
  let value ← allowanceValue value
  modify fun s => s.putAllowance keccak256 erc20 owner spender value

def setAllowance (erc20 owner spender : Address) (value : Int) : Action Store Unit :=
  writeAllowance keccak256 erc20 owner spender value false

-- Only genesis import sets the allowances of a pair that is disabled.
def unsafeSetAllowance (erc20 owner spender : Address) (value : Int) : Action Store Unit :=
  writeAllowance keccak256 erc20 owner spender value true

end Allowances

section Precompiles

variable (keccak256 : Bytes → Hash)

def isNativePrecompileAvailable (s : Store) (precompile : Address) : Bool :=
  s.nativePrecompiles.contains (Ethereum.addressHex keccak256 precompile)

def isDynamicPrecompileAvailable (s : Store) (precompile : Address) : Bool :=
  s.dynamicPrecompiles.contains (Ethereum.addressHex keccak256 precompile)

def setNativePrecompile (s : Store) (precompile : Address) : Store :=
  { s with nativePrecompiles := s.nativePrecompiles.insert (Ethereum.addressHex keccak256 precompile) () }

def setDynamicPrecompile (s : Store) (precompile : Address) : Store :=
  { s with dynamicPrecompiles := s.dynamicPrecompiles.insert (Ethereum.addressHex keccak256 precompile) () }

end Precompiles

end Store

end PosChain.Erc20
