import PosChain.Base.Text
import PosChain.Cosmos.Bank
import PosChain.Ethereum.Common

namespace PosChain.Erc20

def moduleName : String := "erc20"

inductive Owner where
  | unspecified
  | ownerModule
  | ownerExternal
  deriving DecidableEq

-- The address of a pair is a text, which may be written in either case.
structure TokenPair where
  erc20Address : String
  denom : String
  enabled : Bool
  contractOwner : Owner
  deriving DecidableEq

structure Allowance where
  erc20Address : String
  owner : String
  spender : String
  value : SdkInt
  deriving DecidableEq

structure Params where
  enableErc20 : Bool
  permissionlessRegistration : Bool
  deriving DecidableEq

def validateAddress (address : String) : Check Unit :=
  failIf (!Ethereum.isHexAddress address)
    ("address '" ++ address ++ "' is not a valid ethereum hex address: invalid address")

def createDenom (address : String) : String :=
  "erc20:" ++ address

-- The name of a token as part of a denomination: no digits at the start of a line,
-- no characters that a denomination may not have, at most 128 of them, and no
-- prefix that is reserved.
section SanitizeName

def removeLeadingNumbers (atLineStart : Bool) : List Char → List Char
  | [] => []
  | c :: rest =>
    if atLineStart && c.isDigit then removeLeadingNumbers true rest
    else c :: removeLeadingNumbers (c == '\n') rest

def removeSpecialChars : List Char → List Char
  | [] => []
  | c :: rest =>
    (if c.isAlpha then [c] else []) ++ rest.filter fun c => c.isAlphanum || c == '/' || c == ':' || c == '-'

def removeInvalidPrefixes : Nat → List Char → List Char
  | 0, chars => chars
  | fuel + 1, chars =>
    if "ibc/".toList.isPrefixOf chars then removeInvalidPrefixes fuel (chars.drop 4)
    else if "erc20/".toList.isPrefixOf chars then removeInvalidPrefixes fuel (chars.drop 6)
    else if "erc20:".toList.isPrefixOf chars then removeInvalidPrefixes fuel (chars.drop 6)
    else chars

-- Every prefix takes some of the 128 characters that are left.
def sanitizeERC20Name (name : String) : String :=
  let chars := (removeSpecialChars (removeLeadingNumbers true name.toList)).take 128
  String.ofList (removeInvalidPrefixes 128 chars)

end SanitizeName

-- The hash in an IBC denomination: hexadecimal, and empty or of 32 bytes.
def parseHexHash (text : Bytes) : Except String Bytes :=
  if !Bytes.hexDecodable text then .error "encoding/hex: invalid byte"
  else
    let hash := Bytes.hexDecodePrefix text
    if hash.length = 0 ∨ hash.length = 32 then .ok hash
    else .error s!"expected size to be 32 bytes, got {hash.length} bytes"

def invalidDenomForTransfer (text : String) : String :=
  text ++ ": invalid denomination for cross-chain transfer"

def ibcHead : Bytes :=
  Bytes.utf8 "ibc/"

def getIBCDenomAddress (denom : String) : Check Address := do
  failIf (!ibcHead.isPrefixOf (Bytes.utf8 denom))
    (invalidDenomForTransfer ("coin " ++ denom ++ " does not have 'ibc/' prefix"))
  let hash := (Bytes.utf8 denom).drop 4
  failIf (Text.trimSpace (Bytes.toText hash) == "")
    (invalidDenomForTransfer ("coin " ++ denom ++ " is not a valid IBC voucher hash"))
  let bz ← passOn ((parseHexHash hash).mapError invalidDenomForTransfer)
  return Ethereum.bytesToAddress bz

namespace TokenPair

-- The identifier is the digest of both texts.
def idText (pair : TokenPair) : String :=
  pair.erc20Address ++ "|" ++ pair.denom

def getID (sum : Bytes → Bytes) (pair : TokenPair) : Bytes :=
  sum (Bytes.utf8 pair.idText)

def getERC20Contract (pair : TokenPair) : Address :=
  Ethereum.hexToAddress pair.erc20Address

def validate (pair : TokenPair) : Check Unit := do
  failIf (!validateDenom pair.denom) ("invalid denom: " ++ pair.denom)
  validateAddress pair.erc20Address

def isNativeCoin (pair : TokenPair) : Bool :=
  pair.contractOwner == .ownerModule

def isNativeERC20 (pair : TokenPair) : Bool :=
  pair.contractOwner == .ownerExternal

end TokenPair

section New

variable (keccak256 : Bytes → Hash)

def newTokenPair (erc20Address : Address) (denom : String) (contractOwner : Owner) : TokenPair :=
  ⟨Ethereum.addressHex keccak256 erc20Address, denom, true, contractOwner⟩

-- The single token representation of an IBC coin takes its address from the
-- hash in the denomination.
def newTokenPairSTRv2 (denom : String) : Check TokenPair := do
  let address ← getIBCDenomAddress denom
  return newTokenPair keccak256 address denom .ownerModule

def newAllowance (erc20 owner spender : Address) (value : SdkInt) : Allowance :=
  ⟨Ethereum.addressHex keccak256 erc20, Ethereum.addressHex keccak256 owner,
    Ethereum.addressHex keccak256 spender, value⟩

end New

def allowanceKey (erc20 owner spender : Address) : Bytes :=
  erc20.bytes ++ owner.bytes ++ spender.bytes

def Allowance.validate (a : Allowance) : Check Unit := do
  failIf (!Ethereum.isHexAddress a.erc20Address)
    ("invalid erc20 hex address " ++ a.erc20Address ++ ": invalid address")
  failIf (!Ethereum.isHexAddress a.owner) ("invalid owner hex address " ++ a.owner ++ ": invalid address")
  failIf (!Ethereum.isHexAddress a.spender)
    ("invalid sender hex address " ++ a.spender ++ ": invalid address")
  failIf (!a.value.isPositive) "invalid allowance value: invalid allowance"

structure GenesisState where
  params : Params
  tokenPairs : List TokenPair
  allowances : List Allowance
  nativePrecompiles : List String
  dynamicPrecompiles : List String
  deriving DecidableEq

section Validate

def validateTokenPairs (seenErc20 seenDenom : List String) : List TokenPair → Check (List String)
  | [] => pure seenErc20
  | b :: rest => do
    failIf (seenErc20.contains b.erc20Address)
      ("token ERC20 contract duplicated on genesis '" ++ b.erc20Address ++ "'")
    failIf (seenDenom.contains b.denom)
      ("coin denomination duplicated on genesis: '" ++ b.denom ++ "'")
    b.validate
    validateTokenPairs (b.erc20Address :: seenErc20) (b.denom :: seenDenom) rest

def hasActiveTokenPair (pairs : List TokenPair) (address : String) : Bool :=
  pairs.any fun p => p.erc20Address == address && p.enabled

def validatePrecompiles (tokenPairs : List TokenPair) : List String → Check Unit
  | [] => pure ()
  | precompile :: rest => do
    failIf (!hasActiveTokenPair tokenPairs precompile)
      ("precompile address '" ++ precompile ++ "' not found in token pairs")
    validatePrecompiles tokenPairs rest

def Allowance.text (a : Allowance) : String :=
  a.erc20Address ++ a.owner ++ a.spender

def validateAllowances (seenErc20 seenAllowance : List String) : List Allowance → Check Unit
  | [] => pure ()
  | a :: rest => do
    failIf (seenAllowance.contains a.text) ("duplicated allowance on genesis: " ++ a.text)
    failIf (!seenErc20.contains a.erc20Address)
      ("allowance has no corresponding token pair on genesis: " ++ a.erc20Address)
    annotate "invalid allowance on genesis" a.validate
    validateAllowances seenErc20 (a.text :: seenAllowance) rest

def GenesisState.validate (gs : GenesisState) : Check Unit := do
  let seenErc20 ← validateTokenPairs [] [] gs.tokenPairs
  annotate "invalid dynamic precompiles on genesis" (validatePrecompiles gs.tokenPairs gs.dynamicPrecompiles)
  annotate "invalid native precompiles on genesis" (validatePrecompiles gs.tokenPairs gs.nativePrecompiles)
  validateAllowances seenErc20 [] gs.allowances

end Validate

end PosChain.Erc20
