import PosChain.Bridge.Genesis

namespace PosChain.Bridge

-- An environment whose hash functions, key recovery and address codec are finite
-- tables of values of the real ones, over a ledger.
structure Tables where
  sha256 : List (Bytes × Hash)
  keccak256 : List (Bytes × Hash)
  sigToPub : List ((Hash × Bytes) × Bytes)
  pubkeyToAddress : List (Bytes × Address)
  accounts : List (String × AccAddress)

namespace Tables

def lookupHash (table : List (Bytes × Hash)) (bytes : Bytes) : Hash :=
  (table.lookup bytes).getD (Ethereum.hexToHash "0x00")

def env (tables : Tables) : Env Ledger where
  unicode := Unicode.ascii
  sha256 := lookupHash tables.sha256
  keccak256 := lookupHash tables.keccak256
  sigToPub digest signature :=
    match tables.sigToPub.lookup (digest, signature) with
    | some key => .ok key
    | none => .error "recovery failed"
  pubkeyToAddress key := (tables.pubkeyToAddress.lookup key).getD Ethereum.zeroAddress
  accAddressFromBech32 text :=
    match tables.accounts.lookup text with
    | some address => .ok address
    | none => .error "decoding bech32 failed"
  accAddressText address :=
    ((tables.accounts.find? fun entry => entry.2 == address).map Prod.fst).getD ""
  validateAuthority _ expected given :=
    if expected == given then .ok () else .error "invalid authority"
  bank := Ledger.bank

end Tables

-- A route with three signers and a guardian, and the keeper of the chain's
-- native denomination and supply cap.
def sampleConfig : RouteConfig where
  routeID := "cronos-testnet"
  bridgeSigners := ["0x7e5f4552091a69125d5dfcb7b8c2659029395bdf",
    "0x2b5ad5c4795c026514f8317c7a215e218dccd6cf", "0x6813eb9362372eef6200f3b1dbc3f819671cba69"]
  guardian := "0x1eff47bc3a10a45d4b230b5d10e37751fe6aa718"
  maxTransferAmount := "1000"
  dailyLimit := "5000"
  maxOutstandingAmount := "10000"
  enabled := true

def sampleKeeper : Keeper :=
  ⟨some ⟨"axtc", ⟨5250000000000000000000000000, by decide⟩, by decide, by decide⟩, ""⟩

def sampleAccount : String :=
  "xtc1ux4cz30hu4wujv74rgvv0yleqx36pvnk9jym5p"

def sampleAddress : AccAddress :=
  (Ethereum.hexToAddress "0xe1ab8145f7e55dc933d51a18c793f901a3a0b276").bytes

def bytesOfHex (digits : String) : Bytes :=
  Bytes.hexDecodePrefix (Bytes.utf8 digits)

def samplePubkeys : List (Bytes × Address) :=
  [(bytesOfHex ("0479be667ef9dcbbac55a06295ce870b07029bfcdb2dce28d959f2815b16f81798" ++
      "483ada7726a3c4655da4fbfc0e1108a8fd17b448a68554199c47d08ffb10d4b8"),
    Ethereum.hexToAddress "0x7e5f4552091a69125d5dfcb7b8c2659029395bdf"),
   (bytesOfHex ("04c6047f9441ed7d6d3045406e95c07cd85c778e4b8cef3ca7abac09b95c709ee5" ++
      "1ae168fea63dc339a3c58419466ceaeef7f632653266d0e1236431a950cfe52a"),
    Ethereum.hexToAddress "0x2b5ad5c4795c026514f8317c7a215e218dccd6cf")]

def sampleRecovery (digest : Hash) (signatures : List Bytes) : List ((Hash × Bytes) × Bytes) :=
  (signatures.map fun signature => (digest, signature)).zip (samplePubkeys.map Prod.fst)

theorem zero_bounded : ((0 : Nat) : Int).natAbs < 2 ^ 256 := by
  decide

theorem hundred_bounded : ((100 : Nat) : Int).natAbs < 2 ^ 256 := by
  decide

def sampleLedger (amount : Nat) (h : (amount : Int).natAbs < 2 ^ 256) : Ledger where
  supply _ := ⟨amount, h⟩
  modules _ _ := 0
  accounts address _ := if address = sampleAddress then amount else 0

end PosChain.Bridge
