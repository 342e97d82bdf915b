import PosChain.Base.Bytes

namespace PosChain

-- The address, hash and hexadecimal helpers of go-ethereum's common package,
-- which work on the bytes of a text.
structure Address where
  bytes : Bytes
  length_eq : bytes.length = 20
  deriving DecidableEq

structure Hash where
  bytes : Bytes
  length_eq : bytes.length = 32
  deriving DecidableEq

section Order

theorem Address.eq_of_bytes {a b : Address} (h : a.bytes = b.bytes) : a = b := by
  cases a
  cases b
  cases h
  rfl

theorem Hash.eq_of_bytes {a b : Hash} (h : a.bytes = b.bytes) : a = b := by
  cases a
  cases b
  cases h
  rfl

instance : Ord Address where
  compare := compareOn Address.bytes

instance : Ord Hash where
  compare := compareOn Hash.bytes

instance : Std.TransOrd Address :=
  inferInstanceAs (Std.TransCmp (compareOn Address.bytes))

instance : Std.TransOrd Hash :=
  inferInstanceAs (Std.TransCmp (compareOn Hash.bytes))

instance : Std.LawfulEqOrd Address where
  eq_of_compare h := Address.eq_of_bytes (Std.LawfulEqCmp.eq_of_compare h)

instance : Std.LawfulEqOrd Hash where
  eq_of_compare h := Hash.eq_of_bytes (Std.LawfulEqCmp.eq_of_compare h)

end Order

namespace Ethereum

def has0xPrefix (text : Bytes) : Bool :=
  match text with
  | zero :: x :: _ => zero == 48 && (x == 120 || x == 88)
  | _ => false

def strip0x (text : Bytes) : Bytes :=
  if has0xPrefix text then text.drop 2 else text

def isHexOfLength (text : Bytes) (size : Nat) : Bool :=
  (strip0x text).length == 2 * size && (strip0x text).all Bytes.isHex

def isHexAddress (text : String) : Bool :=
  isHexOfLength (Bytes.utf8 text) 20

def isHexHash (text : String) : Bool :=
  isHexOfLength (Bytes.utf8 text) 32

-- Decoding drops the prefix, puts a zero in front of an odd number of digits
-- and keeps what it read before the first character that is no digit.
def fromHex (text : Bytes) : Bytes :=
  let digits := strip0x text
  Bytes.hexDecodePrefix (if digits.length % 2 = 1 then 48 :: digits else digits)

-- The last bytes of a string in a field of fixed width, after zeros if it is short.
def rightAligned (size : Nat) (bytes : Bytes) : Bytes :=
  let kept := bytes.drop (bytes.length - size)
  List.replicate (size - kept.length) 0 ++ kept

theorem length_rightAligned (size : Nat) (bytes : Bytes) :
    (rightAligned size bytes).length = size := by
  simp only [rightAligned, List.length_append, List.length_replicate, List.length_drop]
  omega

def bytesToAddress (bytes : Bytes) : Address :=
  ⟨rightAligned 20 bytes, length_rightAligned 20 bytes⟩

def hexToAddress (text : String) : Address :=
  bytesToAddress (fromHex (Bytes.utf8 text))

def bytesToHash (bytes : Bytes) : Hash :=
  ⟨rightAligned 32 bytes, length_rightAligned 32 bytes⟩

def hexToHash (text : String) : Hash :=
  bytesToHash (fromHex (Bytes.utf8 text))

def zeroAddress : Address :=
  ⟨List.replicate 20 0, by decide⟩

def zeroHash : Hash :=
  ⟨List.replicate 32 0, by decide⟩

def hashHex (hash : Hash) : String :=
  "0x" ++ Bytes.hexEncode hash.bytes

-- An address is written with the checksum of its lower-case digits: a letter is
-- raised where the digest of these digits has a nibble above seven.
def checksumChars (digest : Bytes) (index : Nat) : List Char → List Char
  | [] => []
  | c :: rest =>
    let byte := digest.getD (index / 2) 0
    let nibble := if index % 2 = 0 then byte / 16 else byte % 16
    (if '9' < c ∧ 7 < nibble then c.toUpper else c) :: checksumChars digest (index + 1) rest

def addressHex (keccak256 : Bytes → Hash) (address : Address) : String :=
  let digits := Bytes.hexEncode address.bytes
  "0x" ++ String.ofList (checksumChars (keccak256 (Bytes.utf8 digits)).bytes 0 digits.toList)

def addressToDelegation (address : Address) : Bytes :=
  [0xef, 0x01, 0x00] ++ address.bytes

def parseDelegation (code : Bytes) : Option Address :=
  if code.length = 23 ∧ List.isPrefixOf [0xef, 0x01, 0x00] code then
    some (bytesToAddress (code.drop 3))
  else none

end Ethereum

namespace Secp256k1

def order : Nat :=
  0xfffffffffffffffffffffffffffffffebaaedce6af48a03bbfd25e8cd0364141

-- Both halves of a signature lie between one and the group order, and the
-- second one in the lower half of that range.
def validateSignatureValues (v : UInt8) (r s : Nat) : Bool :=
  if r < 1 || s < 1 then false
  else if order / 2 < s then false
  else r < order && s < order && (v == 0 || v == 1)

end Secp256k1

end PosChain
