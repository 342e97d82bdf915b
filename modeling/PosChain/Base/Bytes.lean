import Mathlib

namespace PosChain

abbrev Bytes := List UInt8

namespace Bytes

def utf8 (text : String) : Bytes :=
  text.toUTF8.data.toList

theorem fromUTF8?_utf8 (text : String) :
    String.fromUTF8? ⟨(utf8 text).toArray⟩ = some text := by
  simp only [utf8, String.fromUTF8?, Array.toArray_toList, String.toUTF8_eq_toByteArray,
    Option.dite_none_right_eq_some, Option.some.injEq]
  exact ⟨text.isValidUTF8, rfl⟩

def toText (bytes : Bytes) : String :=
  (String.fromUTF8? ⟨bytes.toArray⟩).getD ""

@[simp] theorem toText_utf8 (text : String) : toText (utf8 text) = text := by
  rw [toText, fromUTF8?_utf8]
  rfl

theorem utf8_injective : Function.Injective utf8 := by
  intro left right h
  rw [← toText_utf8 left, h, toText_utf8]

def toNat (bytes : Bytes) : Nat :=
  bytes.foldl (fun value byte => 256 * value + byte.toNat) 0

-- The shortest big-endian byte string of a number; zero is the empty string.
def ofNat (value : Nat) : Bytes :=
  (Nat.digits 256 value).reverse.map UInt8.ofNat

def fixed : Nat → Nat → Bytes
  | 0, _ => []
  | width + 1, value => fixed width (value / 256) ++ [UInt8.ofNat value]

def putUint64 (value : UInt64) : Bytes :=
  fixed 8 value.toNat

def uint64 (bytes : Bytes) : UInt64 :=
  UInt64.ofNat (toNat bytes)

theorem toNat_append_singleton (bytes : Bytes) (byte : UInt8) :
    toNat (bytes ++ [byte]) = 256 * toNat bytes + byte.toNat := by
  simp [toNat, List.foldl_append]

theorem toNat_map_reverse (digits : List Nat) (hd : ∀ d ∈ digits, d < 256) :
    toNat (digits.reverse.map UInt8.ofNat) = Nat.ofDigits 256 digits := by
  induction digits with
  | nil => rfl
  | cons digit rest ih =>
    have hdigit : (UInt8.ofNat digit).toNat = digit := by
      rw [UInt8.toNat_ofNat']
      exact Nat.mod_eq_of_lt (hd digit (by simp))
    rw [List.reverse_cons, List.map_append, List.map_singleton, toNat_append_singleton,
      ih (fun d hm => hd d (List.mem_cons_of_mem _ hm)), hdigit, Nat.ofDigits_cons]
    omega

@[simp] theorem toNat_ofNat (value : Nat) : toNat (ofNat value) = value := by
  unfold ofNat
  rw [toNat_map_reverse _ (fun d hd => Nat.digits_lt_base (by omega) hd), Nat.ofDigits_digits]

@[simp] theorem toNat_nil : toNat [] = 0 := rfl

-- A stand-in for a digest: the bytes as digits, wrapped to thirty-two bytes.
def sampleDigest (bytes : Bytes) : Bytes :=
  fixed 32 (bytes.foldl (fun value byte => value * 257 + byte.toNat + 1) 1)

@[simp] theorem length_fixed (width value : Nat) : (fixed width value).length = width := by
  induction width generalizing value with
  | zero => rfl
  | succ width ih => simp [fixed, ih]

theorem toNat_fixed (width value : Nat) : toNat (fixed width value) = value % 256 ^ width := by
  induction width generalizing value with
  | zero => simp [fixed, Nat.mod_one]
  | succ width ih =>
    rw [fixed, toNat_append_singleton, ih, UInt8.toNat_ofNat', Nat.pow_succ' (m := 256), Nat.mod_mul]
    omega

@[simp] theorem length_putUint64 (value : UInt64) : (putUint64 value).length = 8 :=
  length_fixed 8 value.toNat

@[simp] theorem uint64_putUint64 (value : UInt64) : uint64 (putUint64 value) = value := by
  have hv : value.toNat % 256 ^ 8 = value.toNat := Nat.mod_eq_of_lt value.toNat_lt
  rw [uint64, putUint64, toNat_fixed, hv, UInt64.ofNat_toNat]

def hexDigit (code : UInt8) : Option UInt8 :=
  if 48 ≤ code ∧ code ≤ 57 then some (code - 48)
  else if 97 ≤ code ∧ code ≤ 102 then some (code - 87)
  else if 65 ≤ code ∧ code ≤ 70 then some (code - 55)
  else none

def isHex (code : UInt8) : Bool :=
  (hexDigit code).isSome

-- The bytes decoded before the first pair that is not hexadecimal; a last
-- digit without a partner is dropped.
def hexDecodePrefix : Bytes → Bytes
  | high :: low :: rest =>
    match hexDigit high, hexDigit low with
    | some h, some l => (16 * h + l) :: hexDecodePrefix rest
    | _, _ => []
  | _ => []

def hexDecodable (text : Bytes) : Bool :=
  text.length % 2 == 0 && text.all isHex

def hexChar (nibble : UInt8) : Char :=
  if nibble < 10 then Char.ofNat (48 + nibble.toNat) else Char.ofNat (87 + nibble.toNat)

def hexEncode (bytes : Bytes) : String :=
  String.ofList (bytes.flatMap fun byte => [hexChar (byte / 16), hexChar (byte % 16)])

-- The standard base64 alphabet. Decoding skips line breaks, wants the padding
-- of the last group and ignores its unused bits.
def base64Digit (code : UInt8) : Option Nat :=
  let n := code.toNat
  if 65 ≤ n ∧ n ≤ 90 then some (n - 65)
  else if 97 ≤ n ∧ n ≤ 122 then some (n - 71)
  else if 48 ≤ n ∧ n ≤ 57 then some (n + 4)
  else if n = 43 then some 62
  else if n = 47 then some 63
  else none

def base64Groups : Bytes → Option Bytes
  | [] => some []
  | [a, b, 61, 61] => do
    let value := 64 * (← base64Digit a) + (← base64Digit b)
    return [UInt8.ofNat (value / 16)]
  | [a, b, c, 61] => do
    let value := 64 * (64 * (← base64Digit a) + (← base64Digit b)) + (← base64Digit c)
    return fixed 2 (value / 4)
  | a :: b :: c :: d :: rest => do
    let value := 64 * (64 * (64 * (← base64Digit a) + (← base64Digit b)) + (← base64Digit c)) +
      (← base64Digit d)
    return fixed 3 value ++ (← base64Groups rest)
  | _ => none

def base64Decode (text : String) : Option Bytes :=
  base64Groups ((utf8 text).filter fun code => code != 10 && code != 13)

example : base64Decode "aGVsbG8=" = some (utf8 "hello") := by
  decide +kernel

end Bytes

end PosChain
