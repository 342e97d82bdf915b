import PosChain.Base.Text
import PosChain.Ethereum.Common

namespace PosChain.Ethereum

open Bytes

-- A digit of an address is one byte in either case, and it is read as its nibble.
section Digits

def raised (raise : Bool) (c : Char) : Char :=
  if raise then c.toUpper else c

theorem hexDigit_raised (nibble : UInt8) (h : nibble.toNat < 16) (raise : Bool) :
    ∃ code, String.utf8EncodeChar (raised raise (hexChar nibble)) = [code] ∧
      hexDigit code = some nibble := by
  obtain ⟨n, hn⟩ : ∃ n, nibble.toNat = n := ⟨_, rfl⟩
  obtain rfl : nibble = UInt8.ofNat n := by rw [← hn, UInt8.ofNat_toNat]
  rw [hn] at h
  interval_cases n <;> cases raise <;> exact ⟨_, rfl, by decide⟩

theorem checksumChars_cons (digest : Bytes) (index : Nat) (c : Char) (rest : List Char) :
    ∃ raise, checksumChars digest index (c :: rest) =
      raised raise c :: checksumChars digest (index + 1) rest := by
  rw [checksumChars]
  obtain ⟨nibble, hnibble⟩ : ∃ nibble, nibble = if index % 2 = 0 then digest.getD (index / 2) 0 / 16
    else digest.getD (index / 2) 0 % 16 := ⟨_, rfl⟩
  simp only [← hnibble]
  by_cases h : '9' < c ∧ 7 < nibble
  · exact ⟨true, by simp [raised, h]⟩
  · exact ⟨false, by simp [raised, h]⟩

theorem checksumChars_byte (digest : Bytes) (index : Nat) (byte : UInt8) (bytes : Bytes) : ∃ first second,
    checksumChars digest index ((byte :: bytes).flatMap fun byte => [hexChar (byte / 16), hexChar (byte % 16)]) =
      raised first (hexChar (byte / 16)) :: raised second (hexChar (byte % 16)) ::
        checksumChars digest (index + 1 + 1)
          (bytes.flatMap fun byte => [hexChar (byte / 16), hexChar (byte % 16)]) := by
  obtain ⟨first, hfirst⟩ := checksumChars_cons digest index (hexChar (byte / 16)) _
  obtain ⟨second, hsecond⟩ := checksumChars_cons digest (index + 1) (hexChar (byte % 16)) _
  exact ⟨first, second, by rw [List.flatMap_cons, List.cons_append, hfirst, List.cons_append, hsecond]; rfl⟩

theorem nibbles_lt (byte : UInt8) : (byte / 16).toNat < 16 ∧ (byte % 16).toNat < 16 := by
  have h := byte.toNat_lt
  simp only [UInt8.toNat_div, UInt8.toNat_mod, UInt8.reduceToNat]
  omega

theorem byte_of_nibbles (byte : UInt8) : 16 * (byte / 16) + byte % 16 = byte := by
  apply UInt8.toNat_inj.mp
  have h := byte.toNat_lt
  simp only [UInt8.toNat_add, UInt8.toNat_mul, UInt8.toNat_div, UInt8.toNat_mod, UInt8.reduceToNat]
  omega

-- What is read back from the digits, by induction on the bytes: every byte has
-- written two digits.
theorem decode_checksumChars (digest bytes : Bytes) (index : Nat) :
    let text := (checksumChars digest index
      (bytes.flatMap fun byte => [hexChar (byte / 16), hexChar (byte % 16)])).flatMap String.utf8EncodeChar
    text.length = 2 * bytes.length ∧ text.all isHex = true ∧ hexDecodePrefix text = bytes := by
  induction bytes generalizing index with
  | nil => exact ⟨rfl, rfl, rfl⟩
  | cons byte bytes ih =>
    obtain ⟨hlength, hall, hdecode⟩ := ih (index + 1 + 1)
    obtain ⟨hhigh, hlow⟩ := nibbles_lt byte
    obtain ⟨first, second, hpair⟩ := checksumChars_byte digest index byte bytes
    obtain ⟨high, henc, hread⟩ := hexDigit_raised (byte / 16) hhigh first
    obtain ⟨low, henc', hread'⟩ := hexDigit_raised (byte % 16) hlow second
    rw [hpair, List.flatMap_cons, List.flatMap_cons, henc, henc']
    simp only [List.cons_append, List.nil_append, List.length_cons, List.all_cons]
    refine ⟨by omega, ?_, ?_⟩
    · simp [isHex, hread, hread', hall]
    · rw [hexDecodePrefix, hread, hread']
      simp only [hdecode, byte_of_nibbles]

end Digits

-- The digits as characters: they are letters or numerals, two for each byte.
section Characters

theorem char_raised (nibble : UInt8) (h : nibble.toNat < 16) (raise : Bool) :
    (raised raise (hexChar nibble)).isAlphanum = true ∧ (raised raise (hexChar nibble)).toNat < 128 ∧
      (raised raise (hexChar nibble)).toLower = hexChar nibble := by
  obtain ⟨n, hn⟩ : ∃ n, nibble.toNat = n := ⟨_, rfl⟩
  obtain rfl : nibble = UInt8.ofNat n := by rw [← hn, UInt8.ofNat_toNat]
  rw [hn] at h
  interval_cases n <;> cases raise <;> decide

theorem checksumChars_alphanum (digest bytes : Bytes) (index : Nat) :
    let chars := checksumChars digest index
      (bytes.flatMap fun byte => [hexChar (byte / 16), hexChar (byte % 16)])
    chars.length = 2 * bytes.length ∧ ∀ c ∈ chars, c.isAlphanum = true := by
  induction bytes generalizing index with
  | nil => exact ⟨rfl, by simp [checksumChars]⟩
  | cons byte bytes ih =>
    obtain ⟨hlength, hall⟩ := ih (index + 1 + 1)
    obtain ⟨hhigh, hlow⟩ := nibbles_lt byte
    obtain ⟨first, second, hpair⟩ := checksumChars_byte digest index byte bytes
    rw [hpair]
    refine ⟨by simp only [List.length_cons, hlength]; omega, ?_⟩
    simp only [List.mem_cons, forall_eq_or_imp]
    exact ⟨(char_raised _ hhigh _).1, (char_raised _ hlow _).1, hall⟩

theorem toList_addressHex (keccak256 : Bytes → Hash) (address : Address) :
    ∃ digits : List Char, (addressHex keccak256 address).toList = '0' :: 'x' :: digits ∧
      digits.length = 40 ∧ ∀ c ∈ digits, c.isAlphanum = true := by
  have h := checksumChars_alphanum (keccak256 (utf8 (hexEncode address.bytes))).bytes address.bytes 0
  obtain ⟨hlength, hall⟩ := h
  rw [address.length_eq] at hlength
  have hhead : ("0x" : String).toList = ['0', 'x'] := by decide
  exact ⟨_, by simp [addressHex, hexEncode, hhead], hlength, hall⟩

end Characters

-- The text of an address is the text of no other one.
section AddressHex

variable (keccak256 : Bytes → Hash) (address : Address)

theorem utf8_addressHex :
    utf8 (addressHex keccak256 address) = 48 :: 120 :: (checksumChars
      (keccak256 (utf8 (hexEncode address.bytes))).bytes 0
      (address.bytes.flatMap fun byte => [hexChar (byte / 16), hexChar (byte % 16)])).flatMap
        String.utf8EncodeChar := by
  have hzero : String.utf8EncodeChar '0' = [48] := by decide
  have hx : String.utf8EncodeChar 'x' = [120] := by decide
  have hhead : ("0x" : String).toList = ['0', 'x'] := by decide
  rw [Text.utf8_eq_flatMap, addressHex]
  simp [hexEncode, hhead, hzero, hx]

theorem strip0x_cons (rest : Bytes) : strip0x (48 :: 120 :: rest) = rest := by
  simp [strip0x, has0xPrefix]

@[simp] theorem isHexAddress_addressHex : isHexAddress (addressHex keccak256 address) = true := by
  have h := decode_checksumChars (keccak256 (utf8 (hexEncode address.bytes))).bytes address.bytes 0
  obtain ⟨hlength, hall, -⟩ := h
  rw [isHexAddress, isHexOfLength, utf8_addressHex, strip0x_cons, hall, hlength, address.length_eq]
  rfl

@[simp] theorem hexToAddress_addressHex : hexToAddress (addressHex keccak256 address) = address := by
  have h := decode_checksumChars (keccak256 (utf8 (hexEncode address.bytes))).bytes address.bytes 0
  obtain ⟨hlength, -, hdecode⟩ := h
  apply Address.eq_of_bytes
  rw [hexToAddress, fromHex, utf8_addressHex, strip0x_cons, if_neg (by rw [hlength]; omega), hdecode]
  simp [bytesToAddress, rightAligned, address.length_eq]

end AddressHex

section LowerCase

theorem lowerRune_raised (unicode : Unicode) (nibble : UInt8) (h : nibble.toNat < 16) (raise : Bool) :
    unicode.lowerRune (raised raise (hexChar nibble)) = hexChar nibble := by
  obtain ⟨-, hascii, hlower⟩ := char_raised nibble h raise
  rw [Unicode.lowerRune, if_pos hascii, hlower]

theorem lower_checksumChars (unicode : Unicode) (digest bytes : Bytes) (index : Nat) :
    (checksumChars digest index
      (bytes.flatMap fun byte => [hexChar (byte / 16), hexChar (byte % 16)])).map unicode.lowerRune =
      bytes.flatMap fun byte => [hexChar (byte / 16), hexChar (byte % 16)] := by
  induction bytes generalizing index with
  | nil => rfl
  | cons byte bytes ih =>
    obtain ⟨hhigh, hlow⟩ := nibbles_lt byte
    obtain ⟨first, second, hpair⟩ := checksumChars_byte digest index byte bytes
    rw [hpair, List.map_cons, List.map_cons, lowerRune_raised unicode _ hhigh,
      lowerRune_raised unicode _ hlow, ih]
    rfl

theorem toLower_addressHex (unicode : Unicode) (keccak256 : Bytes → Hash) (address : Address) :
    Text.toLower unicode (addressHex keccak256 address) = "0x" ++ hexEncode address.bytes := by
  have hhead : ("0x" : String).toList.map unicode.lowerRune = "0x".toList := by
    simp [Unicode.lowerRune]
  have hdigits : (hexEncode address.bytes).toList =
      address.bytes.flatMap fun byte => [hexChar (byte / 16), hexChar (byte % 16)] := by
    rw [hexEncode, String.toList_ofList]
  rw [← String.toList_inj, Text.toLower, Text.runes_eq_toList, addressHex]
  simp only [String.toList_ofList, String.toList_append, List.map_append, hhead, hdigits,
    lower_checksumChars]

-- Without a digest no letter is raised, so plain digits are read back as those
-- of an address are.
theorem checksumChars_empty (index : Nat) (chars : List Char) : checksumChars [] index chars = chars := by
  induction chars generalizing index with
  | nil => rfl
  | cons c chars ih => simp [checksumChars, ih]

theorem length_hexDecodePrefix (digits : Bytes) (hall : ∀ digit ∈ digits, isHex digit = true) :
    (hexDecodePrefix digits).length = digits.length / 2 := by
  induction digits using List.twoStepInduction with
  | nil => rfl
  | singleton => simp [hexDecodePrefix]
  | cons_cons high low digits ih =>
    obtain ⟨h, hhigh⟩ := Option.isSome_iff_exists.mp (hall high (by simp))
    obtain ⟨l, hlow⟩ := Option.isSome_iff_exists.mp (hall low (by simp))
    have hrest := ih fun digit hdigit => hall digit (by simp [hdigit])
    simp only [hexDecodePrefix, hhigh, hlow, List.length_cons, hrest]
    omega

theorem hexDecodePrefix_hexEncode (bytes : Bytes) : hexDecodePrefix (utf8 (hexEncode bytes)) = bytes := by
  have h := (decode_checksumChars [] bytes 0).2.2
  rw [checksumChars_empty] at h
  rw [Text.utf8_eq_flatMap, hexEncode, String.toList_ofList, h]

theorem hexEncode_injective : Function.Injective hexEncode := by
  intro first second h
  rw [← hexDecodePrefix_hexEncode first, h, hexDecodePrefix_hexEncode]

theorem hexEncode_alphanum (bytes : Bytes) : ∀ c ∈ (hexEncode bytes).toList, c.isAlphanum = true := by
  have h := (checksumChars_alphanum [] bytes 0).2
  rw [checksumChars_empty] at h
  rw [hexEncode, String.toList_ofList]
  exact h

end LowerCase

theorem isHex_or_of_isHexAddress {text : String} (h : isHexAddress text = true) :
    ∀ byte ∈ utf8 text, isHex byte = true ∨ byte = 120 ∨ byte = 88 := by
  rw [isHexAddress, isHexOfLength, Bool.and_eq_true, List.all_eq_true] at h
  intro byte hbyte
  by_cases hpre : has0xPrefix (utf8 text) = true
  · rw [strip0x, if_pos hpre] at h
    match htext : utf8 text, hpre, h, hbyte with
    | [], _, _, hbyte => cases hbyte
    | [_], hpre, _, _ => simp [has0xPrefix] at hpre
    | first :: second :: rest, hpre, h, hbyte =>
      simp only [has0xPrefix, Bool.and_eq_true, Bool.or_eq_true, beq_iff_eq] at hpre
      obtain ⟨rfl, hsecond⟩ := hpre
      rcases List.mem_cons.mp hbyte with rfl | hbyte
      · exact .inl (by decide)
      rcases List.mem_cons.mp hbyte with rfl | hbyte
      · exact .inr hsecond
      · exact .inl (h.2 byte hbyte)
  · rw [strip0x, if_neg hpre] at h
    exact .inl (h.2 byte hbyte)

end PosChain.Ethereum
