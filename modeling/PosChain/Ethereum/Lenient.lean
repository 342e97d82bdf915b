import PosChain.Ethereum.Common.Theorems

namespace PosChain.Ethereum

open Bytes

-- The decoder of addresses does not trim. What it makes of an address with
-- white space around it depends on where the white space stands and on how
-- many bytes it has.
section Decoding

theorem hexDecodePrefix_append (digits rest : Bytes) (hlength : digits.length % 2 = 0)
    (hall : ∀ digit ∈ digits, isHex digit = true) :
    hexDecodePrefix (digits ++ rest) = hexDecodePrefix digits ++ hexDecodePrefix rest := by
  match digits with
  | [] => rfl
  | [_] => simp at hlength
  | high :: low :: digits =>
    obtain ⟨h, hhigh⟩ := Option.isSome_iff_exists.mp (hall high (by simp))
    obtain ⟨l, hlow⟩ := Option.isSome_iff_exists.mp (hall low (by simp))
    have ih := hexDecodePrefix_append digits rest (by simp only [List.length_cons] at hlength; omega)
      fun digit hdigit => hall digit (by simp [hdigit])
    simp only [List.cons_append, hexDecodePrefix, hhigh, hlow, ih]

theorem hexDecodePrefix_of_not_hex {first : UInt8} (h : isHex first = false) (rest : Bytes) :
    hexDecodePrefix (first :: rest) = [] := by
  have hnone : hexDigit first = none := by simpa [isHex] using h
  cases rest with
  | nil => rfl
  | cons second rest => simp [hexDecodePrefix, hnone]

theorem hexDecodePrefix_of_second_not_hex {second : UInt8} (h : isHex second = false) (first : UInt8)
    (rest : Bytes) : hexDecodePrefix (first :: second :: rest) = [] := by
  have hnone : hexDigit second = none := by simpa [isHex] using h
  rw [hexDecodePrefix, hnone]
  cases hexDigit first <;> rfl

def digitsValue (digits : Bytes) : Nat :=
  digits.foldl (fun value digit => 16 * value + ((hexDigit digit).getD 0).toNat) 0

theorem hexDigit_lt {code nibble : UInt8} (h : hexDigit code = some nibble) : nibble.toNat < 16 := by
  unfold hexDigit at h
  split_ifs at h with h1 h2 h3
  all_goals
    simp only [Option.some.injEq, UInt8.le_iff_toNat_le, UInt8.reduceToNat] at h h1
    subst h
  · rw [UInt8.toNat_sub_of_le _ _ (by simp [UInt8.le_iff_toNat_le]; omega)]
    simp only [UInt8.reduceToNat]
    omega
  · simp only [UInt8.le_iff_toNat_le, UInt8.reduceToNat] at h2
    rw [UInt8.toNat_sub_of_le _ _ (by simp [UInt8.le_iff_toNat_le]; omega)]
    simp only [UInt8.reduceToNat]
    omega
  · simp only [UInt8.le_iff_toNat_le, UInt8.reduceToNat] at h3
    rw [UInt8.toNat_sub_of_le _ _ (by simp [UInt8.le_iff_toNat_le]; omega)]
    simp only [UInt8.reduceToNat]
    omega

theorem foldl_hexDecodePrefix (digits : Bytes) (hlength : digits.length % 2 = 0)
    (hall : ∀ digit ∈ digits, isHex digit = true) (start : Nat) :
    (hexDecodePrefix digits).foldl (fun value byte => 256 * value + byte.toNat) start =
      digits.foldl (fun value digit => 16 * value + ((hexDigit digit).getD 0).toNat) start := by
  match digits with
  | [] => rfl
  | [_] => simp at hlength
  | high :: low :: digits =>
    obtain ⟨h, hhigh⟩ := Option.isSome_iff_exists.mp (hall high (by simp))
    obtain ⟨l, hlow⟩ := Option.isSome_iff_exists.mp (hall low (by simp))
    have ih := foldl_hexDecodePrefix digits (by simp only [List.length_cons] at hlength; omega)
      fun digit hdigit => hall digit (by simp [hdigit])
    have hbyte : (16 * h + l).toNat = 16 * h.toNat + l.toNat := by
      have hh := hexDigit_lt hhigh
      have hl := hexDigit_lt hlow
      simp only [UInt8.toNat_add, UInt8.toNat_mul, UInt8.reduceToNat]
      omega
    simp only [hexDecodePrefix, hhigh, hlow, List.foldl_cons, Option.getD_some, ih, hbyte]
    congr 1
    ring

theorem toNat_hexDecodePrefix (digits : Bytes) (hlength : digits.length % 2 = 0)
    (hall : ∀ digit ∈ digits, isHex digit = true) :
    toNat (hexDecodePrefix digits) = digitsValue digits :=
  foldl_hexDecodePrefix digits hlength hall 0

theorem digitsValue_zero_cons (digits : Bytes) : digitsValue (48 :: digits) = digitsValue digits :=
  rfl

theorem digitsValue_concat (digits : Bytes) (digit : UInt8) :
    digitsValue (digits ++ [digit]) = 16 * digitsValue digits + ((hexDigit digit).getD 0).toNat := by
  simp [digitsValue, List.foldl_append]

end Decoding

section Blank

-- No byte string that begins with white space begins with a digit.
def Blank (bytes : Bytes) : Prop :=
  ∀ first ∈ bytes.head?, isHex first = false

theorem blank_of_isSpace {characters : List Char} (h : ∀ c ∈ characters, Text.isSpace c = true) :
    Blank (characters.flatMap String.utf8EncodeChar) := by
  cases characters with
  | nil => simp [Blank]
  | cons c rest =>
    have hc := h c (by simp)
    rcases Text.utf8EncodeChar_cases c with ⟨hascii, he⟩ | ⟨byte, bytes, he, hbyte⟩
    · rw [List.flatMap_cons, he]
      intro first hfirst
      obtain rfl : UInt8.ofNat c.toNat = first := by simpa using hfirst
      have hcode : (9 ≤ c.toNat ∧ c.toNat ≤ 13) ∨ c.toNat = 32 := by
        simp only [Text.isSpace, Bool.or_eq_true, Bool.and_eq_true, decide_eq_true_eq, beq_iff_eq] at hc
        omega
      obtain ⟨n, hn⟩ : ∃ n, c.toNat = n := ⟨_, rfl⟩
      rw [hn] at hcode ⊢
      rcases hcode with ⟨hlow, hhigh⟩ | rfl
      · interval_cases n <;> decide
      · decide
    · rw [List.flatMap_cons, he]
      intro first hfirst
      obtain rfl : byte = first := by simpa using hfirst
      have hlarge : 128 ≤ byte.toNat := by
        rw [UInt8.lt_iff_toNat_lt] at hbyte
        exact Nat.not_lt.mp hbyte
      simp only [isHex, hexDigit, UInt8.le_iff_toNat_le, UInt8.reduceToNat]
      split_ifs <;> first | omega | rfl

def startsBlank (text : String) : Bool :=
  (Text.runes text).head?.any Text.isSpace

theorem utf8_trimSpace (text : String) :
    ∃ lead trail : Bytes, utf8 text = lead ++ (utf8 (Text.trimSpace text) ++ trail) ∧ Blank lead ∧
      Blank trail ∧ (lead = [] ↔ startsBlank text = false) := by
  obtain ⟨characters, hcharacters⟩ : ∃ characters, text.toList = characters := ⟨_, rfl⟩
  have hback : (characters.dropWhile Text.isSpace).rdropWhile Text.isSpace ++
      (characters.dropWhile Text.isSpace).rtakeWhile Text.isSpace =
        characters.dropWhile Text.isSpace := by
    rw [List.rdropWhile, List.rtakeWhile, ← List.reverse_append, List.takeWhile_append_dropWhile,
      List.reverse_reverse]
  refine ⟨(characters.takeWhile Text.isSpace).flatMap String.utf8EncodeChar,
    ((characters.dropWhile Text.isSpace).rtakeWhile Text.isSpace).flatMap String.utf8EncodeChar,
    ?_, ?_, ?_, ?_⟩
  · rw [Text.trimSpace, Text.runes_eq_toList, Text.utf8_ofList, Text.utf8_eq_flatMap, hcharacters,
      ← List.flatMap_append, hback, ← List.flatMap_append, List.takeWhile_append_dropWhile]
  · exact blank_of_isSpace fun c hc => List.mem_takeWhile_imp hc
  · refine blank_of_isSpace fun c hc => ?_
    exact List.mem_takeWhile_imp (List.mem_reverse.mp hc)
  · rw [startsBlank, Text.runes_eq_toList, hcharacters]
    cases characters with
    | nil => simp
    | cons c rest =>
      have hne : String.utf8EncodeChar c ≠ [] := by
        intro hnil
        have hsize := String.length_utf8EncodeChar c
        rw [hnil] at hsize
        exact absurd hsize (Nat.ne_of_lt (Char.utf8Size_pos c))
      cases hc : Text.isSpace c <;> simp [hc, hne]

end Blank

section Addresses

theorem strip0x_append {text : Bytes} (h : isHexOfLength text 20 = true) (rest : Bytes) :
    strip0x (text ++ rest) = strip0x text ++ rest := by
  match text, h with
  | [], h => cases h
  | [_], h => simp [isHexOfLength, strip0x, has0xPrefix] at h
  | zero :: x :: text, _ =>
    cases hpre : has0xPrefix (zero :: x :: text) with
    | true =>
      have hlonger : has0xPrefix (zero :: x :: text ++ rest) = true := hpre
      rw [strip0x, strip0x, if_pos hlonger, if_pos hpre]
      rfl
    | false =>
      have hlonger : ¬ has0xPrefix (zero :: x :: text ++ rest) = true := by
        rw [show has0xPrefix (zero :: x :: text ++ rest) = false from hpre]
        exact Bool.false_ne_true
      rw [strip0x, strip0x, if_neg hlonger, if_neg (by simp [hpre])]

theorem isHexOfLength_digits {text : Bytes} (h : isHexOfLength text 20 = true) :
    (strip0x text).length = 40 ∧ ∀ digit ∈ strip0x text, isHex digit = true := by
  rw [isHexOfLength, Bool.and_eq_true, beq_iff_eq, List.all_eq_true] at h
  exact h

theorem fromHex_of_blank {lead : Bytes} (hblank : Blank lead) (hne : lead ≠ []) (rest : Bytes) :
    fromHex (lead ++ rest) = [] := by
  cases lead with
  | nil => exact absurd rfl hne
  | cons first lead =>
    have hfirst : isHex first = false := hblank first (by simp)
    have hpre : has0xPrefix (first :: (lead ++ rest)) = false := by
      have hzero : first ≠ 48 := by
        rintro rfl
        revert hfirst
        decide
      cases lead ++ rest <;> simp [has0xPrefix, hzero]
    have hstrip : strip0x (first :: lead ++ rest) = first :: (lead ++ rest) := by
      rw [strip0x, List.cons_append, hpre]
      rfl
    rw [fromHex, hstrip]
    split
    · exact hexDecodePrefix_of_second_not_hex hfirst 48 _
    · exact hexDecodePrefix_of_not_hex hfirst _

theorem fromHex_of_digits {text : Bytes} (h : isHexOfLength text 20 = true) :
    fromHex text = hexDecodePrefix (strip0x text) := by
  rw [fromHex, if_neg]
  rw [(isHexOfLength_digits h).1]
  decide

theorem fromHex_append_even {text rest : Bytes} (h : isHexOfLength text 20 = true) (hblank : Blank rest)
    (heven : rest.length % 2 = 0) : fromHex (text ++ rest) = fromHex text := by
  obtain ⟨hlength, hall⟩ := isHexOfLength_digits h
  have hrest : hexDecodePrefix rest = [] := by
    cases rest with
    | nil => rfl
    | cons first rest => exact hexDecodePrefix_of_not_hex (hblank first (by simp)) rest
  have hnotOdd : ¬ (strip0x text ++ rest).length % 2 = 1 := by
    rw [List.length_append, hlength]
    omega
  rw [fromHex_of_digits h, fromHex, strip0x_append h, if_neg hnotOdd,
    hexDecodePrefix_append _ _ (by rw [hlength]) hall, hrest, List.append_nil]

theorem fromHex_append_odd {text rest : Bytes} (h : isHexOfLength text 20 = true) (hblank : Blank rest)
    (hodd : rest.length % 2 = 1) :
    (fromHex (text ++ rest)).length = 20 ∧ 16 * toNat (fromHex (text ++ rest)) ≤ toNat (fromHex text) := by
  obtain ⟨hlength, hall⟩ := isHexOfLength_digits h
  rw [fromHex_of_digits h, fromHex, strip0x_append h, if_pos (by rw [List.length_append, hlength]; omega)]
  obtain ⟨digits, last, hdigits⟩ : ∃ digits last, strip0x text = digits ++ [last] := by
    rcases List.eq_nil_or_concat' (strip0x text) with hnil | hconcat
    · simp [hnil] at hlength
    · exact hconcat
  rw [hdigits] at hlength hall ⊢
  have hcount : digits.length = 39 := by simpa using hlength
  have hzeros : ∀ digit ∈ 48 :: digits, isHex digit = true := by
    intro digit hdigit
    rcases List.mem_cons.mp hdigit with rfl | hdigit
    · decide
    · exact hall digit (by simp [hdigit])
  have hrest : hexDecodePrefix (last :: rest) = [] := by
    cases rest with
    | nil => simp at hodd
    | cons first rest => exact hexDecodePrefix_of_second_not_hex (hblank first (by simp)) last rest
  have hread : hexDecodePrefix (48 :: (digits ++ [last] ++ rest)) = hexDecodePrefix (48 :: digits) := by
    rw [List.append_assoc, List.singleton_append, ← List.cons_append,
      hexDecodePrefix_append _ _ (by simp [hcount]) hzeros, hrest, List.append_nil]
  rw [hread]
  refine ⟨by rw [length_hexDecodePrefix _ hzeros]; simp [hcount], ?_⟩
  rw [toNat_hexDecodePrefix _ (by simp [hcount]) hzeros,
    toNat_hexDecodePrefix (digits ++ [last]) (by simp [hcount]) hall, digitsValue_zero_cons,
    digitsValue_concat]
  omega

theorem length_fromHex {text : Bytes} (h : isHexOfLength text 20 = true) : (fromHex text).length = 20 := by
  obtain ⟨hlength, hall⟩ := isHexOfLength_digits h
  rw [fromHex_of_digits h, length_hexDecodePrefix _ hall, hlength]

theorem bytes_bytesToAddress {bytes : Bytes} (h : bytes.length = 20) : (bytesToAddress bytes).bytes = bytes := by
  simp [bytesToAddress, rightAligned, h]

theorem toNat_eq_of_length {left right : Bytes} (hlength : left.length = right.length)
    (h : toNat left = toNat right) : left = right := by
  induction left using List.reverseRecOn generalizing right with
  | nil => exact (List.eq_nil_of_length_eq_zero hlength.symm).symm
  | append_singleton left byte ih =>
    rcases List.eq_nil_or_concat' right with rfl | ⟨right, byte', rfl⟩
    · simp at hlength
    · rw [toNat_append_singleton, toNat_append_singleton] at h
      have hbyte := byte.toNat_lt
      have hbyte' := byte'.toNat_lt
      obtain rfl : byte = byte' := UInt8.toNat_inj.mp (by omega)
      rw [ih (by simpa using hlength) (by omega)]

theorem Address.eq_of_toNat {left right : Address} (h : toNat left.bytes = toNat right.bytes) : left = right :=
  Address.eq_of_bytes (toNat_eq_of_length (by rw [left.length_eq, right.length_eq]) h)

theorem toNat_zeroAddress : toNat zeroAddress.bytes = 0 := by
  decide

end Addresses

-- White space does no harm behind an address when it has an even number of bytes.
section Aligned

def Aligned (text : String) : Prop :=
  startsBlank text = false ∧ (Text.len text - Text.len (Text.trimSpace text)) % 2 = 0

instance (text : String) : Decidable (Aligned text) :=
  inferInstanceAs (Decidable (_ ∧ _))

variable {text : String}

section

variable (h : isHexAddress (Text.trimSpace text) = true)

include h

theorem hexToAddress_of_aligned (ha : Aligned text) :
    hexToAddress text = hexToAddress (Text.trimSpace text) := by
  obtain ⟨lead, trail, hutf8, -, htrail, hlead⟩ := utf8_trimSpace text
  obtain rfl := hlead.mpr ha.1
  have heven : trail.length % 2 = 0 := by
    have hlen := ha.2
    rw [← Text.length_utf8, ← Text.length_utf8, hutf8, List.nil_append, List.length_append] at hlen
    omega
  rw [hexToAddress, hexToAddress, hutf8, List.nil_append, fromHex_append_even h htrail heven]

-- Otherwise what is read is at most a sixteenth of the address.
theorem hexToAddress_of_not_aligned (ha : ¬ Aligned text) :
    16 * toNat (hexToAddress text).bytes ≤ toNat (hexToAddress (Text.trimSpace text)).bytes := by
  obtain ⟨lead, trail, hutf8, hblank, htrail, hlead⟩ := utf8_trimSpace text
  have htrimmed : (hexToAddress (Text.trimSpace text)).bytes = fromHex (utf8 (Text.trimSpace text)) :=
    bytes_bytesToAddress (length_fromHex h)
  by_cases hempty : lead = []
  · subst hempty
    have hodd : trail.length % 2 = 1 := by
      by_contra heven
      refine ha ⟨hlead.mp rfl, ?_⟩
      rw [← Text.length_utf8, ← Text.length_utf8, hutf8, List.nil_append, List.length_append]
      omega
    obtain ⟨hlength, hle⟩ := fromHex_append_odd h htrail hodd
    rw [htrimmed, hexToAddress, hutf8, List.nil_append, bytes_bytesToAddress hlength]
    exact hle
  · have hzero : hexToAddress text = zeroAddress := by
      rw [hexToAddress, hutf8, fromHex_of_blank hblank hempty]
      rfl
    rw [hzero, toNat_zeroAddress]
    exact Nat.zero_le _

theorem hexToAddress_le :
    toNat (hexToAddress text).bytes ≤ toNat (hexToAddress (Text.trimSpace text)).bytes := by
  by_cases ha : Aligned text
  · rw [hexToAddress_of_aligned h ha]
  · have hle := hexToAddress_of_not_aligned h ha
    omega

theorem hexToAddress_eq_trimmed_iff :
    hexToAddress text = hexToAddress (Text.trimSpace text) ↔
      Aligned text ∨ hexToAddress (Text.trimSpace text) = zeroAddress := by
  constructor
  · intro heq
    by_contra hno
    rw [not_or] at hno
    have hle := hexToAddress_of_not_aligned h hno.1
    rw [heq] at hle
    refine hno.2 (Address.eq_of_toNat ?_)
    rw [toNat_zeroAddress]
    omega
  · rintro (ha | hzero)
    · exact hexToAddress_of_aligned h ha
    · have hle := hexToAddress_le h
      rw [hzero, toNat_zeroAddress] at hle
      rw [hzero]
      refine Address.eq_of_toNat ?_
      rw [toNat_zeroAddress]
      omega

end

end Aligned

end PosChain.Ethereum
