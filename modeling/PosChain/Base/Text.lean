import PosChain.Base.Bytes

namespace PosChain

-- The Unicode tables of Go's strings and unicode packages. Their values below
-- 128 are the ASCII ones; a table decides the other code points.
structure Unicode where
  isLower : Char → Bool
  isDigit : Char → Bool
  toLower : Char → Char
  fold : Char → Char

namespace Unicode

variable (unicode : Unicode)

def lower (c : Char) : Bool :=
  if c.toNat < 128 then c.isLower else unicode.isLower c

def digit (c : Char) : Bool :=
  if c.toNat < 128 then c.isDigit else unicode.isDigit c

def lowerRune (c : Char) : Char :=
  if c.toNat < 128 then c.toLower else unicode.toLower c

-- One representative of each class of characters that differ in case only.
def foldRune (c : Char) : Char :=
  if c.toNat < 128 then c.toLower else unicode.fold c

-- The tables as far as ASCII texts see them.
def ascii : Unicode :=
  ⟨fun _ => false, fun _ => false, id, id⟩

end Unicode

namespace Text

-- White space by the Unicode property, as unicode.IsSpace has it.
def isSpace (c : Char) : Bool :=
  let code := c.toNat
  (9 ≤ code && code ≤ 13) || code == 32 || code == 0x85 || code == 0xA0 || code == 0x1680 ||
    (0x2000 ≤ code && code ≤ 0x200A) || code == 0x2028 || code == 0x2029 || code == 0x202F ||
    code == 0x205F || code == 0x3000

-- The runes of a string, decoded from its bytes as a range loop does.
def firstRune (bytes : Bytes) : Option Char :=
  ByteArray.utf8DecodeChar? (bytes.take 4).toByteArray 0

def runesFrom : Nat → Bytes → List Char
  | 0, _ => []
  | _, [] => []
  | fuel + 1, byte :: rest =>
    if byte < 128 then Char.ofNat byte.toNat :: runesFrom fuel rest
    else
      match firstRune (byte :: rest) with
      | some c => c :: runesFrom fuel ((byte :: rest).drop c.utf8Size)
      | none => []

def runes (text : String) : List Char :=
  runesFrom (Bytes.utf8 text).length (Bytes.utf8 text)

def trimSpace (text : String) : String :=
  String.ofList (((runes text).dropWhile isSpace).rdropWhile isSpace)

def toLower (unicode : Unicode) (text : String) : String :=
  String.ofList ((runes text).map unicode.lowerRune)

def trimPrefix (text head : String) : String :=
  if (runes head).isPrefixOf (runes text) then String.ofList ((runes text).drop (runes head).length)
  else text

def equalFold (unicode : Unicode) (left right : String) : Bool :=
  (runes left).map unicode.foldRune == (runes right).map unicode.foldRune

def join (parts : List String) (separator : String) : String :=
  String.intercalate separator parts

def contains (text part : String) : Bool :=
  (Bytes.utf8 text).tails.any fun rest => (Bytes.utf8 part).isPrefixOf rest

-- The length of a Go string is its number of bytes.
def len (text : String) : Nat :=
  text.utf8ByteSize

theorem length_utf8 (text : String) : (Bytes.utf8 text).length = len text := by
  simp [len, Bytes.utf8]

theorem utf8_ofList (characters : List Char) :
    Bytes.utf8 (String.ofList characters) = characters.flatMap String.utf8EncodeChar := by
  simp [Bytes.utf8, List.utf8Encode]

theorem utf8_eq_flatMap (text : String) :
    Bytes.utf8 text = text.toList.flatMap String.utf8EncodeChar := by
  rw [← utf8_ofList, String.ofList_toList]

theorem firstRune_encode (c : Char) (rest : Bytes) :
    firstRune (String.utf8EncodeChar c ++ rest) = some c := by
  have hlength : (String.utf8EncodeChar c).length ≤ 4 := by
    rw [String.length_utf8EncodeChar]
    exact Char.utf8Size_le_four c
  rw [firstRune, List.take_append, List.take_of_length_le hlength, List.toByteArray_append]
  exact ByteArray.utf8DecodeChar?_utf8EncodeChar_append

-- A rune is one byte below 128, or begins with a byte from 128 on.
theorem utf8EncodeChar_cases (c : Char) :
    (c.toNat < 128 ∧ String.utf8EncodeChar c = [UInt8.ofNat c.toNat]) ∨
      ∃ byte bytes, String.utf8EncodeChar c = byte :: bytes ∧ ¬ byte < 128 := by
  have hlead (n : Nat) (hl : 128 ≤ n) (hu : n < 256) : ¬ UInt8.ofNat n < 128 := by
    rw [UInt8.lt_iff_toNat_lt, UInt8.toNat_ofNat_of_lt' hu]
    exact Nat.not_lt.mpr hl
  change (c.val.toNat < 128 ∧ _) ∨ _
  simp only [String.utf8EncodeChar]
  split_ifs with h1 h2 h3
  · exact Or.inl ⟨by omega, rfl⟩
  · exact Or.inr ⟨_, _, rfl, hlead _ (by omega) (by omega)⟩
  · exact Or.inr ⟨_, _, rfl, hlead _ (by omega) (by omega)⟩
  · exact Or.inr ⟨_, _, rfl, hlead _ (by omega) (by omega)⟩

theorem runesFrom_encode (characters : List Char) (fuel : Nat) (hf : characters.length ≤ fuel) :
    runesFrom fuel (characters.flatMap String.utf8EncodeChar) = characters := by
  induction characters generalizing fuel with
  | nil => cases fuel <;> rfl
  | cons c characters ih =>
    obtain ⟨fuel, rfl⟩ : ∃ n, fuel = n + 1 := ⟨fuel - 1, by simp at hf; omega⟩
    have ih' := ih fuel (by simpa using hf)
    rw [List.flatMap_cons]
    rcases utf8EncodeChar_cases c with ⟨hc, he⟩ | ⟨byte, bytes, he, hb⟩
    · have hbyte : (UInt8.ofNat c.toNat).toNat = c.toNat :=
        UInt8.toNat_ofNat_of_lt' (lt_trans hc (by decide))
      have hlt : UInt8.ofNat c.toNat < 128 := by
        rw [UInt8.lt_iff_toNat_lt, hbyte]
        exact hc
      simp [he, runesFrom, hlt, hbyte, ih']
    · have hfirst := firstRune_encode c (characters.flatMap String.utf8EncodeChar)
      have hsize := String.length_utf8EncodeChar c
      rw [he, List.cons_append] at hfirst
      rw [he] at hsize
      have hdrop : (byte :: (bytes ++ characters.flatMap String.utf8EncodeChar)).drop c.utf8Size =
          characters.flatMap String.utf8EncodeChar := by
        rw [← hsize, ← List.cons_append, List.drop_left]
      rw [he, List.cons_append, runesFrom, if_neg hb, hfirst]
      simp only [hdrop, ih']

theorem runes_eq_toList (text : String) : runes text = text.toList := by
  rw [runes, utf8_eq_flatMap]
  apply runesFrom_encode
  rw [List.length_flatMap]
  calc text.toList.length = (text.toList.map fun _ => 1).sum := by simp
    _ ≤ _ := List.sum_le_sum fun c _ => by
      rw [String.length_utf8EncodeChar]
      exact Char.utf8Size_pos c

end Text

end PosChain
