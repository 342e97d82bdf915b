import PosChain.Base.BigInt.Theorems
import PosChain.Base.Json

namespace PosChain.Json

-- A number literal is one lexical word that no other value is written as.
def NumberLiteral (literal : List Char) : Prop :=
  isNumber literal = true ∧ literal.all isWordChar = true

mutual
def Proper : Value → Prop
  | .num literal => NumberLiteral literal.toList
  | .arr items => ProperItems items
  | .obj members => ProperMembers members
  | _ => True

def ProperItems : List Value → Prop
  | [] => True
  | next :: rest => Proper next ∧ ProperItems rest

def ProperMembers : List (String × Value) → Prop
  | [] => True
  | (_, next) :: rest => Proper next ∧ ProperMembers rest
end

-- What may follow a word without becoming part of it.
def EndsWord (rest : List Char) : Prop :=
  ∀ c, rest.head? = some c → isWordChar c = false

theorem endsWord_nil : EndsWord [] := by
  simp [EndsWord]

section Lex

theorem hexValue_hexDigitChar (d : Nat) (hd : d < 16) : hexValue (hexDigitChar d) = some d := by
  interval_cases d <;> decide

theorem lex_silent (mode next : Mode) (c : Char) (rest : List Char)
    (hs : lexStep mode c = some ([], next)) : lex mode (c :: rest) = lex next rest := by
  simp [lex, hs]

theorem lex_unicodeEscape (read rest : List Char) (c : Char) (hc : c.toNat < 65536) :
    lex (.text read) (unicodeEscape c.toNat ++ rest) = lex (.text (c :: read)) rest := by
  have h1 := hexValue_hexDigitChar (c.toNat / 4096 % 16) (by omega)
  have h2 := hexValue_hexDigitChar (c.toNat / 256 % 16) (by omega)
  have h3 := hexValue_hexDigitChar (c.toNat / 16 % 16) (by omega)
  have h4 := hexValue_hexDigitChar (c.toNat % 16) (by omega)
  have hcode : 16 * (16 * (16 * (16 * 0 + c.toNat / 4096 % 16) + c.toNat / 256 % 16) +
      c.toNat / 16 % 16) + c.toNat % 16 = c.toNat := by omega
  have hchar : ofCode c.toNat = c := by
    have hs : ¬ (0xD800 ≤ c.toNat ∧ c.toNat ≤ 0xDFFF) := by
      have hv := c.valid
      simp only [UInt32.isValidChar, Nat.isValidChar] at hv
      change c.toNat < 55296 ∨ 57343 < c.toNat ∧ c.toNat < 1114112 at hv
      omega
    simp [ofCode, hs]
  have digit (count code d : Nat) (more : List Char) (hd : hexValue (hexDigitChar d) = some d)
      (hcount : count ≠ 3) :
      lex (.unicode read count code) (hexDigitChar d :: more) =
        lex (.unicode read (count + 1) (16 * code + d)) more := by
    apply lex_silent
    simp [lexStep, hd, hcount]
  have last (code d : Nat) (more : List Char) (hd : hexValue (hexDigitChar d) = some d) :
      lex (.unicode read 3 code) (hexDigitChar d :: more) =
        lex (.text (ofCode (16 * code + d) :: read)) more := by
    apply lex_silent
    simp [lexStep, hd]
  simp only [unicodeEscape, List.cons_append, List.nil_append]
  rw [lex_silent (.text read) (.escape read) '\\' _ (by simp [lexStep]),
    lex_silent (.escape read) (.unicode read 0 0) 'u' _ (by simp [lexStep]),
    digit 0 _ _ _ h1 (by decide), digit 1 _ _ _ h2 (by decide), digit 2 _ _ _ h3 (by decide),
    last _ _ _ h4, hcode, hchar]

theorem lex_shortEscape (read rest : List Char) (c d : Char) (hc : c ≠ 'u') (hu : unescape c = some d) :
    lex (.text read) (['\\', c] ++ rest) = lex (.text (d :: read)) rest := by
  simp only [List.cons_append, List.nil_append]
  rw [lex_silent (.text read) (.escape read) '\\' _ (by simp [lexStep]),
    lex_silent (.escape read) (.text (d :: read)) c _ (by simp [lexStep, hc, hu])]

theorem lex_escape (read rest : List Char) (c : Char) :
    lex (.text read) (escape c ++ rest) = lex (.text (c :: read)) rest := by
  unfold escape
  split_ifs with h1 h2 h3 h4 h5 h6 h7 h8
  · subst h1; exact lex_shortEscape read rest _ _ (by decide) (by decide)
  · subst h2; exact lex_shortEscape read rest _ _ (by decide) (by decide)
  · subst h3; exact lex_shortEscape read rest _ _ (by decide) (by decide)
  · subst h4; exact lex_shortEscape read rest _ _ (by decide) (by decide)
  · subst h5; exact lex_shortEscape read rest _ _ (by decide) (by decide)
  · subst h6; exact lex_shortEscape read rest _ _ (by decide) (by decide)
  · subst h7; exact lex_shortEscape read rest _ _ (by decide) (by decide)
  · apply lex_unicodeEscape
    rcases h8 with h | rfl | rfl | rfl | h | h
    · omega
    · decide
    · decide
    · decide
    · omega
    · omega
  · have hlow : ¬ c.toNat < 32 := fun h => h8 (Or.inl h)
    simp [lex, lexStep, h1, h2, hlow]

theorem lex_text (characters read rest : List Char) :
    lex (.text read) (characters.flatMap escape ++ '"' :: rest) =
      (lex .plain rest).map (.text (read.reverse ++ characters) :: ·) := by
  induction characters generalizing read with
  | nil => simp [lex, lexStep]
  | cons c characters ih =>
    rw [List.flatMap_cons, List.append_assoc, lex_escape, ih]
    simp

theorem plainStep_of_wordChar (c : Char) (h : isWordChar c = true) :
    plainStep c = some ([], .word [c]) := by
  have hne (d : Char) (hd : isWordChar d = false) : c ≠ d := by
    rintro rfl
    rw [h] at hd
    cases hd
  have hs : ¬ (c = ' ' ∨ c = '\t' ∨ c = '\n' ∨ c = '\r') := by
    rintro (h' | h' | h' | h') <;> exact hne _ (by decide) h'
  have hp : punctuation c = none := by
    simp [punctuation, hne '\x7b' (by decide), hne '\x7d' (by decide), hne '[' (by decide),
      hne ']' (by decide), hne ',' (by decide), hne ':' (by decide)]
  simp [plainStep, hs, hp, hne '"' (by decide), h]

theorem lex_word_end (read rest : List Char) (hr : EndsWord rest) :
    lex (.word read) rest = (lex .plain rest).map (.word read.reverse :: ·) := by
  cases rest with
  | nil => rfl
  | cons c rest =>
    have hc : isWordChar c = false := hr c rfl
    simp only [lex, lexStep, hc, Bool.false_eq_true, ite_false]
    cases plainStep c with
    | none => rfl
    | some next => cases h : lex next.2 rest <;> simp [h]

theorem lex_word_read (characters read rest : List Char) (hw : characters.all isWordChar = true)
    (hr : EndsWord rest) :
    lex (.word read) (characters ++ rest) =
      (lex .plain rest).map (.word (read.reverse ++ characters) :: ·) := by
  induction characters generalizing read with
  | nil => simpa using lex_word_end read rest hr
  | cons c characters ih =>
    obtain ⟨hc, hw⟩ : isWordChar c = true ∧ characters.all isWordChar = true := by
      simpa using hw
    simp only [List.cons_append, lex, lexStep, hc, ite_true, Option.bind_some, List.nil_append,
      Option.map_id']
    rw [ih (c :: read) hw]
    simp

theorem lex_word (characters rest : List Char) (hne : characters ≠ [])
    (hw : characters.all isWordChar = true) (hr : EndsWord rest) :
    lex .plain (characters ++ rest) = (lex .plain rest).map (.word characters :: ·) := by
  cases characters with
  | nil => exact absurd rfl hne
  | cons c characters =>
    obtain ⟨hc, hw⟩ : isWordChar c = true ∧ characters.all isWordChar = true := by
      simpa using hw
    simp only [List.cons_append, lex, lexStep, plainStep_of_wordChar c hc, Option.bind_some,
      List.nil_append, Option.map_id']
    rw [lex_word_read characters [c] rest hw hr]
    simp

theorem lex_punctuation (token : Token) (c : Char) (rest : List Char)
    (hs : plainStep c = some ([token], .plain)) :
    lex .plain (c :: rest) = (lex .plain rest).map (token :: ·) := by
  simp [lex, lexStep, hs]

theorem lex_openObject (rest : List Char) :
    lex .plain (render .openObject ++ rest) = (lex .plain rest).map (.openObject :: ·) :=
  lex_punctuation _ _ rest (by decide)

theorem lex_closeObject (rest : List Char) :
    lex .plain (render .closeObject ++ rest) = (lex .plain rest).map (.closeObject :: ·) :=
  lex_punctuation _ _ rest (by decide)

theorem lex_openArray (rest : List Char) :
    lex .plain (render .openArray ++ rest) = (lex .plain rest).map (.openArray :: ·) :=
  lex_punctuation _ _ rest (by decide)

theorem lex_closeArray (rest : List Char) :
    lex .plain (render .closeArray ++ rest) = (lex .plain rest).map (.closeArray :: ·) :=
  lex_punctuation _ _ rest (by decide)

theorem lex_comma (rest : List Char) :
    lex .plain (render .comma ++ rest) = (lex .plain rest).map (.comma :: ·) :=
  lex_punctuation _ _ rest (by decide)

theorem lex_colon (rest : List Char) :
    lex .plain (render .colon ++ rest) = (lex .plain rest).map (.colon :: ·) :=
  lex_punctuation _ _ rest (by decide)

theorem lex_quoted (characters rest : List Char) :
    lex .plain (render (.text characters) ++ rest) =
      (lex .plain rest).map (.text characters :: ·) := by
  have hq : plainStep '"' = some ([], .text []) := by decide
  simp only [render, List.cons_append, List.append_assoc, List.nil_append, lex, lexStep, hq,
    Option.bind_some, Option.map_id']
  simpa using lex_text characters [] rest

theorem endsWord_itemsTail (items : List Value) (rest : List Char) :
    EndsWord ((itemsTail items).flatMap render ++ rest) := by
  cases items <;> simp [itemsTail, render, EndsWord, isWordChar]

theorem endsWord_membersTail (members : List (String × Value)) (rest : List Char) :
    EndsWord ((membersTail members).flatMap render ++ rest) := by
  cases members <;> simp [membersTail, render, EndsWord, isWordChar]

-- Lexing what was rendered gives back the tokens: one case for each form of a
-- value, and for the tails of arrays and objects.
mutual
theorem lex_tokens (value : Value) (rest : List Char) (hv : Proper value) (hr : EndsWord rest) :
    lex .plain ((tokens value).flatMap render ++ rest) =
      (lex .plain rest).map (tokens value ++ ·) := by
  match value with
  | .null => simpa [tokens, render] using lex_word "null".toList rest (by simp) (by decide) hr
  | .bool true => simpa [tokens, render] using lex_word "true".toList rest (by simp) (by decide) hr
  | .bool false => simpa [tokens, render] using lex_word "false".toList rest (by simp) (by decide) hr
  | .num literal =>
    simp only [Proper] at hv
    have hne : literal.toList ≠ [] := by
      intro he
      simp [he, NumberLiteral, isNumber] at hv
    simpa [tokens, render] using lex_word literal.toList rest hne hv.2 hr
  | .str text => simpa [tokens] using lex_quoted text.toList rest
  | .arr [] =>
    simp only [tokens, List.flatMap_cons, List.flatMap_nil, List.append_nil, List.append_assoc]
    rw [lex_openArray, lex_closeArray]
    cases lex .plain rest <;> rfl
  | .arr (first :: items) =>
    simp only [Proper, ProperItems] at hv
    simp only [tokens, List.flatMap_cons, List.flatMap_append, List.append_assoc]
    rw [lex_openArray, lex_tokens first _ hv.1 (endsWord_itemsTail items rest),
      lex_itemsTail items rest hv.2]
    cases lex .plain rest <;> simp
  | .obj [] =>
    simp only [tokens, List.flatMap_cons, List.flatMap_nil, List.append_nil, List.append_assoc]
    rw [lex_openObject, lex_closeObject]
    cases lex .plain rest <;> rfl
  | .obj ((key, first) :: members) =>
    simp only [Proper, ProperMembers] at hv
    simp only [tokens, List.flatMap_cons, List.flatMap_append, List.append_assoc]
    rw [lex_openObject, lex_quoted, lex_colon,
      lex_tokens first _ hv.1 (endsWord_membersTail members rest),
      lex_membersTail members rest hv.2]
    cases lex .plain rest <;> simp

theorem lex_itemsTail (items : List Value) (rest : List Char) (hi : ProperItems items) :
    lex .plain ((itemsTail items).flatMap render ++ rest) =
      (lex .plain rest).map (itemsTail items ++ ·) := by
  match items with
  | [] => simpa [itemsTail] using lex_closeArray rest
  | next :: items =>
    simp only [ProperItems] at hi
    simp only [itemsTail, List.flatMap_cons, List.flatMap_append, List.append_assoc]
    rw [lex_comma, lex_tokens next _ hi.1 (endsWord_itemsTail items rest),
      lex_itemsTail items rest hi.2]
    cases lex .plain rest <;> simp

theorem lex_membersTail (members : List (String × Value)) (rest : List Char) (hm : ProperMembers members) :
    lex .plain ((membersTail members).flatMap render ++ rest) =
      (lex .plain rest).map (membersTail members ++ ·) := by
  match members with
  | [] => simpa [membersTail] using lex_closeObject rest
  | (key, next) :: members =>
    simp only [ProperMembers] at hm
    simp only [membersTail, List.flatMap_cons, List.flatMap_append, List.append_assoc]
    rw [lex_comma, lex_quoted, lex_colon,
      lex_tokens next _ hm.1 (endsWord_membersTail members rest),
      lex_membersTail members rest hm.2]
    cases lex .plain rest <;> simp
end

end Lex

section Parse

theorem head?_tokens_ne_closeArray (value : Value) (rest : List Token) :
    (tokens value ++ rest).head? ≠ some .closeArray := by
  cases value with
  | bool b => cases b <;> simp [tokens]
  | arr items => cases items <;> simp [tokens]
  | obj members => cases members <;> simp [tokens]
  | _ => simp [tokens]

theorem wordValue_of_number (literal : String) (hn : NumberLiteral literal.toList) :
    wordValue literal.toList = some (.num literal) := by
  have hne (word : List Char) (hw : isNumber word = false) : literal.toList ≠ word := by
    intro he
    rw [NumberLiteral, he, hw] at hn
    cases hn.1
  unfold wordValue
  rw [if_neg (hne _ (by decide)), if_neg (hne _ (by decide)), if_neg (hne _ (by decide)),
    if_pos hn.1, String.ofList_toList]

-- The fuel counts tokens, and every recursive call has consumed one.
mutual
theorem parseValue_tokens (value : Value) (fuel : Nat) (rest : List Token) (hv : Proper value)
    (hf : (tokens value).length ≤ fuel) :
    parseValue fuel (tokens value ++ rest) = some (value, rest) := by
  match value, fuel with
  | .null, fuel + 1 => simp [tokens, parseValue, wordValue]
  | .bool true, fuel + 1 => simp [tokens, parseValue, wordValue]
  | .bool false, fuel + 1 => simp [tokens, parseValue, wordValue]
  | .num literal, fuel + 1 => simp [tokens, parseValue, wordValue_of_number literal hv]
  | .str text, fuel + 1 => simp [tokens, parseValue]
  | .arr [], fuel + 1 => simp [tokens, parseValue]
  | .arr (first :: items), fuel + 1 =>
    simp only [Proper, ProperItems] at hv
    simp only [tokens, List.length_cons, List.length_append] at hf
    simp only [tokens, List.cons_append, List.append_assoc, parseValue,
      head?_tokens_ne_closeArray first, ite_false]
    rw [parseValue_tokens first fuel _ hv.1 (by omega)]
    simp only [Option.bind_some]
    rw [parseItems_itemsTail items fuel rest hv.2 (by omega)]
    rfl
  | .obj [], fuel + 1 => simp [tokens, parseValue]
  | .obj ((key, first) :: members), fuel + 1 =>
    simp only [Proper, ProperMembers] at hv
    simp only [tokens, List.length_cons, List.length_append] at hf
    simp only [tokens, List.cons_append, List.append_assoc, parseValue]
    rw [parseValue_tokens first fuel _ hv.1 (by omega)]
    simp only [Option.bind_some]
    rw [parseMembers_membersTail members fuel rest hv.2 (by omega)]
    simp

theorem parseItems_itemsTail (items : List Value) (fuel : Nat) (rest : List Token)
    (hi : ProperItems items) (hf : (itemsTail items).length ≤ fuel) :
    parseItems fuel (itemsTail items ++ rest) = some (items, rest) := by
  match items, fuel with
  | [], fuel + 1 => simp [itemsTail, parseItems]
  | next :: items, fuel + 1 =>
    simp only [ProperItems] at hi
    simp only [itemsTail, List.length_cons, List.length_append] at hf
    simp only [itemsTail, List.cons_append, List.append_assoc, parseItems]
    rw [parseValue_tokens next fuel _ hi.1 (by omega)]
    simp only [Option.bind_some]
    rw [parseItems_itemsTail items fuel rest hi.2 (by omega)]
    rfl

theorem parseMembers_membersTail (members : List (String × Value)) (fuel : Nat)
    (rest : List Token) (hm : ProperMembers members) (hf : (membersTail members).length ≤ fuel) :
    parseMembers fuel (membersTail members ++ rest) = some (members, rest) := by
  match members, fuel with
  | [], fuel + 1 => simp [membersTail, parseMembers]
  | (key, next) :: members, fuel + 1 =>
    simp only [ProperMembers] at hm
    simp only [membersTail, List.length_cons, List.length_append] at hf
    simp only [membersTail, List.cons_append, List.append_assoc, parseMembers]
    rw [parseValue_tokens next fuel _ hm.1 (by omega)]
    simp only [Option.bind_some]
    rw [parseMembers_membersTail members fuel rest hm.2 (by omega)]
    simp
end

end Parse

theorem unmarshal_marshal (value : Value) (hv : Proper value) :
    unmarshal (marshal value) = some value := by
  have hl := lex_tokens value [] hv endsWord_nil
  have hp := parseValue_tokens value (tokens value).length [] hv le_rfl
  simp only [List.append_nil, lex, Option.map_some] at hl hp
  simp [unmarshal, marshal, Bytes.fromUTF8?_utf8, parse, hl, hp]

theorem marshal_ne_nil (value : Value) (hv : Proper value) : marshal value ≠ [] := by
  intro he
  have hround := unmarshal_marshal value hv
  rw [he] at hround
  have hnone : unmarshal [] = none := by decide
  rw [hnone] at hround
  cases hround

section Decode

-- Where the last member of a name stands. It depends on the keys only, so it
-- can be computed for a struct whose values are not known.
def keyIndex (keys : List String) (name : String) : Option Nat :=
  (keys.zipIdx.reverse.find? fun entry => sameKey entry.1 name).map Prod.snd

theorem member?_eq (members : List (String × Value)) (name : String) :
    member? (.obj members) name =
      (keyIndex (members.map Prod.fst) name).bind ((members.map Prod.snd)[·]?) := by
  induction members using List.reverseRecOn with
  | nil => rfl
  | append_singleton members last ih =>
    simp only [member?, keyIndex, List.map_append, List.map_cons, List.map_nil, List.reverse_append,
      List.reverse_singleton, List.singleton_append, List.zipIdx_append, List.zipIdx_singleton,
      List.find?_cons, List.length_map] at ih ⊢
    cases hk : sameKey last.1 name with
    | true => simp [List.getElem?_append]
    | false =>
      simp only [ih]
      cases hf : (List.map Prod.fst members).zipIdx.reverse.find?
          (fun entry => sameKey entry.1 name) with
      | none => rfl
      | some found =>
        have hm : found ∈ (List.map Prod.fst members).zipIdx :=
          List.mem_reverse.mp (List.mem_of_find?_eq_some hf)
        have hlt : found.2 < members.length := by
          have := List.snd_lt_of_mem_zipIdx hm
          simpa using this
        simp [List.getElem?_append, hlt]

end Decode

section Number

theorem isWordChar_of_isDigit (c : Char) (h : c.isDigit = true) : isWordChar c = true := by
  simp [isWordChar, Char.isAlphanum, h]

theorem numberLiteral_toDigits (value : Nat) : NumberLiteral (Nat.toDigits 10 value) := by
  have hd := BigInt.toDigits_decimal value
  refine ⟨?_, ?_⟩
  · have hz := BigInt.toDigits_leadingZero value
    have hne := Nat.toDigits_ne_nil (b := 10) (n := value)
    cases hdigits : Nat.toDigits 10 value with
    | nil => exact absurd hdigits hne
    | cons c rest =>
      rw [hdigits] at hd hz
      have hminus : c ≠ '-' := by
        rintro rfl
        exact absurd (hd '-' (by simp)) (by decide)
      have hall : (c :: rest).dropWhile Char.isDigit = [] := by
        rw [List.dropWhile_eq_nil_iff]
        exact fun x hx => hd x hx
      simp only [isNumber, hminus, if_false, integerPart]
      split
      case isTrue hc =>
        subst hc
        cases rest with
        | nil => rfl
        | cons d more => simp [BigInt.leadingZero] at hz
      case isFalse hc =>
        have hfirst : c.isDigit = true := hd c (by simp)
        rw [digitsThen, hall, List.takeWhile_cons_of_pos hfirst]
        rfl
  · rw [List.all_eq_true]
    exact fun c hc => isWordChar_of_isDigit c (hd c hc)

theorem uintField_of_member (value : Value) (name : String) (size number : Nat) (hn : number < size)
    (h : member? value name = some (.num (toString number))) :
    uintField value name size = some number := by
  have hdigits : (toString number).toList = Nat.toDigits 10 number := Nat.toList_repr
  have hall : (Nat.toDigits 10 number).all Char.isDigit = true := by
    rw [List.all_eq_true]
    exact BigInt.toDigits_decimal number
  simp only [uintField, h, hdigits, Nat.ofDigitChars_ten_toDigits]
  simp [hall, hn]

end Number

end PosChain.Json
