import PosChain.Base.Text

namespace PosChain.Json

inductive Value where
  | null
  | bool (value : Bool)
  | num (literal : String)
  | str (text : String)
  | arr (items : List Value)
  | obj (members : List (String × Value))

inductive Token where
  | openObject
  | closeObject
  | openArray
  | closeArray
  | comma
  | colon
  | text (characters : List Char)
  | word (characters : List Char)
  deriving DecidableEq, Repr

section Encode

mutual
def tokens : Value → List Token
  | .null => [.word "null".toList]
  | .bool true => [.word "true".toList]
  | .bool false => [.word "false".toList]
  | .num literal => [.word literal.toList]
  | .str text => [.text text.toList]
  | .arr [] => [.openArray, .closeArray]
  | .arr (first :: rest) => .openArray :: (tokens first ++ itemsTail rest)
  | .obj [] => [.openObject, .closeObject]
  | .obj ((key, first) :: rest) =>
    .openObject :: .text key.toList :: .colon :: (tokens first ++ membersTail rest)

def itemsTail : List Value → List Token
  | [] => [.closeArray]
  | next :: rest => .comma :: (tokens next ++ itemsTail rest)

def membersTail : List (String × Value) → List Token
  | [] => [.closeObject]
  | (key, next) :: rest => .comma :: .text key.toList :: .colon :: (tokens next ++ membersTail rest)
end

def hexDigitChar (value : Nat) : Char :=
  if value < 10 then Char.ofNat (48 + value) else Char.ofNat (87 + value)

def unicodeEscape (code : Nat) : List Char :=
  ['\\', 'u', hexDigitChar (code / 4096 % 16), hexDigitChar (code / 256 % 16),
    hexDigitChar (code / 16 % 16), hexDigitChar (code % 16)]

-- Marshal escapes the quote, the backslash and the control characters, and for
-- the sake of HTML and JavaScript also the angle brackets, the ampersand and
-- the two Unicode line separators.
def escape (c : Char) : List Char :=
  if c = '"' then ['\\', '"']
  else if c = '\\' then ['\\', '\\']
  else if c = '\x08' then ['\\', 'b']
  else if c = '\x0c' then ['\\', 'f']
  else if c = '\n' then ['\\', 'n']
  else if c = '\r' then ['\\', 'r']
  else if c = '\t' then ['\\', 't']
  else if c.toNat < 32 ∨ c = '<' ∨ c = '>' ∨ c = '&' ∨ c.toNat = 0x2028 ∨ c.toNat = 0x2029 then
    unicodeEscape c.toNat
  else [c]

def render : Token → List Char
  | .openObject => ['\x7b']
  | .closeObject => ['\x7d']
  | .openArray => ['[']
  | .closeArray => [']']
  | .comma => [',']
  | .colon => [':']
  | .text characters => '"' :: (characters.flatMap escape ++ ['"'])
  | .word characters => characters

def marshal (value : Value) : Bytes :=
  Bytes.utf8 (String.ofList ((tokens value).flatMap render))

end Encode

section Decode

-- What the lexer is inside of; the characters read are kept in reverse.
inductive Mode where
  | plain
  | text (read : List Char)
  | escape (read : List Char)
  | unicode (read : List Char) (count code : Nat)
  | word (read : List Char)
  deriving DecidableEq, Repr

def punctuation (c : Char) : Option Token :=
  if c = '\x7b' then some .openObject
  else if c = '\x7d' then some .closeObject
  else if c = '[' then some .openArray
  else if c = ']' then some .closeArray
  else if c = ',' then some .comma
  else if c = ':' then some .colon
  else none

def isWordChar (c : Char) : Bool :=
  c.isAlphanum || c == '+' || c == '-' || c == '.'

def unescape (c : Char) : Option Char :=
  if c = '"' then some '"'
  else if c = '\\' then some '\\'
  else if c = '/' then some '/'
  else if c = 'b' then some '\x08'
  else if c = 'f' then some '\x0c'
  else if c = 'n' then some '\n'
  else if c = 'r' then some '\r'
  else if c = 't' then some '\t'
  else none

def hexValue (c : Char) : Option Nat :=
  if 48 ≤ c.toNat ∧ c.toNat ≤ 57 then some (c.toNat - 48)
  else if 97 ≤ c.toNat ∧ c.toNat ≤ 102 then some (c.toNat - 87)
  else if 65 ≤ c.toNat ∧ c.toNat ≤ 70 then some (c.toNat - 55)
  else none

-- Surrogates, which Marshal never writes as escapes, read as the replacement character.
def ofCode (code : Nat) : Char :=
  if 0xD800 ≤ code ∧ code ≤ 0xDFFF then Char.ofNat 0xFFFD else Char.ofNat code

def plainStep (c : Char) : Option (List Token × Mode) :=
  if c = ' ' ∨ c = '\t' ∨ c = '\n' ∨ c = '\r' then some ([], .plain)
  else match punctuation c with
    | some token => some ([token], .plain)
    | none =>
      if c = '"' then some ([], .text [])
      else if isWordChar c then some ([], .word [c])
      else none

def lexStep : Mode → Char → Option (List Token × Mode)
  | .plain, c => plainStep c
  | .text read, c =>
    if c = '"' then some ([.text read.reverse], .plain)
    else if c = '\\' then some ([], .escape read)
    else if c.toNat < 32 then none
    else some ([], .text (c :: read))
  | .escape read, c =>
    if c = 'u' then some ([], .unicode read 0 0)
    else (unescape c).map fun d => ([], .text (d :: read))
  | .unicode read count code, c =>
    (hexValue c).map fun d =>
      if count = 3 then ([], .text (ofCode (16 * code + d) :: read))
      else ([], .unicode read (count + 1) (16 * code + d))
  | .word read, c =>
    if isWordChar c then some ([], .word (c :: read))
    else (plainStep c).map fun next => (.word read.reverse :: next.1, next.2)

def lex : Mode → List Char → Option (List Token)
  | .plain, [] => some []
  | .word read, [] => some [.word read.reverse]
  | _, [] => none
  | mode, c :: rest =>
    (lexStep mode c).bind fun next => (lex next.2 rest).map (next.1 ++ ·)

def digitsThen (next : List Char → Bool) (text : List Char) : Bool :=
  !(text.takeWhile Char.isDigit).isEmpty && next (text.dropWhile Char.isDigit)

def exponentPart : List Char → Bool
  | [] => true
  | c :: rest =>
    (c == 'e' || c == 'E') &&
      match rest with
      | sign :: digits =>
        if sign = '+' ∨ sign = '-' then digitsThen List.isEmpty digits
        else digitsThen List.isEmpty rest
      | [] => false

def fractionPart : List Char → Bool
  | [] => true
  | c :: rest => if c = '.' then digitsThen exponentPart rest else exponentPart (c :: rest)

def integerPart : List Char → Bool
  | [] => false
  | c :: rest => if c = '0' then fractionPart rest else digitsThen fractionPart (c :: rest)

def isNumber : List Char → Bool
  | [] => false
  | c :: rest => if c = '-' then integerPart rest else integerPart (c :: rest)

def wordValue (characters : List Char) : Option Value :=
  if characters = "null".toList then some .null
  else if characters = "true".toList then some (.bool true)
  else if characters = "false".toList then some (.bool false)
  else if isNumber characters then some (.num (String.ofList characters))
  else none

mutual
def parseValue : Nat → List Token → Option (Value × List Token)
  | 0, _ => none
  | _ + 1, .text characters :: rest => some (.str (String.ofList characters), rest)
  | _ + 1, .word characters :: rest => (wordValue characters).map fun value => (value, rest)
  | fuel + 1, .openArray :: rest =>
    if rest.head? = some .closeArray then some (.arr [], rest.tail)
    else (parseValue fuel rest).bind fun first =>
      (parseItems fuel first.2).map fun items => (.arr (first.1 :: items.1), items.2)
  | _ + 1, .openObject :: .closeObject :: rest => some (.obj [], rest)
  | fuel + 1, .openObject :: .text key :: .colon :: rest =>
    (parseValue fuel rest).bind fun first =>
      (parseMembers fuel first.2).map fun members =>
        (.obj ((String.ofList key, first.1) :: members.1), members.2)
  | _, _ => none

def parseItems : Nat → List Token → Option (List Value × List Token)
  | 0, _ => none
  | _ + 1, .closeArray :: rest => some ([], rest)
  | fuel + 1, .comma :: rest =>
    (parseValue fuel rest).bind fun next =>
      (parseItems fuel next.2).map fun items => (next.1 :: items.1, items.2)
  | _, _ => none

def parseMembers : Nat → List Token → Option (List (String × Value) × List Token)
  | 0, _ => none
  | _ + 1, .closeObject :: rest => some ([], rest)
  | fuel + 1, .comma :: .text key :: .colon :: rest =>
    (parseValue fuel rest).bind fun next =>
      (parseMembers fuel next.2).map fun members =>
        ((String.ofList key, next.1) :: members.1, members.2)
  | _, _ => none
end

def parse (text : List Char) : Option Value :=
  (lex .plain text).bind fun all =>
    match parseValue all.length all with
    | some (value, []) => some value
    | _ => none

def unmarshal (bytes : Bytes) : Option Value :=
  (String.fromUTF8? ⟨bytes.toArray⟩).bind fun text => parse text.toList

-- Only an object, or a null that changes nothing, decodes into a struct.
def isStruct : Value → Bool
  | .obj _ => true
  | .null => true
  | _ => false

-- Struct decoding takes the last member of a name, in any case of its letters,
-- and leaves the zero value where there is none or it is null.
def sameKey (key name : String) : Bool :=
  key.toList.map Char.toLower == name.toList

def member? (value : Value) (name : String) : Option Value :=
  match value with
  | .obj members => (members.reverse.find? fun entry => sameKey entry.1 name).map Prod.snd
  | _ => none

def stringField (value : Value) (name : String) : Option String :=
  match member? value name with
  | none => some ""
  | some .null => some ""
  | some (.str text) => some text
  | some _ => none

def boolField (value : Value) (name : String) : Option Bool :=
  match member? value name with
  | none => some false
  | some .null => some false
  | some (.bool flag) => some flag
  | some _ => none

def stringItem : Value → Option String
  | .str text => some text
  | .null => some ""
  | _ => none

def stringListField (value : Value) (name : String) : Option (List String) :=
  match member? value name with
  | none => some []
  | some .null => some []
  | some (.arr items) => items.mapM stringItem
  | some _ => none

-- An unsigned field takes an integer literal within its range.
def uintField (value : Value) (name : String) (size : Nat) : Option Nat :=
  match member? value name with
  | none => some 0
  | some .null => some 0
  | some (.num literal) =>
    if literal.toList.all Char.isDigit ∧ Nat.ofDigitChars 10 literal.toList 0 < size then
      some (Nat.ofDigitChars 10 literal.toList 0)
    else none
  | some _ => none

end Decode

end PosChain.Json
