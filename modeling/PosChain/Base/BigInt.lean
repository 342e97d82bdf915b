import Mathlib

namespace PosChain.BigInt

-- The reader of arbitrary-precision integers of Go's math/big. Base ten takes
-- a sign and decimal digits only. Base zero takes the base from a prefix, where
-- a zero with anything behind it means octal, and allows underscores between
-- digits.
inductive Previous where
  | other
  | digit
  | separator
  deriving DecidableEq, Repr

structure Scan where
  value : Nat
  count : Nat
  previous : Previous
  invalidSeparator : Bool
  deriving DecidableEq, Repr

def start : Scan :=
  ⟨0, 0, .other, false⟩

-- A base prefix begins with a zero, so a separator may follow it.
def startAfterPrefix : Scan :=
  ⟨0, 0, .digit, false⟩

-- A character that is no digit in any base has the value one above the largest base.
def digitValue (c : Char) : Nat :=
  if 48 ≤ c.toNat ∧ c.toNat ≤ 57 then c.toNat - 48
  else if 97 ≤ c.toNat ∧ c.toNat ≤ 122 then c.toNat - 97 + 10
  else if 65 ≤ c.toNat ∧ c.toNat ≤ 90 then c.toNat - 65 + 10
  else 63

-- The scanner stops at a character that does not belong to the number; since
-- the whole text has to be read, it then fails.
def scanDigits (base : Nat) (separators : Bool) : Scan → List Char → Option Scan
  | scan, [] => some scan
  | scan, c :: rest =>
    if c = '_' ∧ separators then
      scanDigits base separators { scan with
        previous := .separator
        invalidSeparator := scan.invalidSeparator || scan.previous != .digit } rest
    else if digitValue c < base then
      scanDigits base separators { scan with
        value := base * scan.value + digitValue c
        count := scan.count + 1
        previous := .digit } rest
    else none

def finish (octalPrefix : Bool) (scan : Scan) : Option Nat :=
  if scan.invalidSeparator || scan.previous == .separator then none
  else if scan.count = 0 then
    if octalPrefix then some 0 else none
  else some scan.value

-- The character behind a leading zero names the base; any other character is
-- itself the first octal digit.
def scanPrefixed (c : Char) (rest : List Char) : Option Nat :=
  if c = 'b' ∨ c = 'B' then (scanDigits 2 true startAfterPrefix rest).bind (finish false)
  else if c = 'o' ∨ c = 'O' then (scanDigits 8 true startAfterPrefix rest).bind (finish false)
  else if c = 'x' ∨ c = 'X' then (scanDigits 16 true startAfterPrefix rest).bind (finish false)
  else (scanDigits 8 true startAfterPrefix (c :: rest)).bind (finish true)

def scanDetected : List Char → Option Nat
  | first :: c :: rest =>
    if first = '0' then scanPrefixed c rest
    else (scanDigits 10 true start (first :: c :: rest)).bind (finish false)
  | text => (scanDigits 10 true start text).bind (finish false)

def scanNat (base : Nat) (text : List Char) : Option Nat :=
  if base = 0 then scanDetected text
  else (scanDigits base false start text).bind (finish false)

def unsigned : List Char → List Char
  | [] => []
  | c :: rest => if c = '-' ∨ c = '+' then rest else c :: rest

def negative (text : List Char) : Bool :=
  text.head? == some '-'

def applySign (negative : Bool) (value : Nat) : Int :=
  if negative then -(value : Int) else value

def setString (text : String) (base : Nat) : Option Int :=
  (scanNat base (unsigned text.toList)).map (applySign (negative text.toList))

-- A zero with another character behind it.
def leadingZero : List Char → Bool
  | first :: _ :: _ => first == '0'
  | _ => false

def LeadingZero (text : String) : Prop :=
  leadingZero (unsigned text.toList) = true

instance (text : String) : Decidable (LeadingZero text) :=
  inferInstanceAs (Decidable (_ = true))

end PosChain.BigInt
