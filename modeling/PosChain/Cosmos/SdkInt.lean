import PosChain.Base.Action
import PosChain.Base.BigInt.Theorems

namespace PosChain

-- The integers of cosmossdk.io/math have at most 256 bits besides the sign. A
-- nil integer, which its reader returns on failure, is a missing value here.
structure SdkInt where
  value : Int
  bounded : value.natAbs < 2 ^ 256
  deriving DecidableEq

namespace SdkInt

def ofInt? (value : Int) : Option SdkInt :=
  if h : value.natAbs < 2 ^ 256 then some ⟨value, h⟩ else none

def zeroInt : SdkInt :=
  ⟨0, by decide⟩

def newIntFromBigInt (value : Int) : Check SdkInt :=
  orFail (ofInt? value) (.panic "NewIntFromBigInt() out of bound")

def newIntFromString (text : String) : Option SdkInt :=
  (BigInt.setString text 0).bind ofInt?

def add (left right : SdkInt) : Check SdkInt :=
  orFail (ofInt? (left.value + right.value)) (.panic "Integer overflow")

def sub (left right : SdkInt) : Check SdkInt :=
  orFail (ofInt? (left.value - right.value)) (.panic "Integer overflow")

def mul (left right : SdkInt) : Check SdkInt :=
  orFail (ofInt? (left.value * right.value)) (.panic "Integer overflow")

-- Division truncates towards zero, so the quotient is never out of bound.
def quo (left right : SdkInt) : Check SdkInt :=
  if right.value = 0 then .error (.panic "Division by zero")
  else .ok ⟨left.value.tdiv right.value, by
    have h := left.bounded
    rw [Int.natAbs_tdiv]
    exact lt_of_le_of_lt (Nat.div_le_self _ _) h⟩

-- The signed and unsigned machine integers all fit.
def newInt (value : Int64) : SdkInt :=
  ⟨value.toInt, by
    have h := value.le_toInt
    have h' := value.toInt_lt
    omega⟩

def newIntFromUint64 (value : UInt64) : SdkInt :=
  ⟨value.toNat, by
    have h := value.toNat_lt
    omega⟩

def isPositive (number : SdkInt) : Bool :=
  0 < number.value

def isNegative (number : SdkInt) : Bool :=
  number.value < 0

def isZero (number : SdkInt) : Bool :=
  number.value == 0

def gt (left right : SdkInt) : Bool :=
  right.value < left.value

def lt (left right : SdkInt) : Bool :=
  left.value < right.value

-- Comparing with a nil integer dereferences a nil pointer.
def gtNil (left : SdkInt) (right : Option SdkInt) : Check Bool :=
  (orFail right nilDereference).map left.gt

def toText (number : SdkInt) : String :=
  toString number.value

theorem ofInt?_eq_some (value : Int) (number : SdkInt) :
    ofInt? value = some number ↔ number.value = value := by
  unfold ofInt?
  constructor
  · intro h
    split at h
    · cases h
      rfl
    · cases h
  · rintro rfl
    rw [dif_pos number.bounded]

theorem ofInt?_of_lt (value : Int) (h : value.natAbs < 2 ^ 256) :
    ofInt? value = some ⟨value, h⟩ := by
  rw [ofInt?_eq_some]

theorem toNat_lt (number : SdkInt) : number.value.toNat < 2 ^ 256 := by
  have h := number.bounded
  omega

theorem newIntFromBigInt_eq_ok (value : Int) (number : SdkInt) :
    newIntFromBigInt value = .ok number ↔ number.value = value := by
  simp [newIntFromBigInt, ofInt?_eq_some]

theorem add_eq_ok (left right sum : SdkInt) :
    left.add right = .ok sum ↔ sum.value = left.value + right.value := by
  simp [add, ofInt?_eq_some]

theorem sub_eq_ok (left right difference : SdkInt) :
    left.sub right = .ok difference ↔ difference.value = left.value - right.value := by
  simp [sub, ofInt?_eq_some]

theorem mul_eq_ok (left right product : SdkInt) :
    left.mul right = .ok product ↔ product.value = left.value * right.value := by
  simp [mul, ofInt?_eq_some]

theorem quo_eq_ok (left right quotient : SdkInt) :
    left.quo right = .ok quotient ↔
      right.value ≠ 0 ∧ quotient.value = left.value.tdiv right.value := by
  rw [quo]
  split
  case isTrue h => simp [h]
  case isFalse h =>
    simp only [Except.ok.injEq, ne_eq, h, not_false_eq_true, true_and]
    constructor
    · rintro rfl
      rfl
    · intro hq
      cases quotient
      simp_all

theorem gtNil_eq_ok (left : SdkInt) (right : Option SdkInt) (b : Bool) :
    left.gtNil right = .ok b ↔ ∃ limit, right = some limit ∧ left.gt limit = b := by
  cases right <;> simp [gtNil, orFail, Except.map]

theorem newIntFromString_eq_some (text : String) (number : SdkInt) :
    newIntFromString text = some number ↔ BigInt.setString text 0 = some number.value := by
  simp only [newIntFromString, Option.bind_eq_some_iff, ofInt?_eq_some]
  constructor
  · rintro ⟨value, hv, he⟩
    rw [hv, he]
  · intro h
    exact ⟨number.value, h, rfl⟩

theorem newIntFromString_natCast (value : Nat) (h : value < 2 ^ 256) :
    newIntFromString (toString value) = some ⟨value, h⟩ := by
  rw [newIntFromString_eq_some]
  exact BigInt.setString_repr value 0 (Or.inl rfl)

end SdkInt

end PosChain
