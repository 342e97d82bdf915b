import PosChain.Cosmos.SdkInt

namespace PosChain

-- A decimal of cosmossdk.io/math counts units of the eighteenth decimal place. A
-- nil decimal is a missing value here.
structure LegacyDec where
  raw : Int
  deriving DecidableEq, Repr

namespace LegacyDec

def precision : Int := 1000000000000000000

-- The results of the operations have at most 256 + 59 bits besides the sign.
def limit : Nat := 2 ^ 256 * 2 ^ 59

def inRange (raw : Int) : Check LegacyDec :=
  if raw.natAbs < limit then .ok ⟨raw⟩ else .error (.panic "Int overflow")

def ofInt (value : Int) : LegacyDec :=
  ⟨value * precision⟩

def newDec (value : Int64) : LegacyDec :=
  ofInt value.toInt

def newDecFromInt (value : SdkInt) : LegacyDec :=
  ofInt value.value

def zeroDec : LegacyDec :=
  ⟨0⟩

def oneDec : LegacyDec :=
  ⟨precision⟩

def isNegative (dec : LegacyDec) : Bool :=
  dec.raw < 0

def isZero (dec : LegacyDec) : Bool :=
  dec.raw == 0

def gt (left right : LegacyDec) : Bool :=
  right.raw < left.raw

def lt (left right : LegacyDec) : Bool :=
  left.raw < right.raw

def maxDec (left right : LegacyDec) : LegacyDec :=
  if left.lt right then right else left

def add (left right : LegacyDec) : Check LegacyDec :=
  inRange (left.raw + right.raw)

def sub (left right : LegacyDec) : Check LegacyDec :=
  inRange (left.raw - right.raw)

-- Half of a unit is rounded to the even neighbour.
def chopAndRound (raw : Nat) : Nat :=
  let quo := raw / precision.toNat
  let rem := raw % precision.toNat
  if rem * 2 < precision.toNat then quo
  else if precision.toNat < rem * 2 then quo + 1
  else if quo % 2 = 0 then quo
  else quo + 1

def chopPrecisionAndRound (raw : Int) : Int :=
  if raw < 0 then -(chopAndRound raw.natAbs : Int) else chopAndRound raw.natAbs

def mul (left right : LegacyDec) : Check LegacyDec :=
  inRange (chopPrecisionAndRound (left.raw * right.raw))

def mulInt (left : LegacyDec) (right : SdkInt) : Check LegacyDec :=
  inRange (left.raw * right.value)

def quoInt (left : LegacyDec) (right : SdkInt) : Check LegacyDec :=
  if right.value = 0 then .error (.panic "division by zero") else .ok ⟨left.raw.tdiv right.value⟩

def truncateInt (dec : LegacyDec) : Check SdkInt :=
  SdkInt.newIntFromBigInt (dec.raw.tdiv precision)

def toText (dec : LegacyDec) : String :=
  let fraction := toString (dec.raw.natAbs % precision.toNat)
  (if dec.raw < 0 then "-" else "") ++ toString (dec.raw.natAbs / precision.toNat) ++ "." ++
    String.ofList (List.replicate (18 - fraction.length) '0') ++ fraction

theorem inRange_eq_ok (raw : Int) (dec : LegacyDec) :
    inRange raw = .ok dec ↔ raw.natAbs < limit ∧ dec.raw = raw := by
  unfold inRange
  split
  case isTrue h =>
    simp only [Except.ok.injEq, h, true_and]
    constructor
    · rintro rfl
      rfl
    · intro hraw
      cases dec
      simp_all
  case isFalse h => simp [h]

theorem add_eq_ok (left right sum : LegacyDec) :
    left.add right = .ok sum ↔
      (left.raw + right.raw).natAbs < limit ∧ sum.raw = left.raw + right.raw :=
  inRange_eq_ok _ sum

theorem sub_eq_ok (left right difference : LegacyDec) :
    left.sub right = .ok difference ↔
      (left.raw - right.raw).natAbs < limit ∧ difference.raw = left.raw - right.raw :=
  inRange_eq_ok _ difference

theorem chopAndRound_mul (value : Nat) : chopAndRound (value * precision.toNat) = value := by
  have hpos : 0 < precision.toNat := by decide
  simp [chopAndRound, Nat.mul_div_cancel _ hpos, hpos]

theorem chopPrecisionAndRound_mul (value : Int) : chopPrecisionAndRound (value * precision) = value := by
  have hprecision : precision = (precision.toNat : Int) := rfl
  have habs : (value * precision).natAbs = value.natAbs * precision.toNat := by
    rw [Int.natAbs_mul]
    rfl
  rw [chopPrecisionAndRound, habs, chopAndRound_mul]
  by_cases hneg : value < 0
  · have hmul : value * precision < 0 := Int.mul_neg_of_neg_of_pos hneg (by decide)
    rw [if_pos hmul]
    omega
  · have hmul : ¬ value * precision < 0 := by
      have hnonneg := Int.mul_nonneg (show 0 ≤ value by omega) (show 0 ≤ precision by decide)
      omega
    rw [if_neg hmul]
    omega

theorem ofInt_mul_eq_ok (value : Int) (right product : LegacyDec) :
    (ofInt value).mul right = .ok product ↔
      (value * right.raw).natAbs < limit ∧ product.raw = value * right.raw := by
  have hchop : chopPrecisionAndRound ((ofInt value).raw * right.raw) = value * right.raw := by
    have hcomm : (ofInt value).raw * right.raw = value * right.raw * precision := by
      rw [ofInt]
      ring
    rw [hcomm, chopPrecisionAndRound_mul]
  rw [mul, hchop, inRange_eq_ok]

theorem mulInt_eq_ok (left product : LegacyDec) (right : SdkInt) :
    left.mulInt right = .ok product ↔
      (left.raw * right.value).natAbs < limit ∧ product.raw = left.raw * right.value :=
  inRange_eq_ok _ product

theorem quoInt_eq_ok (left quotient : LegacyDec) (right : SdkInt) :
    left.quoInt right = .ok quotient ↔
      right.value ≠ 0 ∧ quotient.raw = left.raw.tdiv right.value := by
  rw [quoInt]
  split
  case isTrue h => simp [h]
  case isFalse h =>
    simp only [Except.ok.injEq, ne_eq, h, not_false_eq_true, true_and]
    constructor
    · rintro rfl
      rfl
    · intro hraw
      cases quotient
      simp_all

theorem maxDec_raw (left right : LegacyDec) : (left.maxDec right).raw = max left.raw right.raw := by
  by_cases h : left.raw < right.raw
  · simp [maxDec, lt, h, h.le]
  · simp only [maxDec, lt, h, decide_false, Bool.false_eq_true, if_false]
    omega

theorem truncateInt_eq_ok (dec : LegacyDec) (number : SdkInt) :
    dec.truncateInt = .ok number ↔ number.value = dec.raw.tdiv precision :=
  SdkInt.newIntFromBigInt_eq_ok _ number

end LegacyDec

end PosChain
