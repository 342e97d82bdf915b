import PosChain.FeeMarket.Keeper

namespace PosChain.FeeMarket

-- The update as a function of whole numbers: base fee, smallest step and floor in
-- units of the eighteenth decimal place.
section Update

variable (base unit floor : Int) (used used' target denom : Nat)

def change : Int :=
  base * ((used : Int) - target).natAbs / (target * denom)

def nextBaseFee : Int :=
  if used = target then base
  else if target = 0 then 0
  else if target < used then base + max (change base used target denom) unit
  else max (base - change base used target denom) floor

variable {base unit floor used used' target denom}

theorem change_nonneg (hbase : 0 ≤ base) : 0 ≤ change base used target denom :=
  Int.ediv_nonneg (Int.mul_nonneg hbase (Int.natCast_nonneg _)) (by positivity)

theorem change_mono (hbase : 0 ≤ base) (h : ((used : Int) - target).natAbs ≤ ((used' : Int) - target).natAbs) :
    change base used target denom ≤ change base used' target denom := by
  have hmul : base * ((used : Int) - target).natAbs ≤ base * ((used' : Int) - target).natAbs :=
    Int.mul_le_mul_of_nonneg_left (by omega) hbase
  have hdivisor : 0 ≤ (target * denom : Int) := by positivity
  unfold change
  rcases hdivisor.eq_or_lt with hzero | hpos
  · rw [← hzero, Int.ediv_zero, Int.ediv_zero]
  · exact Int.ediv_le_ediv hpos hmul

theorem nextBaseFee_nonneg (hbase : 0 ≤ base) (hfloor : 0 ≤ floor) :
    0 ≤ nextBaseFee base unit floor used target denom := by
  have hchange : 0 ≤ change base used target denom := change_nonneg hbase
  unfold nextBaseFee
  split_ifs <;> omega

theorem floor_le_nextBaseFee (hbase : 0 ≤ base) (htarget : 0 < target)
    (h : used < target ∨ floor ≤ base) : floor ≤ nextBaseFee base unit floor used target denom := by
  have hchange : 0 ≤ change base used target denom := change_nonneg hbase
  unfold nextBaseFee
  split_ifs <;> omega

theorem base_lt_nextBaseFee (hunit : 0 < unit) (htarget : 0 < target) (h : target < used) :
    base < nextBaseFee base unit floor used target denom := by
  unfold nextBaseFee
  split_ifs <;> omega

theorem nextBaseFee_step (hbase : 0 ≤ base) (hunit : 0 < unit) (htarget : 0 < target) :
    ((nextBaseFee base unit floor used target denom - base).natAbs : Int) ≤
        max unit (change base used target denom) ∨
      used < target ∧ nextBaseFee base unit floor used target denom = floor := by
  have hchange : 0 ≤ change base used target denom := change_nonneg hbase
  unfold nextBaseFee
  split_ifs <;> omega

theorem nextBaseFee_mono (hbase : 0 ≤ base) (hunit : 0 < unit) (htarget : 0 < target) (hused : used ≤ used')
    (h : floor ≤ base ∨ used' < target ∨ target ≤ used) :
    nextBaseFee base unit floor used target denom ≤ nextBaseFee base unit floor used' target denom := by
  have hchange : 0 ≤ change base used target denom := change_nonneg hbase
  have hchange' : 0 ≤ change base used' target denom := change_nonneg hbase
  have habove : target ≤ used → change base used target denom ≤ change base used' target denom :=
    fun _ => change_mono hbase (by omega)
  have hbelow : used' ≤ target → change base used' target denom ≤ change base used target denom :=
    fun _ => change_mono hbase (by omega)
  unfold nextBaseFee
  split_ifs <;> omega

end Update

theorem tdiv_tdiv_eq_change {base : Int} {used target denom : Nat} (hbase : 0 ≤ base) :
    ((((used : Int) - target).natAbs * base).tdiv target).tdiv denom = change base used target denom := by
  have hproduct : 0 ≤ (((used : Int) - target).natAbs : Int) * base :=
    Int.mul_nonneg (Int.natCast_nonneg _) hbase
  have hquotient : 0 ≤ (((used : Int) - target).natAbs * base) / (target : Int) :=
    Int.ediv_nonneg hproduct (Int.natCast_nonneg _)
  rw [Int.tdiv_eq_ediv_of_nonneg hproduct, Int.tdiv_eq_ediv_of_nonneg hquotient,
    Int.ediv_ediv_of_nonneg (Int.natCast_nonneg _), Int.mul_comm]
  rfl

theorem calcGasBaseFee_raw {used target denom : UInt64} {base unit floor new : LegacyDec}
    (hbase : 0 ≤ base.raw) (h : calcGasBaseFee used target denom base unit (some floor) = .ok new) :
    new.raw = nextBaseFee base.raw unit.raw floor.raw used.toNat target.toNat denom.toNat := by
  rw [calcGasBaseFee] at h
  rw [nextBaseFee]
  by_cases heq : used = target
  · rw [if_pos heq, Check.pure_eq_ok] at h
    rw [if_pos (congrArg UInt64.toNat heq), h]
  rw [if_neg heq] at h
  rw [if_neg (fun hnat => heq (UInt64.toNat_inj.mp hnat))]
  have htarget : target.toNat = 0 ↔ target = 0 := by
    rw [← UInt64.toNat_inj]
    rfl
  by_cases hzero : target = 0
  · rw [if_pos hzero, Check.pure_eq_ok] at h
    rw [if_pos (htarget.mpr hzero), ← h]
    rfl
  rw [if_neg hzero] at h
  rw [if_neg (fun hnat => hzero (htarget.mp hnat))]
  simp only [Check.bind_eq_ok, SdkInt.sub_eq_ok, LegacyDec.ofInt_mul_eq_ok, LegacyDec.quoInt_eq_ok] at h
  obtain ⟨delta, hdelta, product, ⟨-, hproduct⟩, perTarget, ⟨-, hperTarget⟩, num, ⟨-, hnum⟩, h⟩ := h
  have hchange : num.raw = change base.raw used.toNat target.toNat denom.toNat := by
    rw [hnum, hperTarget, hproduct, hdelta]
    exact tdiv_tdiv_eq_change hbase
  by_cases hlt : target < used
  · rw [if_pos hlt, LegacyDec.add_eq_ok] at h
    rw [if_pos (UInt64.lt_iff_toNat_lt.mp hlt), h.2, LegacyDec.maxDec_raw, hchange]
  · simp only [if_neg hlt, Check.bind_eq_ok, LegacyDec.sub_eq_ok, Check.pure_eq_ok, notNil, orFail_eq_ok,
      Option.some.injEq, exists_eq_left'] at h
    obtain ⟨difference, ⟨-, hdifference⟩, rfl⟩ := h
    rw [if_neg (fun hnat => hlt (UInt64.lt_iff_toNat_lt.mpr hnat)), LegacyDec.maxDec_raw, hdifference,
      hchange]

structure Params.Valid (p : Params) (base floor multiplier : LegacyDec) : Prop where
  denominator : 0 < p.baseFeeChangeDenominator.toNat
  elasticity : 0 < p.elasticityMultiplier.toNat
  baseFee : p.baseFee = some base
  minGasPrice : p.minGasPrice = some floor
  minGasMultiplier : p.minGasMultiplier = some multiplier
  base_nonneg : 0 ≤ base.raw
  floor_nonneg : 0 ≤ floor.raw
  multiplier_nonneg : 0 ≤ multiplier.raw
  multiplier_le : multiplier.raw ≤ LegacyDec.precision

theorem toNat_pos_of_ne {n : UInt32} (h : (n == 0) = false) : 0 < n.toNat := by
  have hne : n ≠ 0 := by simpa using h
  have hnat : n.toNat ≠ 0 := fun hzero => hne (UInt32.toNat_inj.mp hzero)
  omega

theorem Params.validate_eq_ok {p : Params} (h : p.validate = .ok ()) :
    ∃ base floor multiplier, p.Valid base floor multiplier := by
  simp only [validate, validateMinGasMultiplier, validateMinGasPrice, notNil, Check.bind_eq_ok,
    failIf_eq_ok, orFail_eq_ok, exists_const] at h
  obtain ⟨hdenominator, base, hbase, hbaseSign, -, helasticity, ⟨multiplier, hmultiplier, hsign, hone⟩,
    floor, hfloor, hfloorSign⟩ := h
  exact ⟨base, floor, multiplier, toNat_pos_of_ne hdenominator, toNat_pos_of_ne helasticity, hbase, hfloor,
    hmultiplier, not_lt.mp (of_decide_eq_false hbaseSign), not_lt.mp (of_decide_eq_false hfloorSign),
    not_lt.mp (of_decide_eq_false hsign), not_lt.mp (of_decide_eq_false hone)⟩

def gasTarget (maxGas : Option Int64) (p : Params) : Nat :=
  (gasLimit maxGas).value.toNat / p.elasticityMultiplier.toNat

-- The smallest step up: one unit of the EVM coin with eighteen decimals.
def unitGas (decimals : Decimals) : Int :=
  LegacyDec.precision / decimals.conversionFactor.value

theorem unitGas_pos (decimals : Decimals) : 0 < unitGas decimals := by
  refine Int.ediv_pos_of_pos_of_dvd ?_ ?_ ?_
  · decide
  · exact Int.natCast_nonneg _
  · exact Int.natCast_dvd_natCast.mpr (Nat.pow_dvd_pow 10 (Nat.sub_le 18 _))

theorem gasLimit_bounds (maxGas : Option Int64) :
    0 ≤ (gasLimit maxGas).value ∧ (gasLimit maxGas).value < 2 ^ 64 := by
  match maxGas with
  | none => decide
  | some maxGas =>
    rw [gasLimit]
    split
    case isTrue h =>
      have hlt := Int64.lt_iff_toInt_lt.mp h
      have hbound := maxGas.toInt_lt
      have hminus : (-1 : Int64).toInt = -1 := rfl
      simp only [SdkInt.newInt]
      omega
    case isFalse => decide

theorem calculateBaseFee_eq_some {decimals : Decimals} {ctx : Context} {s : State}
    {base floor multiplier new : LegacyDec} (hvalid : s.getParams.Valid base floor multiplier)
    (hafter : s.getParams.enableHeight < ctx.blockHeight)
    (h : calculateBaseFee decimals ctx s = .ok (some new)) :
    new.raw = nextBaseFee base.raw (unitGas decimals) floor.raw s.getBlockGasWanted.toNat
      (gasTarget ctx.maxGas s.getParams) s.getParams.baseFeeChangeDenominator.toNat := by
  have hne : ¬ ctx.blockHeight = s.getParams.enableHeight := fun heq => Int64.lt_irrefl (heq ▸ hafter)
  cases henabled : s.getParams.isBaseFeeEnabled ctx.blockHeight with
  | false =>
    rw [calculateBaseFee, henabled] at h
    cases h
  | true =>
    simp only [calculateBaseFee, henabled, hvalid.baseFee, hvalid.minGasPrice, Bool.not_true,
      Bool.false_eq_true, if_false, if_neg hne, Check.bind_eq_ok, SdkInt.quo_eq_ok] at h
    obtain ⟨target, ⟨-, htarget⟩, h⟩ := h
    have hvalue : target.value = gasTarget ctx.maxGas s.getParams := by
      rw [htarget, Int.tdiv_eq_ediv_of_nonneg (gasLimit_bounds _).1, gasTarget, Int.natCast_ediv,
        Int.toNat_of_nonneg (gasLimit_bounds _).1]
      rfl
    have hlt : gasTarget ctx.maxGas s.getParams < 2 ^ 64 := by
      have hle : gasTarget ctx.maxGas s.getParams ≤ (gasLimit ctx.maxGas).value.toNat := Nat.div_le_self _ _
      have hbound := (gasLimit_bounds ctx.maxGas).2
      omega
    have huint : isUint64 target = true := by
      simp only [isUint64, Bool.and_eq_true, decide_eq_true_eq]
      omega
    have hnat : (uint64 target).toNat = gasTarget ctx.maxGas s.getParams := by
      rw [uint64, hvalue, Int.toNat_natCast, UInt64.toNat_ofNat_of_lt' hlt]
    simp only [huint, Bool.not_true, Bool.false_eq_true, if_false, Check.bind_eq_ok, Check.pure_eq_ok,
      LegacyDec.quoInt_eq_ok, Option.some.injEq] at h
    obtain ⟨unit, ⟨-, hunit⟩, result, hresult, rfl⟩ := h
    have hraw := calcGasBaseFee_raw hvalid.base_nonneg hresult
    rw [hnat, hunit, Int.tdiv_eq_ediv_of_nonneg (by decide)] at hraw
    exact hraw

-- How the new base fee relates to the old one. Without a target every use of gas
-- sets the fee to zero. The floor is kept from below the target, or when the old
-- fee was not under it.
structure UpdateLaw (base floor unit new : Int) (used target denom : Nat) : Prop where
  nonneg : 0 ≤ new
  no_target : target = 0 → new = if used = 0 then base else 0
  at_target : used = target → new = base
  floor_le : 0 < target → used < target ∨ floor ≤ base → floor ≤ new
  raised : 0 < target → target < used → base < new
  step : 0 < target →
    ((new - base).natAbs : Int) ≤ max unit (base * ((used : Int) - target).natAbs / (target * denom)) ∨
      used < target ∧ new = floor

theorem nextBaseFee_law {base floor unit : Int} {used target denom : Nat} (hbase : 0 ≤ base)
    (hfloor : 0 ≤ floor) (hunit : 0 < unit) :
    UpdateLaw base floor unit (nextBaseFee base unit floor used target denom) used target denom where
  nonneg := nextBaseFee_nonneg hbase hfloor
  no_target htarget := by
    subst htarget
    rfl
  at_target hused := if_pos hused
  floor_le htarget h := floor_le_nextBaseFee hbase htarget h
  raised htarget h := base_lt_nextBaseFee hunit htarget h
  step htarget := nextBaseFee_step hbase hunit htarget

theorem calculateBaseFee_law (decimals : Decimals) (ctx : Context) (s : State) (new : LegacyDec)
    (hvalid : s.getParams.validate = .ok ()) (hafter : s.getParams.enableHeight < ctx.blockHeight)
    (h : calculateBaseFee decimals ctx s = .ok (some new)) :
    ∃ base floor, s.getParams.baseFee = some base ∧ s.getParams.minGasPrice = some floor ∧
      UpdateLaw base.raw floor.raw (unitGas decimals) new.raw s.getBlockGasWanted.toNat
        (gasTarget ctx.maxGas s.getParams) s.getParams.baseFeeChangeDenominator.toNat ∧
      ∀ s' new', s'.getParams = s.getParams → s.getBlockGasWanted ≤ s'.getBlockGasWanted →
        calculateBaseFee decimals ctx s' = .ok (some new') → 0 < gasTarget ctx.maxGas s.getParams →
        floor.raw ≤ base.raw ∨ s'.getBlockGasWanted.toNat < gasTarget ctx.maxGas s.getParams ∨
          gasTarget ctx.maxGas s.getParams ≤ s.getBlockGasWanted.toNat →
        new.raw ≤ new'.raw := by
  obtain ⟨base, floor, multiplier, hparams⟩ := Params.validate_eq_ok hvalid
  have hnew := calculateBaseFee_eq_some hparams hafter h
  refine ⟨base, floor, hparams.baseFee, hparams.minGasPrice, ?_, ?_⟩
  · rw [hnew]
    exact nextBaseFee_law hparams.base_nonneg hparams.floor_nonneg (unitGas_pos decimals)
  · intro s' new' hsame hused h' htarget hside
    have hnew' := calculateBaseFee_eq_some (hsame ▸ hparams) (hsame ▸ hafter) h'
    rw [hsame] at hnew'
    rw [hnew, hnew']
    exact nextBaseFee_mono hparams.base_nonneg (unitGas_pos decimals) htarget
      (UInt64.le_iff_toNat_le.mp hused) hside

-- A chain whose blocks have a gas limit of one hundred.
section Examples

def hundredGas : Context where
  blockHeight := 1
  maxGas := some 100
  hasBlockGasMeter := true
  blockGasWanted := 0
  blockGasUsed := 0

def afterGas (minGasPrice : Int64) (gas : UInt64) : State where
  params := some { defaultParams with minGasPrice := some (.newDec minGasPrice) }
  blockGasWanted := some gas
  events := []

theorem full_block_raises_fee :
    ∃ base floor, (afterGas 0 100).getParams.baseFee = some base ∧
      (afterGas 0 100).getParams.minGasPrice = some floor ∧ base.raw < (LegacyDec.newDec 1125000000).raw := by
  obtain ⟨base, floor, hbase, hfloor, hlaw, -⟩ := calculateBaseFee_law eighteenDecimals hundredGas
    (afterGas 0 100) (.newDec 1125000000) rfl (by decide) rfl
  exact ⟨base, floor, hbase, hfloor, hlaw.raised (by decide) (by decide)⟩

-- With a minimum above the fee, a block at its target keeps the fee below it, while
-- a block under its target is raised to it.
theorem floor_missed_at_target :
    (afterGas 1500000000 50).getParams.validate = .ok () ∧
      calculateBaseFee eighteenDecimals hundredGas (afterGas 1500000000 25) =
        .ok (some (.newDec 1500000000)) ∧
      calculateBaseFee eighteenDecimals hundredGas (afterGas 1500000000 50) =
        .ok (some (.newDec 1000000000)) :=
  ⟨rfl, rfl, rfl⟩

end Examples

end PosChain.FeeMarket
