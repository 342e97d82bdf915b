import PosChain.FeeMarket.BaseFee
import PosChain.Ante.Gas

namespace PosChain.FeeMarket

structure BlockTx where
  gasWanted : UInt64
  gasUsed : UInt64

def totalWanted (txs : List BlockTx) : Nat :=
  (txs.map fun tx => tx.gasWanted.toNat).sum

def totalUsed (txs : List BlockTx) : Nat :=
  (txs.map fun tx => tx.gasUsed.toNat).sum

def anteGas (ctx : Context) (maxTxGasWanted : UInt64) (tx : BlockTx) : Check Unit :=
  Ante.checkBlockGasLimit ctx.maxGas (Ante.updateCumulativeGasWanted false tx.gasWanted maxTxGasWanted 0)

section BeginBlock

variable {decimals : Decimals} {ctx : Context} {s : State} {base floor multiplier : LegacyDec}

theorem tdiv_bounds {value divisor : Int} (hvalue : 0 ≤ value) (hdivisor : 0 ≤ divisor) :
    0 ≤ value.tdiv divisor ∧ value.tdiv divisor ≤ value := by
  rw [Int.tdiv_eq_ediv_of_nonneg hvalue]
  exact ⟨Int.ediv_nonneg hvalue hdivisor, Int.ediv_le_self divisor hvalue⟩

theorem newIntFromUint64_ne {value : UInt64} (h : value ≠ 0) : (SdkInt.newIntFromUint64 value).value ≠ 0 := by
  intro hzero
  have hnat : (value.toNat : Int) = (0 : UInt64).toNat := hzero
  exact h (UInt64.toNat_inj.mp (Int.natCast_inj.mp hnat))

-- With a base fee below 2 ^ 128 no product or sum leaves the range of decimals.
theorem calcGasBaseFee_succeeds {used target denom : UInt64} {unit : LegacyDec} (hbase : 0 ≤ base.raw)
    (hbound : base.raw < 2 ^ 128 * LegacyDec.precision) (hdenom : denom ≠ 0)
    (hunit : 0 ≤ unit.raw ∧ unit.raw ≤ LegacyDec.precision) :
    ∃ new, calcGasBaseFee used target denom base unit (some floor) = .ok new := by
  by_cases heq : used = target
  · exact ⟨base, if_pos heq⟩
  by_cases hzero : target = 0
  · exact ⟨.zeroDec, (if_neg heq).trans (if_pos hzero)⟩
  have husedBound := used.toNat_lt
  have htargetBound := target.toNat_lt
  obtain ⟨delta, hdelta⟩ : ∃ delta : SdkInt, delta.value = (used.toNat : Int) - target.toNat :=
    ⟨⟨(used.toNat : Int) - target.toNat, by omega⟩, rfl⟩
  have hsmall : (delta.value.natAbs : Int) < 2 ^ 64 := by omega
  have hproduct : 0 ≤ delta.value.natAbs * base.raw := Int.mul_nonneg (Int.natCast_nonneg _) hbase
  have hlarge : delta.value.natAbs * base.raw ≤ 2 ^ 64 * base.raw :=
    Int.mul_le_mul_of_nonneg_right hsmall.le hbase
  obtain ⟨hper, hperLe⟩ := tdiv_bounds hproduct (Int.natCast_nonneg target.toNat)
  obtain ⟨hnum, hnumLe⟩ := tdiv_bounds hper (Int.natCast_nonneg denom.toNat)
  have hprecision : LegacyDec.precision = 1000000000000000000 := rfl
  have hlimit : LegacyDec.limit = 2 ^ 256 * 2 ^ 59 := rfl
  simp only [calcGasBaseFee, if_neg heq, if_neg hzero, Check.bind_eq_ok, SdkInt.sub_eq_ok,
    LegacyDec.ofInt_mul_eq_ok, LegacyDec.quoInt_eq_ok]
  by_cases hlt : target < used
  · simp only [if_pos hlt, LegacyDec.add_eq_ok, LegacyDec.maxDec_raw]
    refine ⟨⟨_⟩, delta, hdelta, ⟨_⟩, ⟨?_, rfl⟩, ⟨_⟩, ⟨newIntFromUint64_ne hzero, rfl⟩, ⟨_⟩,
      ⟨newIntFromUint64_ne hdenom, rfl⟩, ?_, rfl⟩
    · omega
    · change (base.raw + max (((delta.value.natAbs * base.raw).tdiv target.toNat).tdiv denom.toNat)
        unit.raw).natAbs < LegacyDec.limit
      omega
  · simp only [if_neg hlt, Check.bind_eq_ok, LegacyDec.sub_eq_ok, Check.pure_eq_ok, notNil, orFail_eq_ok,
      Option.some.injEq, exists_eq_left']
    refine ⟨_, delta, hdelta, ⟨_⟩, ⟨?_, rfl⟩, ⟨_⟩, ⟨newIntFromUint64_ne hzero, rfl⟩, ⟨_⟩,
      ⟨newIntFromUint64_ne hdenom, rfl⟩, ⟨_⟩, ⟨?_, rfl⟩, rfl⟩
    · omega
    · change (base.raw - ((delta.value.natAbs * base.raw).tdiv target.toNat).tdiv denom.toNat).natAbs <
        LegacyDec.limit
      omega

theorem conversionFactor_ne (decimals : Decimals) : decimals.conversionFactor.value ≠ 0 := by
  have hpos : 0 < 10 ^ (18 - decimals.value) := by positivity
  exact Int.natCast_ne_zero.mpr hpos.ne'

theorem unitGas_le (decimals : Decimals) : unitGas decimals ≤ LegacyDec.precision :=
  Int.ediv_le_self _ (by decide)

theorem calculateBaseFee_succeeds (decimals : Decimals) (ctx : Context)
    (hvalid : s.getParams.Valid base floor multiplier) (hbound : base.raw < 2 ^ 128 * LegacyDec.precision) :
    ∃ new, calculateBaseFee decimals ctx s = .ok new := by
  have hdenom : s.getParams.baseFeeChangeDenominator.toUInt64 ≠ 0 := by
    intro hzero
    have hnat : s.getParams.baseFeeChangeDenominator.toNat = 0 := congrArg UInt64.toNat hzero
    have hpos := hvalid.denominator
    omega
  have helasticity : s.getParams.elasticityMultiplier.toUInt64 ≠ 0 := by
    intro hzero
    have hnat : s.getParams.elasticityMultiplier.toNat = 0 := congrArg UInt64.toNat hzero
    have hpos := hvalid.elasticity
    omega
  cases henabled : s.getParams.isBaseFeeEnabled ctx.blockHeight with
  | false =>
    refine ⟨none, ?_⟩
    rw [calculateBaseFee, henabled]
    rfl
  | true =>
    by_cases hheight : ctx.blockHeight = s.getParams.enableHeight
    · refine ⟨s.getParams.baseFee, ?_⟩
      rw [calculateBaseFee, henabled]
      exact if_pos hheight
    · obtain ⟨target, htarget⟩ : ∃ target, (gasLimit ctx.maxGas).quo
          (.newIntFromUint64 s.getParams.elasticityMultiplier.toUInt64) = .ok target := by
        rw [SdkInt.quo, if_neg (newIntFromUint64_ne helasticity)]
        exact ⟨_, rfl⟩
      have hunit : LegacyDec.oneDec.quoInt decimals.conversionFactor = .ok ⟨unitGas decimals⟩ := by
        rw [LegacyDec.quoInt_eq_ok, Int.tdiv_eq_ediv_of_nonneg (by decide)]
        exact ⟨conversionFactor_ne decimals, rfl⟩
      obtain ⟨new, hnew⟩ : ∃ new, calcGasBaseFee s.getBlockGasWanted (uint64 target)
          s.getParams.baseFeeChangeDenominator.toUInt64 base ⟨unitGas decimals⟩ (some floor) = .ok new :=
        calcGasBaseFee_succeeds hvalid.base_nonneg hbound hdenom
          ⟨(unitGas_pos decimals).le, unitGas_le decimals⟩
      simp only [calculateBaseFee, henabled, hvalid.baseFee, hvalid.minGasPrice, if_neg hheight, htarget,
        hunit]
      cases huint : isUint64 target with
      | false =>
        refine ⟨none, ?_⟩
        change (if !isUint64 target then pure none else _ : Check (Option LegacyDec)) = .ok none
        rw [huint]
        rfl
      | true =>
        refine ⟨some new, ?_⟩
        change (if !isUint64 target then pure none else
          (calcGasBaseFee _ _ _ _ _ _ >>= fun fee => pure (some fee)) : Check (Option LegacyDec)) = _
        rw [huint, hnew]
        rfl

theorem beginBlock_succeeds (decimals : Decimals) (ctx : Context)
    (hvalid : s.getParams.Valid base floor multiplier) (hbound : base.raw < 2 ^ 128 * LegacyDec.precision) :
    ∃ t, (beginBlock decimals ctx).run s = .ok () t ∧
      t.getParams.minGasMultiplier = s.getParams.minGasMultiplier := by
  obtain ⟨new, hnew⟩ := calculateBaseFee_succeeds decimals ctx hvalid hbound
  cases new with
  | none =>
    refine ⟨s, ?_, rfl⟩
    rw [beginBlock, run_get_bind, run_lift_bind]
    exact ⟨none, hnew, rfl⟩
  | some new =>
    refine ⟨(s.setBaseFee new).emitEvent ⟨"fee_market", [("base_fee", new.toText)]⟩, ?_, rfl⟩
    rw [beginBlock, run_get_bind, run_lift_bind]
    exact ⟨some new, hnew, rfl⟩

end BeginBlock

section EndBlock

variable {ctx : Context} {s : State} {multiplier : LegacyDec}

def limitedGas (multiplier : LegacyDec) (wanted used : Nat) : Nat :=
  max ((wanted * multiplier.raw) / LegacyDec.precision).toNat used

theorem toInt64_toInt {gas : UInt64} (h : gas.toNat < 2 ^ 63) : gas.toInt64.toInt = gas.toNat := by
  have hbits : gas.toInt64.toInt = gas.toBitVec.toInt := rfl
  have hlt : 2 * gas.toBitVec.toNat < 2 ^ 64 := by
    have hnat : gas.toBitVec.toNat = gas.toNat := rfl
    omega
  rw [hbits, BitVec.toInt_eq_toNat_of_lt hlt]
  rfl

theorem max_mul_ediv (left right : Int) :
    max left (right * LegacyDec.precision) / LegacyDec.precision = max (left / LegacyDec.precision) right := by
  have hmono : Monotone fun value : Int => value / LegacyDec.precision :=
    fun _ _ hle => Int.ediv_le_ediv (by decide) hle
  have hmax := hmono.map_max (a := left) (b := right * LegacyDec.precision)
  rw [hmax, Int.mul_ediv_cancel _ (by decide)]

theorem limitedGas_lt {wanted used : Nat}
    (hone : multiplier.raw ≤ LegacyDec.precision) (hwanted : wanted < 2 ^ 63) (hused : used < 2 ^ 63) :
    limitedGas multiplier wanted used < 2 ^ 63 := by
  have hproduct : wanted * multiplier.raw ≤ wanted * LegacyDec.precision :=
    Int.mul_le_mul_of_nonneg_left hone (Int.natCast_nonneg _)
  have hquotient : wanted * multiplier.raw / LegacyDec.precision ≤ wanted := by
    have hle := Int.ediv_le_ediv (show 0 < LegacyDec.precision by decide) hproduct
    rwa [Int.mul_ediv_cancel _ (by decide)] at hle
  unfold limitedGas
  omega

theorem truncated_eq_limitedGas {wanted used : Nat} (hsign : 0 ≤ multiplier.raw) :
    (max (wanted * multiplier.raw) (LegacyDec.ofInt used).raw).tdiv LegacyDec.precision =
      limitedGas multiplier wanted used := by
  have hproduct : 0 ≤ wanted * multiplier.raw := Int.mul_nonneg (Int.natCast_nonneg _) hsign
  have hquotient : 0 ≤ wanted * multiplier.raw / LegacyDec.precision := Int.ediv_nonneg hproduct (by decide)
  have hraw : (LegacyDec.ofInt used).raw = used * LegacyDec.precision := rfl
  rw [Int.tdiv_eq_ediv_of_nonneg (by omega), hraw, max_mul_ediv, limitedGas]
  omega

def stored (multiplier : LegacyDec) (ctx : Context) (s : State) : State :=
  let gas := UInt64.ofNat (limitedGas multiplier ctx.blockGasWanted.toNat ctx.blockGasUsed.toNat)
  (s.setBlockGasWanted gas).emitEvent ⟨"block_gas",
    [("height", toString ctx.blockHeight.toInt), ("amount", toString gas.toNat)]⟩

theorem endBlock_eq_ok (hmeter : ctx.hasBlockGasMeter = true)
    (hmultiplier : s.getParams.minGasMultiplier = some multiplier) (hsign : 0 ≤ multiplier.raw)
    (hone : multiplier.raw ≤ LegacyDec.precision) (t : State) :
    (endBlock ctx).run s = .ok () t ↔
      (ctx.blockGasWanted.toNat < 2 ^ 63 ∧ ctx.blockGasUsed.toNat < 2 ^ 63) ∧ t = stored multiplier ctx s := by
  have hguard : ∀ gas : UInt64, decide (UInt64.ofNat (2 ^ 63 - 1) < gas) = false ↔ gas.toNat < 2 ^ 63 := by
    intro gas
    rw [decide_eq_false_iff_not, UInt64.lt_iff_toNat_lt]
    change ¬ 2 ^ 63 - 1 < gas.toNat ↔ _
    omega
  simp only [endBlock, run_lift_bind, run_get_bind, run_modify_bind, run_modify_eq_ok, failIf_eq_ok, hmeter,
    Bool.not_true, hguard, notNil, hmultiplier, orFail_eq_ok, Option.some.injEq, exists_eq_left',
    LegacyDec.newDec, LegacyDec.ofInt_mul_eq_ok, LegacyDec.truncateInt_eq_ok, LegacyDec.maxDec_raw,
    exists_const, true_and]
  constructor
  · rintro ⟨hwanted, hused, limited, ⟨-, hlimited⟩, updated, hupdated, rfl⟩
    rw [hlimited, toInt64_toInt hwanted, toInt64_toInt hused, truncated_eq_limitedGas hsign] at hupdated
    have hgas : uint64 updated =
        UInt64.ofNat (limitedGas multiplier ctx.blockGasWanted.toNat ctx.blockGasUsed.toNat) := by
      rw [uint64, hupdated, Int.toNat_natCast]
    exact ⟨⟨hwanted, hused⟩, by rw [hgas]; rfl⟩
  · rintro ⟨⟨hwanted, hused⟩, rfl⟩
    have hlt := limitedGas_lt hone hwanted hused
    have hproduct : ctx.blockGasWanted.toNat * multiplier.raw ≤ 2 ^ 63 * LegacyDec.precision :=
      Int.mul_le_mul (by omega) hone hsign (by decide)
    have hnonneg : 0 ≤ ctx.blockGasWanted.toNat * multiplier.raw :=
      Int.mul_nonneg (Int.natCast_nonneg _) hsign
    rw [toInt64_toInt hwanted, toInt64_toInt hused]
    refine ⟨hwanted, hused, ⟨_⟩, ⟨?_, rfl⟩, ⟨limitedGas multiplier _ _, ?_⟩,
      (truncated_eq_limitedGas hsign).symm, ?_⟩
    · have hprecision : LegacyDec.precision = 1000000000000000000 := rfl
      have hlimit : LegacyDec.limit = 2 ^ 256 * 2 ^ 59 := rfl
      omega
    · omega
    · rfl

end EndBlock

section Block

variable (decimals : Decimals) (ctx : Context) (s : State) (txs : List BlockTx)

theorem blockers_succeed_iff (hvalid : s.getParams.validate = .ok ())
    (hbase : ∀ base, s.getParams.baseFee = some base → base.raw < 2 ^ 128 * LegacyDec.precision)
    (hmeter : ctx.hasBlockGasMeter = true)
    (hwanted : ctx.blockGasWanted.toNat = totalWanted txs) (hused : ctx.blockGasUsed.toNat = totalUsed txs) :
    ∃ t multiplier, (beginBlock decimals ctx).run s = .ok () t ∧
      s.getParams.minGasMultiplier = some multiplier ∧
      ((∃ u, (endBlock ctx).run t = .ok () u ∧
          u.getBlockGasWanted.toNat =
            max ((totalWanted txs * multiplier.raw) / LegacyDec.precision).toNat (totalUsed txs)) ↔
        totalWanted txs < 2 ^ 63 ∧ totalUsed txs < 2 ^ 63) := by
  obtain ⟨base, floor, multiplier, hparams⟩ := Params.validate_eq_ok hvalid
  obtain ⟨t, hbegin, hkept⟩ := beginBlock_succeeds decimals ctx hparams (hbase base hparams.baseFee)
  refine ⟨t, multiplier, hbegin, hparams.minGasMultiplier, ?_⟩
  have hend := endBlock_eq_ok (s := t) hmeter (hkept.trans hparams.minGasMultiplier)
    hparams.multiplier_nonneg hparams.multiplier_le
  simp only [hend, hwanted, hused]
  constructor
  · rintro ⟨u, ⟨hbounds, -⟩, -⟩
    exact hbounds
  · intro hbounds
    refine ⟨_, ⟨hbounds, rfl⟩, ?_⟩
    have hlt := limitedGas_lt hparams.multiplier_le hbounds.1 hbounds.2
    change (UInt64.ofNat (limitedGas multiplier ctx.blockGasWanted.toNat ctx.blockGasUsed.toNat)).toNat = _
    rw [hwanted, hused, UInt64.toNat_ofNat_of_lt' (hlt.trans (by decide))]
    rfl

end Block

-- The default parameters on a chain without a limit on block gas.
section Examples

def unlimitedGas (wanted used : UInt64) : Context where
  blockHeight := 1
  maxGas := some (-1)
  hasBlockGasMeter := true
  blockGasWanted := wanted
  blockGasUsed := used

def genesisState : State where
  params := none
  blockGasWanted := none
  events := []

theorem transfer_block_succeeds :
    ∃ t u, (beginBlock eighteenDecimals (unlimitedGas 50000 21000)).run genesisState = .ok () t ∧
      (endBlock (unlimitedGas 50000 21000)).run t = .ok () u ∧ u.getBlockGasWanted.toNat = 25000 := by
  obtain ⟨t, multiplier, hbegin, hmultiplier, hiff⟩ := blockers_succeed_iff eighteenDecimals
    (unlimitedGas 50000 21000) genesisState [⟨50000, 21000⟩] rfl (by rintro base ⟨⟩; decide) rfl rfl rfl
  obtain ⟨u, hend, hstored⟩ := hiff.mpr (by decide)
  cases hmultiplier
  exact ⟨t, u, hbegin, hend, hstored.trans (by decide +kernel)⟩

-- Two transactions that each declare the largest gas limit stop the chain.
def largestGas : BlockTx :=
  ⟨UInt64.ofNat (2 ^ 63 - 1), 21000⟩

theorem two_largest_gas_limits_halt :
    anteGas (unlimitedGas (UInt64.ofNat (2 ^ 64 - 2)) 42000) 0 largestGas = .ok () ∧
      totalWanted [largestGas, largestGas] = 2 ^ 64 - 2 ∧
      ∃ t, (endBlock (unlimitedGas (UInt64.ofNat (2 ^ 64 - 2)) 42000)).run genesisState =
        .error (.error ("integer overflow by integer type conversion. Gas wanted > MaxInt64. " ++
          "Gas wanted: 18446744073709551614")) t :=
  ⟨rfl, rfl, genesisState, rfl⟩

end Examples

end PosChain.FeeMarket
