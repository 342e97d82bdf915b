import PosChain.Base.Json.Theorems
import PosChain.Base.Share
import PosChain.Incentives.Types

namespace PosChain.Incentives

section Amounts

theorem toText_of_nonneg (number : SdkInt) (h : 0 ≤ number.value) :
    number.toText = toString number.value.toNat := by
  rw [SdkInt.toText]
  conv_lhs => rw [← Int.toNat_of_nonneg h]
  rfl

theorem parseAtomicAmount_eq_ok (text : String) (number : SdkInt) :
    parseAtomicAmount text = .ok number ↔ BigInt.setString text 10 = some number.value := by
  simp only [parseAtomicAmount, Check.bind_eq_ok, orFail_eq_ok, SdkInt.newIntFromBigInt_eq_ok]
  constructor
  · rintro ⟨value, hv, he⟩
    rw [hv, he]
  · intro h
    exact ⟨number.value, h, rfl⟩

theorem parseAtomicAmount_toText (number : SdkInt) (h : 0 ≤ number.value) :
    parseAtomicAmount number.toText = .ok number := by
  rw [parseAtomicAmount_eq_ok, toText_of_nonneg number h]
  have hread := BigInt.setString_repr number.value.toNat 10 (Or.inr rfl)
  rw [Int.toNat_of_nonneg h] at hread
  exact hread

theorem parseField_eq_ok (name text : String) (number : SdkInt) :
    PeriodState.parseField name text = .ok number ↔
      parseAtomicAmount text = .ok number ∧ 0 ≤ number.value := by
  simp only [PeriodState.parseField, Check.bind_eq_ok, annotate_eq_ok, failIf_eq_ok, exists_const,
    Check.pure_eq_ok, SdkInt.isNegative, decide_eq_false_iff_not, not_lt]
  constructor
  · rintro ⟨amount, hread, hnonneg, rfl⟩
    exact ⟨hread, hnonneg⟩
  · rintro ⟨hread, hnonneg⟩
    exact ⟨number, hread, hnonneg, rfl⟩

end Amounts

-- The policy's formulas. Every product that fits is divided exactly.
section Policy

theorem mul_quo_eq_ok (left right divisor result : SdkInt) :
    (do let product ← left.mul right; product.quo divisor) = .ok result ↔
      (left.value * right.value).natAbs < 2 ^ 256 ∧ divisor.value ≠ 0 ∧
        result.value = (left.value * right.value).tdiv divisor.value := by
  simp only [Check.bind_eq_ok, SdkInt.mul_eq_ok, SdkInt.quo_eq_ok]
  constructor
  · rintro ⟨product, hproduct, hdivisor, hresult⟩
    rw [← hproduct]
    exact ⟨product.bounded, hdivisor, hresult⟩
  · rintro ⟨hbound, hdivisor, hresult⟩
    exact ⟨⟨_, hbound⟩, rfl, hdivisor, hresult⟩

@[simp] theorem value_newIntFromUint64 (value : UInt64) :
    (SdkInt.newIntFromUint64 value).value = value.toNat := rfl

theorem newIntFromUint64_ne_zero {value : UInt64} (h : value ≠ 0) :
    (SdkInt.newIntFromUint64 value).value ≠ 0 := by
  rw [value_newIntFromUint64]
  have hne : value.toNat ≠ 0 := fun hz => h (UInt64.toNat.inj hz)
  exact_mod_cast hne

@[simp] theorem value_toInt64 (value : UInt32) :
    (SdkInt.newInt (toInt64 value)).value = value.toNat := by
  have h := value.toNat_lt
  have h' : (value.toNat : Int) < 2 ^ 63 := by omega
  simp [SdkInt.newInt, toInt64, Int64.toInt_ofNat_of_lt (show value.toNat < 2 ^ 63 by omega)]

theorem mul_quo_share {left right divisor : SdkInt} (hl : 0 ≤ left.value) (hr : 0 ≤ right.value)
    (hd : divisor.value ≠ 0) (result : SdkInt) :
    (do let product ← left.mul right; product.quo divisor) = .ok result ↔
      left.value * right.value < 2 ^ 256 ∧
        result.value = share left.value right.value divisor.value := by
  have hproduct : 0 ≤ left.value * right.value := Int.mul_nonneg hl hr
  have hbound : (left.value * right.value).natAbs < 2 ^ 256 ↔ left.value * right.value < 2 ^ 256 := by
    omega
  rw [mul_quo_eq_ok, hbound, Int.tdiv_eq_ediv_of_nonneg hproduct, share]
  simp [hd]

theorem exists_share {whole elapsed parts : Int} (hw : 0 ≤ whole) (he : 0 ≤ elapsed) (hp : 0 < parts)
    (hb : whole * elapsed < 2 ^ 256) : ∃ number : SdkInt, number.value = share whole elapsed parts := by
  have hnonneg := share_nonneg hw he hp
  have hle : share whole elapsed parts ≤ whole * elapsed :=
    Int.ediv_le_self _ (Int.mul_nonneg hw he)
  refine ⟨⟨share whole elapsed parts, ?_⟩, rfl⟩
  omega

theorem annualizedRewardCapacity_eq_ok (balance result : SdkInt) (rate : UInt32) :
    annualizedRewardCapacity balance rate = .ok result ↔
      0 ≤ balance.value ∧ rate ≤ basisPointDenominator ∧ balance.value * rate.toNat < 2 ^ 256 ∧
        result.value = share balance.value rate.toNat 10000 := by
  simp only [annualizedRewardCapacity, Check.bind_eq_ok, failIf_eq_ok, exists_const,
    SdkInt.isNegative, decide_eq_false_iff_not, not_lt, gt_iff_lt, UInt32.not_lt]
  refine and_congr_right fun hbalance => and_congr_right fun _ => ?_
  rw [← Check.bind_eq_ok, mul_quo_share hbalance (by simp) (by decide), value_toInt64, value_toInt64]
  rfl

theorem periodProvision_eq_ok (annualized result : SdkInt) (period year : UInt64) :
    periodProvision annualized period year = .ok result ↔
      0 ≤ annualized.value ∧ period ≠ 0 ∧ year ≠ 0 ∧ period ≤ year ∧
        annualized.value * period.toNat < 2 ^ 256 ∧
        result.value = share annualized.value period.toNat year.toNat := by
  simp only [periodProvision, Check.bind_eq_ok, failIf_eq_ok, exists_const, SdkInt.isNegative,
    decide_eq_false_iff_not, not_lt, gt_iff_lt, UInt64.not_lt, beq_eq_false_iff_ne]
  refine and_congr_right fun hannualized => and_congr_right fun _ => and_congr_right fun hyear =>
    and_congr_right fun _ => ?_
  rw [← Check.bind_eq_ok, mul_quo_share hannualized (by simp) (newIntFromUint64_ne_zero hyear)]
  rfl

theorem cumulativeProvision_eq_ok (provision result : SdkInt) (elapsed period : UInt64) :
    cumulativeProvision provision elapsed period = .ok result ↔
      0 ≤ provision.value ∧ period ≠ 0 ∧ elapsed ≤ period ∧
        provision.value * elapsed.toNat < 2 ^ 256 ∧
        result.value = share provision.value elapsed.toNat period.toNat := by
  simp only [cumulativeProvision, Check.bind_eq_ok, failIf_eq_ok, exists_const, SdkInt.isNegative,
    decide_eq_false_iff_not, not_lt, gt_iff_lt, UInt64.not_lt, beq_eq_false_iff_ne]
  refine and_congr_right fun hprovision => and_congr_right fun hperiod => and_congr_right fun _ => ?_
  rw [← Check.bind_eq_ok, mul_quo_share hprovision (by simp) (newIntFromUint64_ne_zero hperiod)]
  rfl

theorem derivedAPYBasisPoints_eq_ok (annualized bonded result : SdkInt) :
    derivedAPYBasisPoints annualized bonded = .ok result ↔
      0 ≤ annualized.value ∧ 0 ≤ bonded.value ∧
        ((bonded.value = 0 ∧ result.value = 0) ∨
          (bonded.value ≠ 0 ∧ annualized.value * 10000 < 2 ^ 256 ∧
            result.value = share annualized.value 10000 bonded.value)) := by
  simp only [derivedAPYBasisPoints, Check.bind_eq_ok, failIf_eq_ok, exists_const, SdkInt.isNegative,
    decide_eq_false_iff_not, not_lt]
  refine and_congr_right fun hannualized => and_congr_right fun _ => ?_
  by_cases hz : bonded.value = 0
  · have hzero : SdkInt.zeroInt = result ↔ result.value = 0 := by
      rw [← SdkInt.ofInt?_eq_some, SdkInt.ofInt?_of_lt 0 (by decide), Option.some.injEq]
      rfl
    simp [SdkInt.isZero, hz, Check.pure_eq_ok, hzero]
  · rw [if_neg (by simpa [SdkInt.isZero] using hz), mul_quo_share hannualized (by simp) hz,
      value_toInt64]
    simp [hz, basisPointDenominator]

end Policy

structure PeriodState.Sound (p : PeriodState) (snapshot provision paid : SdkInt) : Prop where
  ordered : p.startBlock < p.endBlock
  rate_le : p.treasuryReleaseRateBasisPoints ≤ basisPointDenominator
  snapshot_read : parseAtomicAmount p.treasuryBalanceAtomic = .ok snapshot
  provision_read : parseAtomicAmount p.periodProvisionAtomic = .ok provision
  paid_read : parseAtomicAmount p.distributedAtomic = .ok paid
  others_read : ∀ text ∈ [p.eligibleBondedAtomic, p.annualizedCapacityAtomic, p.derivedAPYBasisPoints],
    ∃ amount, parseAtomicAmount text = .ok amount ∧ 0 ≤ amount.value
  paid_nonneg : 0 ≤ paid.value
  paid_le : paid.value ≤ provision.value
  provision_le : provision.value ≤ snapshot.value

section Period

theorem PeriodState.validate_eq_ok (p : PeriodState) :
    p.validate = .ok () ↔ ∃ snapshot provision paid, p.Sound snapshot provision paid := by
  simp only [PeriodState.validate, Check.bind_eq_ok, failIf_eq_ok, exists_const, parseField_eq_ok,
    decide_eq_false_iff_not, UInt64.not_le, gt_iff_lt, UInt32.not_lt, SdkInt.gt, not_lt]
  constructor
  · rintro ⟨hordered, hrate, snapshot, ⟨hsnapshot, -⟩, bonded, hbonded, annualized, hannualized, apy,
      hapy, provision, ⟨hprovision, -⟩, paid, ⟨hpaid, hnonneg⟩, hle, hle'⟩
    refine ⟨snapshot, provision, paid, hordered, hrate, hsnapshot, hprovision, hpaid, ?_, hnonneg,
      hle, hle'⟩
    simp only [List.mem_cons, List.not_mem_nil, or_false, forall_eq_or_imp, forall_eq]
    exact ⟨⟨bonded, hbonded⟩, ⟨annualized, hannualized⟩, ⟨apy, hapy⟩⟩
  · rintro ⟨snapshot, provision, paid, h⟩
    have hothers := h.others_read
    simp only [List.mem_cons, List.not_mem_nil, or_false, forall_eq_or_imp, forall_eq] at hothers
    obtain ⟨⟨bonded, hbonded⟩, ⟨annualized, hannualized⟩, ⟨apy, hapy⟩⟩ := hothers
    have hprovision : 0 ≤ provision.value := h.paid_nonneg.trans h.paid_le
    exact ⟨h.ordered, h.rate_le, snapshot, ⟨h.snapshot_read, hprovision.trans h.provision_le⟩,
      bonded, hbonded, annualized, hannualized, apy, hapy, provision, ⟨h.provision_read, hprovision⟩,
      paid, ⟨h.paid_read, h.paid_nonneg⟩, h.paid_le, h.provision_le⟩

theorem Params.validate_eq_ok (p : Params) :
    p.validate = .ok () ↔ p.treasuryReleaseRateBasisPoints ≤ basisPointDenominator ∧
      p.blocksPerYear ≠ 0 ∧ p.calculationPeriodBlocks ≠ 0 ∧
      p.calculationPeriodBlocks ≤ p.blocksPerYear := by
  simp only [Params.validate, Check.bind_eq_ok, failIf_eq_ok, exists_const, decide_eq_false_iff_not,
    gt_iff_lt, UInt32.not_lt, UInt64.not_lt, beq_eq_false_iff_ne]

theorem le_maxUint64_sub (start period : UInt64) :
    start ≤ maxUint64 - period ↔ start.toNat + period.toNat < 2 ^ 64 := by
  have hperiod : period ≤ maxUint64 := by
    rw [UInt64.le_iff_toNat_le]
    have h := period.toNat_lt
    have hmax : maxUint64.toNat = 2 ^ 64 - 1 := rfl
    omega
  rw [UInt64.le_iff_toNat_le, UInt64.toNat_sub_of_le _ _ hperiod]
  have h := period.toNat_lt
  have hmax : maxUint64.toNat = 2 ^ 64 - 1 := rfl
  omega

theorem toNat_ne_zero {value : UInt64} (h : value ≠ 0) : 0 < value.toNat :=
  Nat.pos_of_ne_zero fun hz => h (UInt64.toNat.inj hz)

def provisionFor (params : Params) (bonded balance : Int) : Int :=
  if 0 < bonded then
    share (share balance params.treasuryReleaseRateBasisPoints.toNat 10000)
      params.calculationPeriodBlocks.toNat params.blocksPerYear.toNat
  else 0

theorem provisionFor_bounds {params : Params} (hp : params.validate = .ok ()) (bonded : Int)
    {balance : Int} (hb : 0 ≤ balance) :
    0 ≤ provisionFor params bonded balance ∧ provisionFor params bonded balance ≤ balance := by
  obtain ⟨hrate, hyear, hperiod, hle⟩ := (Params.validate_eq_ok params).mp hp
  have hyear := toNat_ne_zero hyear
  rw [UInt64.le_iff_toNat_le] at hle
  rw [UInt32.le_iff_toNat_le, show basisPointDenominator.toNat = 10000 from rfl] at hrate
  have hannual : 0 ≤ share balance params.treasuryReleaseRateBasisPoints.toNat 10000 :=
    share_nonneg hb (by omega) (by omega)
  have hannual' : share balance params.treasuryReleaseRateBasisPoints.toNat 10000 ≤ balance :=
    share_le hb (by omega) (by omega)
  rw [provisionFor]
  split
  · exact ⟨share_nonneg hannual (by omega) (by omega),
      (share_le hannual (by omega) (by omega)).trans hannual'⟩
  · exact ⟨le_refl 0, hb⟩

structure PeriodState.Opened (p : PeriodState) (start : UInt64) (bonded balance : SdkInt)
    (params : Params) (provision : SdkInt) : Prop where
  sound : p.Sound balance provision SdkInt.zeroInt
  start_eq : p.startBlock = start
  end_eq : p.endBlock.toNat = start.toNat + params.calculationPeriodBlocks.toNat
  provision_eq : provision.value = provisionFor params bonded.value balance.value

theorem newPeriodState_ok {start : UInt64} {bonded balance : SdkInt} {params : Params}
    {p : PeriodState} (h : newPeriodState start bonded balance params = .ok p) :
    ∃ provision, p.Opened start bonded balance params provision := by
  simp only [newPeriodState, Check.bind_eq_ok, failIf_eq_ok, exists_const, decide_eq_false_iff_not,
    gt_iff_lt, UInt64.not_lt, le_maxUint64_sub, SdkInt.isNegative, not_lt,
    annualizedRewardCapacity_eq_ok, derivedAPYBasisPoints_eq_ok, Check.pure_eq_ok] at h
  obtain ⟨⟨⟩, hparams, hroom, hbonded, annualized, ⟨hbalance, -, -, hannualized⟩, apy,
    ⟨hannual, -, hapy⟩, provision, hprovision, rfl⟩ := h
  obtain ⟨hrate, hyear, hperiod, hle⟩ := (Params.validate_eq_ok params).mp hparams
  have hvalue : provision.value = provisionFor params bonded.value balance.value := by
    rw [provisionFor]
    rw [bondedProvision] at hprovision
    split at hprovision
    case isTrue hpos =>
      rw [if_pos (by simpa [SdkInt.isPositive] using hpos), ← hannualized]
      exact ((periodProvision_eq_ok _ _ _ _).mp hprovision).2.2.2.2.2
    case isFalse hpos =>
      rw [if_neg (by simpa [SdkInt.isPositive] using hpos)]
      rw [Check.pure_eq_ok] at hprovision
      rw [← hprovision]
      rfl
  obtain ⟨hnonneg, hsnapshot⟩ := provisionFor_bounds hparams bonded.value hbalance
  rw [← hvalue] at hnonneg hsnapshot
  have hend : (start + params.calculationPeriodBlocks).toNat =
      start.toNat + params.calculationPeriodBlocks.toNat := by
    rw [UInt64.toNat_add, Nat.mod_eq_of_lt hroom]
  have hapy : 0 ≤ apy.value := by
    rcases hapy with ⟨-, hzero⟩ | ⟨hne, -, hvalue⟩
    · exact hzero.ge
    · rw [hvalue]
      exact share_nonneg hannual (by omega) (by omega)
  refine ⟨provision, ⟨?_, hrate, parseAtomicAmount_toText _ hbalance,
    parseAtomicAmount_toText _ hnonneg, ?_, ?_, le_refl 0, hnonneg, hsnapshot⟩, rfl, hend, hvalue⟩
  · have hpos := toNat_ne_zero hperiod
    have hlt : start.toNat < (start + params.calculationPeriodBlocks).toNat := by omega
    exact UInt64.lt_iff_toNat_lt.mpr hlt
  · exact parseAtomicAmount_toText SdkInt.zeroInt (le_refl 0)
  · simp only [List.mem_cons, List.not_mem_nil, or_false, forall_eq_or_imp, forall_eq]
    exact ⟨⟨bonded, parseAtomicAmount_toText _ hbonded, hbonded⟩,
      ⟨annualized, parseAtomicAmount_toText _ hannual, hannual⟩,
      ⟨apy, parseAtomicAmount_toText _ hapy, hapy⟩⟩

-- With a treasury below 2^192 no product overflows.
theorem newPeriodState_succeeds {start : UInt64} {bonded balance : SdkInt} {params : Params}
    (hparams : params.validate = .ok ()) (hbonded : 0 ≤ bonded.value) (hbalance : 0 ≤ balance.value)
    (hsmall : balance.value < 2 ^ 192) (hroom : start.toNat + params.calculationPeriodBlocks.toNat < 2 ^ 64) :
    ∃ p, newPeriodState start bonded balance params = .ok p := by
  obtain ⟨hrate, hyear, hperiod, hle⟩ := (Params.validate_eq_ok params).mp hparams
  have hrate' : params.treasuryReleaseRateBasisPoints.toNat ≤ 10000 := UInt32.le_iff_toNat_le.mp hrate
  have hannual : 0 ≤ share balance.value params.treasuryReleaseRateBasisPoints.toNat 10000 :=
    share_nonneg hbalance (by omega) (by omega)
  have hannual' : share balance.value params.treasuryReleaseRateBasisPoints.toNat 10000 ≤ balance.value :=
    share_le hbalance (by omega) (by omega)
  have hproduct : balance.value * params.treasuryReleaseRateBasisPoints.toNat < 2 ^ 256 := by
    nlinarith
  obtain ⟨annualized, hvalue⟩ := exists_share hbalance
    (Int.natCast_nonneg params.treasuryReleaseRateBasisPoints.toNat) (show 0 < 10000 by omega) hproduct
  rw [← hvalue] at hannual hannual'
  have hannualized := (annualizedRewardCapacity_eq_ok _ _ _).mpr ⟨hbalance, hrate, hproduct, hvalue⟩
  obtain ⟨apy, hapy⟩ : ∃ apy, derivedAPYBasisPoints annualized bonded = .ok apy := by
    simp only [derivedAPYBasisPoints_eq_ok]
    rcases hbonded.eq_or_lt with hzero | hpos
    · exact ⟨SdkInt.zeroInt, hannual, hbonded, Or.inl ⟨hzero.symm, rfl⟩⟩
    · obtain ⟨apy, hapy⟩ := exists_share hannual (show 0 ≤ 10000 by omega) hpos (by omega)
      exact ⟨apy, hannual, hbonded, Or.inr ⟨hpos.ne', by omega, hapy⟩⟩
  obtain ⟨provision, hprovision⟩ : ∃ provision, bondedProvision annualized bonded params =
      .ok provision := by
    rw [bondedProvision]
    split
    · have hblocks := params.calculationPeriodBlocks.toNat_lt
      have hshare : annualized.value * params.calculationPeriodBlocks.toNat < 2 ^ 256 := by
        nlinarith
      obtain ⟨provision, hprovision⟩ := exists_share hannual
        (Int.natCast_nonneg params.calculationPeriodBlocks.toNat)
        (Int.natCast_pos.mpr (toNat_ne_zero hyear)) hshare
      exact ⟨provision, (periodProvision_eq_ok _ _ _ _).mpr
        ⟨hannual, hperiod, hyear, hle, hshare, hprovision⟩⟩
    · exact ⟨SdkInt.zeroInt, rfl⟩
  simp only [newPeriodState, Check.bind_eq_ok, failIf_eq_ok, exists_const, decide_eq_false_iff_not,
    gt_iff_lt, UInt64.not_lt, le_maxUint64_sub, SdkInt.isNegative, not_lt, Check.pure_eq_ok]
  exact ⟨_, (), hparams, hroom, hbonded, annualized, hannualized, apy, hapy, provision, hprovision, rfl⟩

end Period

section Json

theorem PeriodState.toJson_proper (p : PeriodState) : Json.Proper p.toJson := by
  simp [PeriodState.toJson, Json.Proper, Json.ProperMembers, Json.numberLiteral_toDigits]

def periodStateKeys : List String :=
  ["start_block", "end_block", "treasury_release_rate_basis_points", "treasury_balance_atomic",
    "eligible_bonded_atomic", "annualized_capacity_atomic", "derived_apy_basis_points",
    "period_provision_atomic", "distributed_atomic"]

theorem periodStateKeys_index :
    periodStateKeys.map (Json.keyIndex periodStateKeys) = (List.range 9).map some := by
  decide +kernel

theorem PeriodState.ofJson_toJson (p : PeriodState) : PeriodState.ofJson p.toJson = some p := by
  have hindex := periodStateKeys_index
  simp only [periodStateKeys, List.map_cons, List.map_nil, List.range_succ, List.range_zero,
    List.nil_append, List.cons_append, List.cons.injEq, and_true] at hindex
  obtain ⟨h0, h1, h2, h3, h4, h5, h6, h7, h8⟩ := hindex
  have hstart : Json.uintField p.toJson "start_block" (2 ^ 64) = some p.startBlock.toNat :=
    Json.uintField_of_member _ _ _ _ p.startBlock.toNat_lt
      (by simp [PeriodState.toJson, Json.member?_eq, h0])
  have hend : Json.uintField p.toJson "end_block" (2 ^ 64) = some p.endBlock.toNat :=
    Json.uintField_of_member _ _ _ _ p.endBlock.toNat_lt
      (by simp [PeriodState.toJson, Json.member?_eq, h1])
  have hrate : Json.uintField p.toJson "treasury_release_rate_basis_points" (2 ^ 32) =
      some p.treasuryReleaseRateBasisPoints.toNat :=
    Json.uintField_of_member _ _ _ _ p.treasuryReleaseRateBasisPoints.toNat_lt
      (by simp [PeriodState.toJson, Json.member?_eq, h2])
  simp only [PeriodState.ofJson, hstart, hend, hrate]
  simp [PeriodState.toJson, Json.isStruct, Json.stringField, Json.member?_eq, h3, h4, h5, h6, h7, h8]

theorem PeriodState.decode_encode (p : PeriodState) :
    (Json.unmarshal p.encode).bind PeriodState.ofJson = some p := by
  rw [PeriodState.encode, Json.unmarshal_marshal p.toJson p.toJson_proper, Option.bind_some,
    PeriodState.ofJson_toJson]

theorem PeriodState.encode_ne_nil (p : PeriodState) : p.encode ≠ [] :=
  Json.marshal_ne_nil p.toJson p.toJson_proper

end Json

end PosChain.Incentives
