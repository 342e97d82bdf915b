import PosChain.Evm.Execution.Revert
import PosChain.Evm.Transition
import PosChain.FeeMarket.Blockers

namespace PosChain.Evm

open Ethereum LegacyDec

theorem gasToRefund_toNat (availableRefund gasConsumed refundQuotient : UInt64) :
    (gasToRefund availableRefund gasConsumed refundQuotient).toNat =
      min availableRefund.toNat (gasConsumed.toNat / refundQuotient.toNat) := by
  have hquotient : (gasConsumed / refundQuotient).toNat = gasConsumed.toNat / refundQuotient.toNat :=
    UInt64.toNat_div gasConsumed refundQuotient
  unfold gasToRefund
  split
  · rename_i h
    rw [UInt64.lt_iff_toNat_lt, hquotient] at h
    omega
  · rename_i h
    rw [UInt64.lt_iff_toNat_lt, hquotient] at h
    omega

theorem gasToRefund_zero (gasConsumed refundQuotient : UInt64) : gasToRefund 0 gasConsumed refundQuotient = 0 := by
  rw [← UInt64.toNat_inj, gasToRefund_toNat]
  exact Nat.zero_min _

-- The part of the gas limit that is charged in any case, and the floor for the data.
def minimumGas (multiplier : LegacyDec) (gasLimit : UInt64) : Nat :=
  (gasLimit.toNat * multiplier.raw / precision).toNat

def floorGas (rules : Rules) (data : Bytes) : Nat :=
  if rules.isPrague then 21000 + dataTokens data * 10 else 0

section Charges

variable {msg : Message} {cfg : EVMConfig} {multiplier : LegacyDec}

theorem minimumGas_le (h : multiplier.raw ≤ precision) (gasLimit : UInt64) :
    minimumGas multiplier gasLimit ≤ gasLimit.toNat := by
  have hproduct : gasLimit.toNat * multiplier.raw ≤ gasLimit.toNat * precision :=
    Int.mul_le_mul_of_nonneg_left h (Int.natCast_nonneg _)
  have hquotient := Int.ediv_le_ediv (show 0 < precision by decide) hproduct
  rw [Int.mul_ediv_cancel _ (by decide)] at hquotient
  unfold minimumGas
  omega

theorem truncateUint64_eq_ok {dec : LegacyDec} {gas : UInt64} (h : truncateUint64 dec = .ok gas) :
    (gas.toNat : Int) = dec.raw.tdiv precision := by
  simp only [truncateUint64, Check.bind_eq_ok, truncateInt_eq_ok] at h
  obtain ⟨number, hnumber, h⟩ := h
  split at h
  · rename_i hrange
    cases h
    simp only [FeeMarket.isUint64, Bool.and_eq_true, decide_eq_true_eq] at hrange
    rw [← hnumber, FeeMarket.uint64, UInt64.toNat_ofNat_of_lt' (by change _ < 2 ^ 64; omega)]
    exact Int.toNat_of_nonneg hrange.1
  · cases h

theorem truncateUint64_ok {dec : LegacyDec} (hlow : 0 ≤ dec.raw) (hhigh : dec.raw < 2 ^ 64 * precision) :
    ∃ gas, truncateUint64 dec = .ok gas := by
  have hd : 0 ≤ dec.raw.tdiv precision ∧ dec.raw.tdiv precision < 2 ^ 64 := by
    rw [Int.tdiv_eq_ediv_of_nonneg hlow]
    simp only [precision] at hhigh ⊢
    omega
  have hnumber : dec.truncateInt = .ok ⟨_, show (dec.raw.tdiv precision).natAbs < 2 ^ 256 by omega⟩ :=
    (truncateInt_eq_ok _ _).mpr rfl
  refine ⟨FeeMarket.uint64 ⟨_, show (dec.raw.tdiv precision).natAbs < 2 ^ 256 by omega⟩, ?_⟩
  simp only [truncateUint64, Check.bind_eq_ok]
  refine ⟨_, hnumber, ?_⟩
  rw [if_pos (by simp only [FeeMarket.isUint64, Bool.and_eq_true, decide_eq_true_eq]; exact hd)]
  rfl

theorem toInt64_neg {gas : UInt64} (h : 2 ^ 63 ≤ gas.toNat) : gas.toInt64.toInt < 0 := by
  have hbits : gas.toInt64.toInt = gas.toBitVec.toInt := rfl
  have hnat : gas.toBitVec.toNat = gas.toNat := rfl
  have hlt := gas.toBitVec.isLt
  rw [hbits, BitVec.toInt_eq_toNat_cond]
  split <;> omega

theorem chargedGas_toNat {leftoverGas temporaryGasUsed gas : UInt64}
    (hmultiplier : cfg.minGasMultiplier.getD .zeroDec = multiplier) (hsign : 0 ≤ multiplier.raw)
    (h : Chain.chargedGas msg cfg false leftoverGas temporaryGasUsed = .ok gas) :
    gas.toNat = if temporaryGasUsed.toNat < 2 ^ 63
      then max (minimumGas multiplier msg.gasLimit) temporaryGasUsed.toNat
      else minimumGas multiplier msg.gasLimit := by
  simp only [Chain.chargedGas, newDecFromInt, Check.bind_eq_ok, ofInt_mul_eq_ok, truncateInt_eq_ok,
    hmultiplier] at h
  obtain ⟨minimumGasUsed, ⟨-, hminimum⟩, minimum, -, -, -, -, -, h⟩ := h
  have hraw : minimumGasUsed.raw = msg.gasLimit.toNat * multiplier.raw := hminimum
  have htruncated := truncateUint64_eq_ok h
  rw [if_neg Bool.false_ne_true, maxDec_raw, hraw, max_comm] at htruncated
  have hproduct : 0 ≤ msg.gasLimit.toNat * multiplier.raw := Int.mul_nonneg (Int.natCast_nonneg _) hsign
  split
  · rename_i hlt
    rw [newDec, FeeMarket.toInt64_toInt hlt, FeeMarket.truncated_eq_limitedGas hsign] at htruncated
    exact Int.natCast_inj.mp htruncated
  · rename_i hge
    have hneg := toInt64_neg (Nat.le_of_not_lt hge)
    have hdec : (newDec temporaryGasUsed.toInt64).raw < 0 := Int.mul_neg_of_neg_of_pos hneg (by decide)
    rw [max_eq_left (by omega), Int.tdiv_eq_ediv_of_nonneg hproduct] at htruncated
    unfold minimumGas
    omega

end Charges

-- The charge of a message as the EVM and the fee market define it, from the gas that the
-- EVM has used and the gas that is refunded.
structure GasLaw (rules : Rules) (msg : Message) (multiplier : LegacyDec) (used refund : Nat)
    (res : Response) : Prop where
  charge : res.gasUsed.toNat =
    max (used - refund) (max (minimumGas multiplier msg.gasLimit) (floorGas rules msg.data))
  limit : res.gasUsed.toNat ≤ msg.gasLimit.toNat
  maxUsed : res.maxUsedGas.toNat = used
  -- The gas after the refund goes through int64.
  signed : (res.maxUsedGas - UInt64.ofNat refund).toInt64.toInt = (used : Int) - refund

section Law

variable {W : Type} {env : Env W} {chain : Chain W} {cfg : EVMConfig} {msg : Message}
  {multiplier : LegacyDec} {m ran n : Machine W} {leftoverGas : UInt64} {vmErr : Option String}
  {res : Response} {commit callFromPrecompile internal : Bool}

-- The message up to the return of the EVM, the gas accounting, and the commit between
-- them, which changes no amount.
theorem applyMessageWithConfig_ok
    (h : (chain.applyMessageWithConfig env msg cfg commit callFromPrecompile internal).run m = .ok res n) :
    ∃ leftoverGas vmErr ran refund,
      (chain.runMessage env msg callFromPrecompile).run m = .ok (leftoverGas, vmErr) ran ∧
      leftoverGas ≤ msg.gasLimit ∧
      refund = gasToRefund ran.db.refund (msg.gasLimit - leftoverGas) (chain.refundQuotient internal) ∧
      (runIf commit (Machine.commitOrFlush env callFromPrecompile)).run ran = .ok () n ∧
      Chain.chargedGas msg cfg internal (leftoverGas + refund) (msg.gasLimit - leftoverGas - refund) =
        .ok res.gasUsed ∧
      res.maxUsedGas = msg.gasLimit - leftoverGas ∧ res.vmError = vmErr.getD "" := by
  rw [Chain.applyMessageWithConfig, run_bind_eq_ok] at h
  obtain ⟨⟨leftoverGas, vmErr⟩, ran, hrun, h⟩ := h
  simp only [run_get_bind, run_lift_bind, Chain.usedGas, Check.bind_eq_ok, failIf_eq_ok,
    decide_eq_false_iff_not, Check.pure_eq_ok] at h
  obtain ⟨_, ⟨-, hlimit, rfl⟩, h⟩ := h
  rw [run_bind_eq_ok] at h
  obtain ⟨_, next, hcommit, h⟩ := h
  rw [run_lift_bind] at h
  obtain ⟨gasUsed, hcharged, h⟩ := h
  obtain ⟨rfl, rfl⟩ := (run_pure_eq_ok _ _ _ _).mp h
  exact ⟨leftoverGas, vmErr, ran, _, hrun, UInt64.not_lt.mp hlimit, rfl, hcommit, hcharged, rfl, rfl⟩

theorem gasUsed_toNat (hmultiplier : cfg.minGasMultiplier.getD .zeroDec = multiplier)
    (hsign : 0 ≤ multiplier.raw)
    (hrun : (chain.runMessage env msg callFromPrecompile).run m = .ok (leftoverGas, vmErr) ran)
    (happly : (chain.applyMessageWithConfig env msg cfg commit callFromPrecompile false).run m = .ok res n)
    {used refund : Nat} (hused : used = msg.gasLimit.toNat - leftoverGas.toNat)
    (hrefund : refund = min ran.db.refund.toNat (used / (chain.refundQuotient false).toNat)) :
    refund ≤ used ∧ used ≤ msg.gasLimit.toNat ∧ res.maxUsedGas.toNat = used ∧
      (res.maxUsedGas - UInt64.ofNat refund).toNat = used - refund ∧
      res.gasUsed.toNat = if used - refund < 2 ^ 63
        then max (minimumGas multiplier msg.gasLimit) (used - refund)
        else minimumGas multiplier msg.gasLimit := by
  obtain ⟨leftover, err, first, back, hfirst, hlimit, hback, -, hcharged, hmax, -⟩ :=
    applyMessageWithConfig_ok happly
  obtain ⟨hpair, rfl⟩ := EStateM.Result.ok.inj (hrun.symm.trans hfirst)
  obtain ⟨rfl, rfl⟩ := Prod.ext_iff.mp hpair
  have hmaxUsed : (msg.gasLimit - leftoverGas).toNat = used := by
    rw [UInt64.toNat_sub_of_le _ _ hlimit, hused]
  have hbackNat : back.toNat = refund := by
    rw [hback, gasToRefund_toNat, hmaxUsed, hrefund]
  have hle : refund ≤ used := by
    rw [hrefund]
    exact (Nat.min_le_right _ _).trans (Nat.div_le_self _ _)
  have hbackLe : back ≤ msg.gasLimit - leftoverGas := by
    rw [UInt64.le_iff_toNat_le, hbackNat, hmaxUsed]
    exact hle
  have hofNat : UInt64.ofNat refund = back := by
    rw [← hbackNat]
    exact UInt64.ofNat_toNat
  have hafter : (msg.gasLimit - leftoverGas - back).toNat = used - refund := by
    rw [UInt64.toNat_sub_of_le _ _ hbackLe, hmaxUsed, hbackNat]
  have hgas := chargedGas_toNat hmultiplier hsign hcharged
  rw [hafter] at hgas
  refine ⟨hle, by omega, by rw [hmax, hmaxUsed], ?_, hgas⟩
  rw [hofNat, hmax, hafter]

-- The law holds exactly when the gas after the refund fits into int64 and the charge
-- without the floor is not below it: the floor is compared with the gas limit only.
theorem gasLaw_iff (env : Env W) (chain : Chain W) (cfg : EVMConfig) (msg : Message)
    (commit callFromPrecompile : Bool) {multiplier : LegacyDec}
    (hmultiplier : cfg.minGasMultiplier.getD .zeroDec = multiplier)
    (hrange : 0 ≤ multiplier.raw ∧ multiplier.raw ≤ precision)
    (hrun : (chain.runMessage env msg callFromPrecompile).run m = .ok (leftoverGas, vmErr) ran)
    (happly : (chain.applyMessageWithConfig env msg cfg commit callFromPrecompile false).run m = .ok res n)
    {used refund : Nat} (hused : used = msg.gasLimit.toNat - leftoverGas.toNat)
    (hrefund : refund = min ran.db.refund.toNat (used / (chain.refundQuotient false).toNat)) :
    GasLaw chain.rules msg multiplier used refund res ↔
      used - refund < 2 ^ 63 ∧
        floorGas chain.rules msg.data ≤ max (used - refund) (minimumGas multiplier msg.gasLimit) := by
  obtain ⟨hrefundLe, husedLe, hmaxUsed, hafter, hgas⟩ :=
    gasUsed_toNat hmultiplier hrange.1 hrun happly hused hrefund
  have hminimum := minimumGas_le hrange.2 msg.gasLimit
  constructor
  · intro hlaw
    have hfits : used - refund < 2 ^ 63 := by
      by_contra hge
      have hneg : (res.maxUsedGas - UInt64.ofNat refund).toInt64.toInt < 0 := toInt64_neg (by omega)
      have hsigned := hlaw.signed
      omega
    rw [if_pos hfits] at hgas
    have hcharge := hlaw.charge
    exact ⟨hfits, by omega⟩
  · rintro ⟨hfits, hfloor⟩
    rw [if_pos hfits] at hgas
    have hsigned : (res.maxUsedGas - UInt64.ofNat refund).toInt64.toInt =
        (res.maxUsedGas - UInt64.ofNat refund).toNat := FeeMarket.toInt64_toInt (by omega)
    exact ⟨by omega, by omega, hmaxUsed, by omega⟩

end Law

-- Calls of an account without code, on a chain where all forks up to Prague are active.
section Examples

def latestRules : Rules where
  isHomestead := true
  isIstanbul := true
  isShanghai := true
  isEIP2929 := true
  isEIP4762 := false
  isLondon := true
  isPrague := true

-- Nothing runs at an address without code, and all the gas is left.
def codeless : Interpreter Unit where
  create _ _ _ gas _ := ⟨.done, gas, none⟩
  call _ _ _ _ gas _ := ⟨.done, gas, none⟩

def codelessChain : Chain Unit :=
  ⟨latestRules, 1, [], codeless⟩

def callWith (data : Bytes) (gasLimit : UInt64) : Message :=
  ⟨zeroAddress, some contract, 0, 0, gasLimit, 0, 0, 0, data, [], []⟩

def defaultConfig : EVMConfig :=
  ⟨FeeMarket.defaultParams.minGasMultiplier, some 0⟩

theorem plainCall_charged :
    ∃ res n, (codelessChain.applyMessageWithConfig noAccounts (callWith [] 21000) defaultConfig true false
        false).run ⟨blankDb, []⟩ = .ok res n ∧
      GasLaw latestRules (callWith [] 21000) ⟨500000000000000000⟩ 21000 0 res := by
  obtain ⟨ran, hrun, hcounter⟩ : ∃ ran, (codelessChain.runMessage noAccounts (callWith [] 21000) false).run
      ⟨blankDb, []⟩ = .ok (0, none) ran ∧ ran.db.refund = 0 := ⟨_, rfl, rfl⟩
  obtain ⟨res, n, happly⟩ : ∃ res n, (codelessChain.applyMessageWithConfig noAccounts (callWith [] 21000)
      defaultConfig true false false).run ⟨blankDb, []⟩ = .ok res n := ⟨_, _, rfl⟩
  refine ⟨res, n, happly, ?_⟩
  refine (gasLaw_iff noAccounts codelessChain defaultConfig (callWith [] 21000) true false rfl (by decide)
    hrun happly rfl (by rw [hcounter]; rfl)).mpr ?_
  decide

-- One byte of data costs 16 gas and has a floor of 40 gas.
theorem dataCall_below_floor :
    ∃ res n, (codelessChain.applyMessageWithConfig noAccounts (callWith [1] 21040) defaultConfig true false
        false).run ⟨blankDb, []⟩ = .ok res n ∧
      res.gasUsed = 21016 ∧ ¬ GasLaw latestRules (callWith [1] 21040) ⟨500000000000000000⟩ 21016 0 res := by
  refine ⟨_, _, rfl, rfl, ?_⟩
  intro hlaw
  have hcharge := hlaw.charge
  revert hcharge
  decide

end Examples

end PosChain.Evm
