import PosChain.Ante.Evm.Theorems
import PosChain.Evm.Publish
import PosChain.Evm.Transition.Gas

namespace PosChain.Ante

open Ethereum Evm

variable {R : Type} {block : Block R}

theorem baseFee_agrees {first second : Option Int} (hante : getBaseFee block = .ok first)
    (hkeeper : block.getBaseFee = .ok second) : first = second := by
  unfold getBaseFee at hante
  unfold Block.getBaseFee at hkeeper
  cases hlondon : block.chain.rules.isLondon with
  | false =>
    simp only [hlondon, Bool.not_false, if_true, Check.pure_eq_ok] at hante hkeeper
    rw [← hante, ← hkeeper]
  | true =>
    simp only [hlondon, Bool.not_true, Bool.false_eq_true, if_false] at hante hkeeper
    cases hno : block.feeMarket.getParams.noBaseFee with
    | true =>
      simp only [hno, if_true, Check.pure_eq_ok] at hante
      simp only [FeeMarket.State.getBaseFee, hno, if_true, Check.pure_eq_ok] at hkeeper
      rw [← hante, ← hkeeper]
    | false =>
      simp only [hno, Bool.false_eq_true, if_false, FeeMarket.notNil, Check.bind_eq_ok,
        orFail_eq_ok] at hante
      obtain ⟨baseFee, hbaseFee, hante⟩ := hante
      simp only [FeeMarket.State.getBaseFee, hno, Bool.false_eq_true, if_false, hbaseFee,
        Check.bind_eq_ok, Check.pure_eq_ok, Block.convertAmount, LegacyDec.mulInt_eq_ok,
        LegacyDec.truncateInt_eq_ok] at hkeeper
      obtain ⟨converted, ⟨-, hconverted⟩, number, hnumber, rfl⟩ := hkeeper
      cases hzero : baseFee.isZero with
      | true =>
        have hraw : baseFee.raw = 0 := by simpa [LegacyDec.isZero] using hzero
        simp only [hzero, if_true, Check.pure_eq_ok] at hante
        rw [← hante, hnumber, hconverted, hraw]
        simp
      | false =>
        simp only [hzero, Bool.false_eq_true, if_false, Check.bind_eq_ok, Check.pure_eq_ok,
          Block.convertAmount, LegacyDec.mulInt_eq_ok, LegacyDec.truncateInt_eq_ok] at hante
        obtain ⟨again, ⟨-, hagain⟩, other, hother, rfl⟩ := hante
        rw [hnumber, hother, hconverted, hagain]

theorem baseFee_nonneg {baseFee : Int} (hvalid : block.feeMarket.getParams.validate = .ok ())
    (h : getBaseFee block = .ok (some baseFee)) : 0 ≤ baseFee := by
  obtain ⟨base, floor, multiplier, hparams⟩ := FeeMarket.Params.validate_eq_ok hvalid
  unfold getBaseFee at h
  cases hlondon : block.chain.rules.isLondon with
  | false => simp [hlondon, Check.pure_eq_ok] at h
  | true =>
    simp only [hlondon, Bool.not_true, Bool.false_eq_true, if_false] at h
    split at h
    · obtain rfl := Option.some.inj ((Check.pure_eq_ok _ _).mp h)
      exact le_refl _
    · simp only [FeeMarket.notNil, hparams.baseFee, Check.bind_eq_ok, orFail_eq_ok, Option.some.injEq,
        exists_eq_left'] at h
      split at h
      · obtain rfl := Option.some.inj ((Check.pure_eq_ok _ _).mp h)
        exact le_refl _
      · simp only [Check.bind_eq_ok, Check.pure_eq_ok, Option.some.injEq, Block.convertAmount,
          LegacyDec.mulInt_eq_ok, LegacyDec.truncateInt_eq_ok] at h
        obtain ⟨converted, ⟨-, hconverted⟩, number, hnumber, rfl⟩ := h
        rw [hnumber, hconverted]
        have hfactor : 0 ≤ block.decimals.conversionFactor.value := Int.natCast_nonneg _
        exact Int.tdiv_nonneg (Int.mul_nonneg hparams.base_nonneg hfactor) (by decide)

def gasPriceAt (tx : Transaction) (baseFee : Int) : Int :=
  if tx.isDynamic then min (tx.gasTipCap + baseFee) tx.gasFeeCap else tx.gasPrice

theorem gasPriceAt_nonneg (tx : Transaction) {baseFee : Int} (h : 0 ≤ baseFee) : 0 ≤ gasPriceAt tx baseFee := by
  unfold gasPriceAt
  split <;> omega

theorem gasPriceAt_eq (tx : Transaction) {baseFee : Int} (h : 0 ≤ baseFee) :
    gasPriceAt tx baseFee = tx.messageGasPrice (some baseFee) := by
  unfold gasPriceAt
  cases hdynamic : tx.isDynamic with
  | true => rfl
  | false => exact (tx.messageGasPrice_of_not_dynamic hdynamic h).symm

def Moves (sender recipient : Address) (amount : Int) (before after : World R) : Prop :=
  ∀ other, (after.balances other : Int) =
    before.balances other - (if other = sender then amount else 0) + (if other = recipient then amount else 0)

-- How a transaction is paid for: the handler takes the fee of the whole gas limit before
-- it is executed, and what is not used goes back after it.
structure FeesCharged (block : Block R) (tx : Transaction) (isCheckTx : Bool) (sender : Address) (baseFee : Int)
    (message : Message) (res : Response) (refund : Int) (before paid executed after : World R) : Prop where
  verified : verifyFee tx block.chain.rules.toForks (some baseFee) isCheckTx =
    .ok (tx.gas.toNat * gasPriceAt tx baseFee)
  effective : getEffectiveFee tx baseFee = tx.gas.toNat * gasPriceAt tx baseFee
  message : message.gasPrice = gasPriceAt tx baseFee ∧ message.sender = sender
  deducted : Moves sender block.feeCollector (tx.gas.toNat * gasPriceAt tx baseFee) before paid
  refunded : Moves block.feeCollector sender refund executed after
  bounded : 0 ≤ refund ∧ refund ≤ tx.gas.toNat * gasPriceAt tx baseFee
  net : tx.gas.toNat * gasPriceAt tx baseFee - refund = res.gasUsed.toNat * gasPriceAt tx baseFee

section Charged

variable {tx : EthTx} {msg : MsgEthereumTx} {res : Response} {ctx paid start next : Ctx (World R)}

theorem Accepted.moves {options : Options} {sender : Address} {baseFee fees : Int} {deducted : World R}
    {account : AuthAccount} (h : Accepted block options tx msg sender baseFee fees deducted account ctx paid) :
    Moves sender block.feeCollector fees ctx.world paid.world := by
  intro other
  have hbalances := h.sent.balances other
  rw [Int.toNat_of_nonneg h.fees_nonneg] at hbalances
  rw [h.world]
  exact hbalances

theorem remainingGas_toNat {message : Message} (h : res.gasUsed.toNat ≤ message.gasLimit.toNat) :
    (Block.remainingGas message res).toNat = message.gasLimit.toNat - res.gasUsed.toNat := by
  unfold Block.remainingGas
  split
  · rename_i hlt
    exact UInt64.toNat_sub_of_le _ _ (UInt64.le_of_lt hlt)
  · rename_i hge
    rw [UInt64.lt_iff_toNat_lt] at hge
    change 0 = _
    omega

theorem gasUsed_le {message : Message} {executed : Ctx (World R)} {txIndex : Nat} {raw : Transaction}
    (hvalid : block.feeMarket.getParams.validate = .ok ())
    (h : (block.executeTransaction raw txIndex).run start = .ok (message, res) executed) :
    res.gasUsed.toNat ≤ message.gasLimit.toNat := by
  obtain ⟨base, floor, multiplier, hparams⟩ := FeeMarket.Params.validate_eq_ok hvalid
  obtain ⟨cfg, sender, first, tmp, hcfg, -, -, hfirst, hlast⟩ := Block.executeTransaction_ok h
  obtain ⟨m, happly, -⟩ := Block.applyMessage_ok hfirst
  have hmultiplier : cfg.minGasMultiplier.getD .zeroDec = multiplier := by
    rw [(Block.evmConfig_ok hcfg).1, hparams.minGasMultiplier]
    rfl
  obtain ⟨leftoverGas, vmErr, ran, refund, hrun, -⟩ := applyMessageWithConfig_ok happly
  obtain ⟨used, hdef⟩ : ∃ used, used = message.gasLimit.toNat - leftoverGas.toNat := ⟨_, rfl⟩
  obtain ⟨back, hback⟩ : ∃ back, back =
      min ran.db.refund.toNat (used / (block.chain.refundQuotient false).toNat) := ⟨_, rfl⟩
  obtain ⟨-, hused, -, -, hgas⟩ :=
    gasUsed_toNat hmultiplier hparams.multiplier_nonneg hrun happly hdef hback
  have hminimum := minimumGas_le hparams.multiplier_le message.gasLimit
  rw [(Block.postTxProcessing_ok hlast).1, hgas]
  split <;> omega

end Charged

-- A transaction that the handler accepts and that is executed to a response, whether the
-- execution or a hook has failed or not, is charged its gas at one price.
theorem fees_charged (block : Block R) (hvalid : block.feeMarket.getParams.validate = .ok ())
    (options : Options) (tx : EthTx) (msg : MsgEthereumTx) (hmsg : tx.msgs = [some msg]) (txIndex : Nat)
    {ctx paid start next : Ctx (World R)} {res : Response}
    (hante : (anteHandle block options tx).run ctx = .ok () paid) (hstart : start.world = paid.world)
    (happly : (block.applyTransaction msg.raw txIndex).run start = .ok res next) :
    ∃ sender baseFee message executed refund,
      msg.raw.sender = .ok sender ∧ getBaseFee block = .ok (some baseFee) ∧
      block.getBaseFee = .ok (some baseFee) ∧
      (block.executeTransaction msg.raw txIndex).run start = .ok (message, res) executed ∧
      FeesCharged block msg.raw options.isCheckTx sender baseFee message res refund ctx.world start.world
        executed.world next.world := by
  obtain ⟨found, sender, baseFee, fees, deducted, account, haccepted⟩ := anteHandle_ok hante
  obtain rfl : found = msg := by
    have hmsgs := haccepted.msgs.symm.trans hmsg
    simpa using hmsgs
  obtain ⟨message, executed, hexecuted, hrefund⟩ := Block.applyTransaction_ok happly
  obtain ⟨cfg, signer, first, tmp, hcfg, hsigner, hmessage, -, -⟩ := Block.executeTransaction_ok hexecuted
  obtain rfl : sender = signer := Except.ok.inj (haccepted.signed.symm.trans hsigner)
  have hkeeper := (Block.evmConfig_ok hcfg).2
  have hbase : some baseFee = cfg.baseFee := baseFee_agrees haccepted.priced hkeeper
  have hnonneg := baseFee_nonneg hvalid haccepted.priced
  have hprice := gasPriceAt_eq found.raw hnonneg
  have hmessagePrice : message.gasPrice = gasPriceAt found.raw baseFee := by
    rw [hmessage, hprice, hbase]
    rfl
  have hlimit : message.gasLimit = found.raw.gas := by rw [hmessage]; rfl
  have hsender : message.sender = sender := by rw [hmessage]; rfl
  obtain ⟨fee, hfee, -, hfees⟩ := verifyFee_ok haccepted.verified
  cases hfee
  rw [← hprice] at hfees
  have hused : res.gasUsed.toNat ≤ found.raw.gas.toNat := by
    rw [← hlimit]
    exact gasUsed_le hvalid hexecuted
  have hremaining : ((Block.remainingGas message res).toNat : Int) =
      found.raw.gas.toNat - res.gasUsed.toNat := by
    rw [remainingGas_toNat (by rw [hlimit]; exact hused), hlimit]
    omega
  obtain ⟨hsign, hsent⟩ := Block.refundGas_ok hrefund
  have hrefunded := hsent.balances
  rw [Int.toNat_of_nonneg hsign, hsender] at hrefunded
  rw [hmessagePrice, hremaining] at hsign
  have husedFee : 0 ≤ (res.gasUsed.toNat : Int) * gasPriceAt found.raw baseFee :=
    Int.mul_nonneg (Int.natCast_nonneg _) (gasPriceAt_nonneg found.raw hnonneg)
  refine ⟨sender, baseFee, message, executed, _, haccepted.signed, haccepted.priced, hbase ▸ hkeeper, hexecuted,
    ⟨by rw [← hfees]; exact haccepted.verified, ?_, ⟨hmessagePrice, hsender⟩, ?_, hrefunded, ?_, ?_⟩⟩
  · rw [getEffectiveFee, Transaction.effectiveGasTip_add, hprice]
  · rw [← hfees, hstart]
    exact haccepted.moves
  · rw [hmessagePrice, hremaining]
    refine ⟨hsign, ?_⟩
    rw [Int.sub_mul]
    omega
  · rw [hmessagePrice, hremaining]
    ring

-- A call of an account without code at a price of 10^9 + 1, whose hook fails.
section Examples

def feeCollector : Address :=
  hexToAddress "0xf1829676db577682e944fc3493d451b67ff3e29f"

def payerCtx : Ctx (World Unit) :=
  ⟨twoAccounts.putBalance payer (10 ^ 18) (by decide), []⟩

def payerBlock : Block Unit where
  config := sampleConfig
  chain := ⟨latestRules, 1, [], ⟨fun _ _ _ gas _ => ⟨.done, gas, none⟩, fun _ _ _ _ gas _ => ⟨.done, gas, none⟩⟩⟩
  feeMarket := ⟨none, none, []⟩
  decimals := FeeMarket.eighteenDecimals
  evmDenom := "aatom"
  coinbase := .ok zeroAddress
  hooks := some fun _ _ _ => throw (.error "hook failed")
  feeCollector := feeCollector

def payerMsg : MsgEthereumTx where
  raw := ⟨.dynamicFee 1 2000000000 (some prefunded) [], 1, 30000, 0, [], .ok payer⟩
  sender := payer.bytes

def payerTx : EthTx where
  basic := .ok ()
  memo := ""
  timeoutHeight := 0
  nonCriticalExtensionOptions := 0
  extensionOptions := 1
  signerInfos := 0
  fee := some ⟨60000000000000, 30000, "", ""⟩
  hasTip := false
  signatures := 0
  msgs := [some payerMsg]

def delivering : Options where
  isCheckTx := false
  isReCheckTx := false
  simulate := false
  createAccess := .permissionless
  callAccess := .permissionless
  mempoolMinGasPrice := .zeroDec
  maxGasWanted := 0
  maxGas := some (-1)
  validateTransaction _ _ := .ok ()

def paidCtx : Ctx (World Unit) :=
  endState ((anteHandle payerBlock delivering payerTx).run payerCtx)

theorem payerTx_charged :
    ∃ message executed res refund next,
      (payerBlock.applyTransaction payerMsg.raw 0).run paidCtx = .ok res next ∧ res.gasUsed = 21000 ∧
      FeesCharged payerBlock payerMsg.raw false payer 1000000000 message res refund payerCtx.world paidCtx.world
        executed next.world := by
  obtain ⟨res, next, happly, hgas⟩ : ∃ res next,
      (payerBlock.applyTransaction payerMsg.raw 0).run paidCtx = .ok res next ∧ res.gasUsed = 21000 :=
    ⟨_, _, rfl, rfl⟩
  have hante : (anteHandle payerBlock delivering payerTx).run payerCtx = .ok () paidCtx := rfl
  have hpriced : getBaseFee payerBlock = .ok (some 1000000000) := rfl
  obtain ⟨sender, baseFee, message, executed, refund, hsender, hbase, -, -, hcharged⟩ :=
    fees_charged payerBlock rfl delivering payerTx payerMsg rfl 0 hante rfl happly
  obtain rfl : payer = sender := Except.ok.inj hsender
  obtain rfl := Option.some.inj (Except.ok.inj (hpriced.symm.trans hbase))
  exact ⟨message, executed.world, res, refund, next, happly, hgas, hcharged⟩

end Examples

end PosChain.Ante
