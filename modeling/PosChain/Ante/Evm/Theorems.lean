import PosChain.Ante.Evm
import PosChain.Evm.ApplyTransaction.Theorems
import PosChain.Evm.Nonces
import PosChain.FeeMarket.BaseFee

namespace PosChain.Ante

open Ethereum Evm

variable {R : Type}

-- What the handler has checked and written of a transaction that it accepts.
structure Accepted (block : Block R) (options : Options) (tx : EthTx) (msg : MsgEthereumTx) (sender : Address)
    (baseFee fees : Int) (deducted : World R) (account : AuthAccount) (ctx paid : Ctx (World R)) : Prop where
  msgs : tx.msgs = [some msg]
  priced : getBaseFee block = .ok (some baseFee)
  signed : msg.raw.sender = .ok sender
  verified : verifyFee msg.raw block.chain.rules.toForks (some baseFee) options.isCheckTx = .ok fees
  fees_nonneg : 0 ≤ fees
  sent : Sent sender block.feeCollector fees.toNat ctx.world deducted
  held : deducted.accounts sender = some account
  nonce : account.sequence = msg.raw.nonce
  below : msg.raw.nonce.toNat + 1 < 2 ^ 64
  world : paid.world = deducted.putAccount sender { account with sequence := account.sequence + 1 }
  plain : ctx.world.accounts sender ≠ none → ¬ ctx.world.HasContract block.config sender

section Steps

variable {config : Config} {block : Block R} {tx : Transaction} {sender : Address} {u : Unit}
  {ctx next : Ctx (World R)}

theorem unpackMsg_ok {tx : EthTx} {msg : MsgEthereumTx} (h : tx.unpackMsg = .ok msg) :
    tx.msgs = [some msg] := by
  unfold EthTx.unpackMsg at h
  split at h
  · rename_i found hmsgs
    rw [orFail_eq_ok] at h
    rw [hmsgs, h]
  · cases h

theorem verifySender_ok {keccak256 : Bytes → Hash} {msg : MsgEthereumTx}
    (h : verifySender keccak256 msg = .ok sender) : msg.raw.sender = .ok sender := by
  simp only [verifySender, Check.bind_eq_ok, mapError_eq_ok] at h
  obtain ⟨found, hfound, h⟩ := h
  split at h
  · cases h
  · rw [hfound, Except.ok.inj h]

theorem not_hasContract_of_plain {w : World R} {code : Bytes}
    (hcode : code = if w.getCodeHash config sender = config.emptyCodeHash then []
      else (w.getCode (w.getCodeHash config sender)).getD [])
    (hplain : (decide (code.length ≠ 0) && (parseDelegation code).isNone) = false) :
    ¬ w.HasContract config sender := by
  rintro ⟨hhash, hcontract⟩
  rw [if_neg hhash] at hcode
  rw [World.isContract, ← hcode, Bool.and_eq_true, decide_eq_true_eq] at hcontract
  rw [hcontract.2, Bool.and_true, decide_eq_false_iff_not] at hplain
  omega

theorem verifyAccountBalance_ok (h : (verifyAccountBalance config tx sender).run ctx = .ok u next) :
    AccountsKept ctx.world next.world ∧ next.world.balances = ctx.world.balances ∧
      (ctx.world.accounts sender ≠ none → ¬ ctx.world.HasContract config sender) := by
  rw [verifyAccountBalance, run_get_bind] at h
  cases haccount : ctx.world.getAccount config sender with
  | none =>
    simp only [haccount] at h
    rw [run_modify_bind, run_lift_eq_ok] at h
    obtain ⟨-, rfl⟩ := h
    refine ⟨.makeAccount rfl sender, Bank.balances_makeAccount _ _ _, fun hsome => ?_⟩
    exact absurd (Option.map_eq_none_iff.mp haccount) hsome
  | some account =>
    simp only [haccount, run_lift_bind, run_lift_eq_ok] at h
    obtain ⟨_, hplain, -, rfl⟩ := h
    refine ⟨.refl _, rfl, fun _ => ?_⟩
    have hhash : account.codeHash = ctx.world.getCodeHash config sender := by
      obtain ⟨_, -, rfl⟩ := Option.map_eq_some_iff.mp haccount
      rfl
    rw [hhash, failIf_eq_ok] at hplain
    exact not_hasContract_of_plain rfl hplain

theorem canTransfer_ok {msg : Message} {baseFee : Option Int} {isLondon : Bool}
    (h : (canTransfer config msg baseFee isLondon).run ctx = .ok u next) : next = ctx := by
  unfold canTransfer at h
  cases isLondon with
  | true =>
    simp only [if_true, run_lift_bind] at h
    obtain ⟨fee, -, _, -, value, -, h⟩ := h
    split at h
    · simp only [run_get_bind, run_lift_bind, run_lift_eq_ok] at h
      obtain ⟨account, -, -, rfl⟩ := h
      rfl
    · exact ((run_pure_eq_ok _ _ _ _).mp h).2.symm
  | false =>
    simp only [Bool.false_eq_true, if_false, run_lift_bind] at h
    obtain ⟨value, -, h⟩ := h
    split at h
    · simp only [run_get_bind, run_lift_bind, run_lift_eq_ok] at h
      obtain ⟨account, -, -, rfl⟩ := h
      rfl
    · exact ((run_pure_eq_ok _ _ _ _).mp h).2.symm

theorem deductFees_ok {fees : Int} (h : (deductFees block sender fees).run ctx = .ok u next) :
    0 ≤ fees ∧ Sent sender block.feeCollector fees.toNat ctx.world next.world := by
  unfold deductFees at h
  by_cases hzero : fees = 0
  · rw [if_pos hzero] at h
    obtain ⟨-, rfl⟩ := (run_pure_eq_ok _ _ _ _).mp h
    subst hzero
    exact ⟨le_refl _, .zero _ _ _⟩
  · rw [if_neg hzero] at h
    simp only [run_get_bind, run_lift_bind, rewordError_eq_ok, failIf_eq_ok, decide_eq_false_iff_not] at h
    obtain ⟨_, -, _, hsign, h⟩ := h
    exact ⟨by omega, Bank.sendCoinsFromAccountToModule_ok h⟩

theorem incrementNonce_ok {nonce : UInt64} (h : (incrementNonce config sender nonce).run ctx = .ok u next) :
    ∃ account, ctx.world.accounts sender = some account ∧ account.sequence = nonce ∧
      nonce.toNat + 1 < 2 ^ 64 ∧
      next.world = ctx.world.putAccount sender { account with sequence := account.sequence + 1 } := by
  simp only [incrementNonce, run_get_bind, run_lift_bind, run_modify_eq_ok, orFail_eq_ok, failIf_eq_ok,
    decide_eq_false_iff_not, UInt64.not_lt] at h
  obtain ⟨account, haccount, _, hle, _, hge, _, hmax, rfl⟩ := h
  have heq : account.sequence = nonce := UInt64.le_antisymm hge hle
  refine ⟨account, haccount, heq, ?_, rfl⟩
  have hne : nonce.toNat ≠ 2 ^ 64 - 1 := by
    intro hnat
    apply hmax
    rw [heq, ← UInt64.toNat_inj, hnat]
    rfl
  have hlt := nonce.toNat_lt
  omega

theorem verifyFee_ok {forks : Forks} {baseFee : Option Int} {isCheckTx : Bool} {fees : Int}
    (h : verifyFee tx forks baseFee isCheckTx = .ok fees) :
    ∃ fee, baseFee = some fee ∧ fee ≤ tx.gasFeeCap ∧
      fees = tx.gas.toNat * tx.messageGasPrice (some fee) := by
  simp only [verifyFee, Check.bind_eq_ok, annotate_eq_ok, failIf_eq_ok, orFail_eq_ok, Check.pure_eq_ok,
    SdkInt.newIntFromBigInt_eq_ok, decide_eq_false_iff_not, Transaction.effectiveGasTip_add] at h
  obtain ⟨_, -, _, -, fee, hfee, _, hcap, number, hnumber, rfl⟩ := h
  exact ⟨fee, hfee, by omega, hnumber⟩

end Steps

theorem anteHandle_ok {block : Block R} {options : Options} {tx : EthTx} {ctx paid : Ctx (World R)} {u : Unit}
    (h : (anteHandle block options tx).run ctx = .ok u paid) :
    ∃ msg sender baseFee fees deducted account,
      Accepted block options tx msg sender baseFee fees deducted account ctx paid := by
  simp only [anteHandle, run_lift_bind] at h
  obtain ⟨txFeeInfo, -, priced, hpriced, msg, hmsg, _, -, _, -, _, -, sender, hsender, h⟩ := h
  rw [run_bind_eq_ok] at h
  obtain ⟨_, verified, hverified, h⟩ := h
  rw [run_bind_eq_ok] at h
  obtain ⟨_, checked, hchecked, h⟩ := h
  obtain rfl := canTransfer_ok hchecked
  rw [run_lift_bind] at h
  obtain ⟨fees, hfees, h⟩ := h
  rw [run_bind_eq_ok] at h
  obtain ⟨_, deducted, hdeducted, h⟩ := h
  rw [run_bind_eq_ok] at h
  obtain ⟨_, incremented, hincremented, h⟩ := h
  simp only [run_lift_bind, run_lift_eq_ok] at h
  obtain ⟨_, -, -, rfl⟩ := h
  obtain ⟨hkept, hbalances, hplain⟩ := verifyAccountBalance_ok hverified
  obtain ⟨hsign, hsent⟩ := deductFees_ok hdeducted
  obtain ⟨account, haccount, hnonce, hbelow, hworld⟩ := incrementNonce_ok hincremented
  obtain ⟨baseFee, rfl, -, -⟩ := verifyFee_ok hfees
  refine ⟨msg, sender, baseFee, fees, deducted.world, account, unpackMsg_ok hmsg, hpriced,
    verifySender_ok hsender, hfees, hsign, ⟨?_, ?_, hkept.trans hsent.kept⟩, haccount, hnonce, hbelow, hworld,
    hplain⟩
  · have henough := hsent.enough
    rw [World.spendableCoin, hbalances, hkept.locked] at henough
    exact henough
  · rw [← hbalances]
    exact hsent.balances

end PosChain.Ante
