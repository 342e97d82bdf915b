import PosChain.Ante.Evm.Delivery
import PosChain.Ante.Evm.Fees
import PosChain.Evm.Transition.Nonces

namespace PosChain.Ante

open Ethereum Evm

variable {R : Type}

namespace Delivery

variable (d : Delivery R)

structure Lawful : Prop where
  interpreter : d.block.chain.interpreter.RaisesNonces d.block.config
  hooks : ∀ hooks, d.block.hooks = some hooks → ∀ sender msg res ctx next,
    (hooks sender msg res).run ctx = .ok () next → ∀ address, ctx.world.nonce address ≤ next.world.nonce address

-- The message of the transaction self-destructs the contract that was at the address.
def Destructs (w : World R) (address : Address) : Prop :=
  ∃ paid msg message res last, d.accept w = .ok () paid ∧ d.Applied paid.world msg message res last ∧
    DestructedContract d.block.config paid.world last.history address

end Delivery

section Nonces

variable {d : Delivery R} {w : World R} {paid : Ctx (World R)} {msg : MsgEthereumTx} {sender : Address}

theorem Accepted.nonces {block : Block R} {options : Options} {tx : EthTx} {baseFee fees : Int}
    {deducted : World R} {account : AuthAccount} {ctx : Ctx (World R)}
    (h : Accepted block options tx msg sender baseFee fees deducted account ctx paid) :
    ctx.world.nonce sender = msg.raw.nonce ∧ paid.world.nonce sender = msg.raw.nonce + 1 ∧
      ∀ other, ctx.world.nonce other ≤ paid.world.nonce other := by
  have hheld : deducted.nonce sender = account.sequence := by
    simp [World.nonce, World.record, Record.nonce, h.held]
  have hbefore : ctx.world.nonce sender = msg.raw.nonce := by
    rw [← h.sent.kept.nonces sender, hheld, h.nonce]
  have hafter : paid.world.nonce sender = msg.raw.nonce + 1 := by
    rw [h.world, ← h.nonce]
    simp [World.nonce, World.record, Record.nonce, World.putAccount]
  refine ⟨hbefore, hafter, fun other => ?_⟩
  by_cases heq : other = sender
  · subst heq
    rw [hbefore, hafter, UInt64.le_iff_toNat_le, toNat_succ h.below]
    exact Nat.le_succ _
  · rw [← h.sent.kept.nonces other, h.world, World.nonce, World.nonce, World.record_putAccount, if_neg heq]
    exact UInt64.le_refl _

theorem not_destructs (haccept : d.accept w = .ok () paid) (hmsg : d.tx.msgs = [some msg])
    (hsigned : msg.raw.sender = .ok sender) (hknown : w.accounts sender ≠ none) : ¬ d.Destructs w sender := by
  obtain ⟨found, signer, baseFee, fees, deducted, account, haccepted⟩ := anteHandle_ok haccept
  obtain rfl : found = msg := by simpa using haccepted.msgs.symm.trans hmsg
  obtain rfl : signer = sender := Except.ok.inj (haccepted.signed.symm.trans hsigned)
  rintro ⟨paid', _, _, _, _, haccept', -, ⟨hhash, hcontract⟩, -⟩
  obtain rfl : paid = paid' := (EStateM.Result.ok.inj (haccept.symm.trans haccept')).2
  have hhashes : paid.world.codeHashes = w.codeHashes := by
    rw [haccepted.world]
    exact haccepted.sent.kept.codeHashes
  have hcodes : paid.world.codes = w.codes := by
    rw [haccepted.world]
    exact haccepted.sent.kept.codes
  have hsameHash : paid.world.getCodeHash d.block.config signer = w.getCodeHash d.block.config signer := by
    simp only [World.getCodeHash, hhashes]
  have hsame : paid.world.isContract d.block.config signer = w.isContract d.block.config signer := by
    unfold World.isContract World.getCode
    rw [hsameHash, hcodes]
  rw [hsameHash] at hhash
  rw [hsame] at hcontract
  exact haccepted.plain hknown ⟨hhash, hcontract⟩

theorem execute_nonces (hlawful : d.Lawful) (haccept : d.accept w = .ok () paid) {address : Address}
    (hkept : ¬ d.Destructs w address) :
    paid.world.nonce address ≤ (d.execute paid.world).1.nonce address := by
  obtain ⟨msg, sender, baseFee, fees, deducted, account, haccepted⟩ := anteHandle_ok haccept
  refine execute_keeps (fun v => paid.world.nonce address ≤ v.nonce address) ?_ ?_ ?_ (UInt64.le_refl _)
  · intro found message res last happlied
    obtain rfl : msg = found := by simpa using haccepted.msgs.symm.trans happlied.msgs
    obtain ⟨cfg, -, hmessage, happly⟩ := happlied.message
    rw [Transaction.toMessage, haccepted.signed] at hmessage
    cases hmessage
    refine (message_nonces hlawful.interpreter haccepted.nonces.2.1 haccepted.below happly address).resolve_left
      fun hdestructed => ?_
    exact hkept ⟨paid, msg, _, res, last, haccept, happlied, hdestructed⟩
  · intro hooks hhooks _ _ _ _ _ hran hle
    exact UInt64.le_trans hle (hlawful.hooks hooks hhooks _ _ _ _ _ hran address)
  · intro _ _ _ _ hsent hle
    rw [hsent.kept.nonces address]
    exact hle

theorem deliver_nonces (hlawful : d.Lawful) {address : Address} (hkept : ¬ d.Destructs w address) :
    w.nonce address ≤ (d.deliver w).1.nonce address := by
  cases haccept : d.accept w with
  | error fault next =>
    rw [Delivery.deliver, haccept]
    exact UInt64.le_refl _
  | ok u paid =>
    rw [deliver_of_accept haccept]
    obtain ⟨msg, sender, baseFee, fees, deducted, account, haccepted⟩ := anteHandle_ok haccept
    exact UInt64.le_trans (haccepted.nonces.2.2 address) (execute_nonces hlawful haccept hkept)

end Nonces

-- A step of the chain that self-destructs no contract at the address: a transaction, or
-- whatever a block does besides and lowers no nonce.
inductive Chains (address : Address) : World R → World R → Prop where
  | deliver (d : Delivery R) (w : World R) :
      d.Lawful → ¬ d.Destructs w address → Chains address w (d.deliver w).1
  | other (w next : World R) : (∀ holder, w.nonce holder ≤ next.nonce holder) → Chains address w next

theorem Chains.nonces {address : Address} {w next : World R}
    (h : Relation.ReflTransGen (Chains address) w next) : w.nonce address ≤ next.nonce address := by
  induction h with
  | refl => exact UInt64.le_refl _
  | tail _ hstep ih =>
    refine UInt64.le_trans ih ?_
    cases hstep with
    | deliver d w hlawful hkept => exact deliver_nonces hlawful hkept
    | other w next hle => exact hle address

-- The nonce of an accepted transaction is used up for its sender when the transaction
-- ends, and stays so. A sender that had no account before is no self-destructed contract.
theorem executed_once (d : Delivery R) (hlawful : d.Lawful) (w : World R) {paid : Ctx (World R)}
    {msg : MsgEthereumTx} {sender : Address} (haccept : d.accept w = .ok () paid)
    (hmsg : d.tx.msgs = [some msg]) (hsigned : msg.raw.sender = .ok sender)
    (hnew : w.accounts sender = none → ¬ d.Destructs w sender) :
    msg.raw.nonce.toNat + 1 ≤ ((d.deliver w).1.nonce sender).toNat ∧
    (∀ address first last, Relation.ReflTransGen (Chains (R := R) address) first last →
      first.nonce address ≤ last.nonce address) ∧
    ∀ last, Relation.ReflTransGen (Chains sender) (d.deliver w).1 last →
      msg.raw.nonce.toNat + 1 ≤ (last.nonce sender).toNat ∧
      ∀ (again : Delivery R) (paid' : Ctx (World R)) (msg' : MsgEthereumTx),
        again.accept last = .ok () paid' → again.tx.msgs = [some msg'] → msg'.raw.sender = .ok sender →
          msg.raw.nonce < msg'.raw.nonce := by
  have hfirst : msg.raw.nonce.toNat + 1 ≤ ((d.deliver w).1.nonce sender).toNat := by
    obtain ⟨found, signer, baseFee, fees, deducted, account, haccepted⟩ := anteHandle_ok haccept
    obtain rfl : found = msg := by simpa using haccepted.msgs.symm.trans hmsg
    obtain rfl : signer = sender := Except.ok.inj (haccepted.signed.symm.trans hsigned)
    have hkept : ¬ d.Destructs w signer := by
      by_cases hknown : w.accounts signer = none
      · exact hnew hknown
      · exact not_destructs haccept hmsg hsigned hknown
    have hle := execute_nonces hlawful haccept hkept
    rw [haccepted.nonces.2.1, UInt64.le_iff_toNat_le, toNat_succ haccepted.below] at hle
    rw [deliver_of_accept haccept]
    exact hle
  refine ⟨hfirst, fun address first last hrun => Chains.nonces hrun, ?_⟩
  intro last hrun
  have hlast : msg.raw.nonce.toNat + 1 ≤ (last.nonce sender).toNat :=
    hfirst.trans (UInt64.le_iff_toNat_le.mp (Chains.nonces hrun))
  refine ⟨hlast, ?_⟩
  intro again paid' msg' haccept' hmsg' hsigned'
  obtain ⟨found, signer, baseFee, fees, deducted, account, haccepted⟩ := anteHandle_ok haccept'
  obtain rfl : found = msg' := by simpa using haccepted.msgs.symm.trans hmsg'
  obtain rfl : signer = sender := Except.ok.inj (haccepted.signed.symm.trans hsigned')
  have heq := haccepted.nonces.1
  rw [UInt64.lt_iff_toNat_lt, ← heq]
  exact hlast

-- The payer of the fees sends its transaction again after it has failed in a hook.
section Examples

def payerDelivery : Delivery Unit :=
  ⟨payerBlock, delivering, payerTx, 0⟩

theorem payerDelivery_lawful : payerDelivery.Lawful where
  interpreter :=
    { create := by
        intro db sender data gas value history last hrun steps hhistory step hstep
        cases hrun
        rw [List.self_eq_append_left.mp hhistory] at hstep
        cases hstep
      call := by
        intro db sender recipient data gas value history last hrun steps hhistory step hstep
        cases hrun
        rw [List.self_eq_append_left.mp hhistory] at hstep
        cases hstep }
  hooks := by
    intro hooks hhooks sender msg res ctx next hrun
    cases hhooks
    cases hrun

theorem payerTx_executed_once :
    payerDelivery.accept payerCtx.world = .ok () paidCtx ∧
    2 ≤ ((payerDelivery.deliver payerCtx.world).1.nonce payer).toNat ∧
    ∀ paid, payerDelivery.accept (payerDelivery.deliver payerCtx.world).1 ≠ .ok () paid := by
  have haccept : payerDelivery.accept payerCtx.world = .ok () paidCtx := rfl
  have hmsg : payerDelivery.tx.msgs = [some payerMsg] := rfl
  have hknown : payerCtx.world.accounts payer ≠ none := by decide +kernel
  obtain ⟨hraised, -, hlater⟩ := executed_once payerDelivery payerDelivery_lawful payerCtx.world haccept hmsg rfl
    fun hnone => absurd hnone hknown
  refine ⟨haccept, hraised, fun paid hagain => ?_⟩
  exact absurd ((hlater _ .refl).2 payerDelivery paid payerMsg hagain rfl rfl) (by decide)

end Examples

end PosChain.Ante
