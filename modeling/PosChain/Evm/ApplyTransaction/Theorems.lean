import PosChain.Evm.ApplyTransaction
import PosChain.Evm.Sound

namespace PosChain.Evm

open Ethereum

variable {R : Type}

structure AccountsKept (w next : World R) : Prop where
  known : ∀ other account, w.accounts other = some account → next.accounts other = some account
  nonces : ∀ other, next.nonce other = w.nonce other
  locked : ∀ other, next.lockedCoin other = w.lockedCoin other
  codeHashes : next.codeHashes = w.codeHashes
  codes : next.codes = w.codes
  storage : next.storage = w.storage
  supply : next.supply = w.supply
  elsewhere : next.elsewhere = w.elsewhere

namespace AccountsKept

variable {w next last : World R}

theorem refl (w : World R) : AccountsKept w w :=
  ⟨fun _ _ h => h, fun _ => rfl, fun _ => rfl, rfl, rfl, rfl, rfl, rfl⟩

theorem trans (h : AccountsKept w next) (h' : AccountsKept next last) : AccountsKept w last where
  known other account hknown := h'.known other account (h.known other account hknown)
  nonces other := (h'.nonces other).trans (h.nonces other)
  locked other := (h'.locked other).trans (h.locked other)
  codeHashes := h'.codeHashes.trans h.codeHashes
  codes := h'.codes.trans h.codes
  storage := h'.storage.trans h.storage
  supply := h'.supply.trans h.supply
  elsewhere := h'.elsewhere.trans h.elsewhere

theorem putBalance (address : Address) (amount : Nat) (h : amount < 2 ^ 256) :
    AccountsKept w (w.putBalance address amount h) :=
  ⟨fun _ _ h => h, fun _ => rfl, fun _ => rfl, rfl, rfl, rfl, rfl, rfl⟩

theorem makeAccount {kind : AccountKind} (hkind : kind.locked = 0) (address : Address) :
    AccountsKept w (Bank.makeAccount kind address w) := by
  unfold Bank.makeAccount
  cases haccount : w.accounts address with
  | some account => exact refl w
  | none =>
    refine ⟨?_, ?_, ?_, rfl, rfl, rfl, rfl, rfl⟩
    · intro other account hknown
      have hne : other ≠ address := by
        rintro rfl
        rw [haccount] at hknown
        cases hknown
      simpa [World.putAccount, World.newAccountWithAddress, hne] using hknown
    · intro other
      by_cases heq : other = address
      · subst heq
        simp [World.nonce, World.record, Record.nonce, World.putAccount, World.newAccountWithAddress, haccount]
      · simp [World.nonce, World.record, Record.nonce, World.putAccount, World.newAccountWithAddress, heq]
    · intro other
      by_cases heq : other = address
      · subst heq
        simp [World.lockedCoin, World.putAccount, World.newAccountWithAddress, haccount, hkind]
      · simp [World.lockedCoin, World.putAccount, World.newAccountWithAddress, heq]

end AccountsKept

structure Sent (sender recipient : Address) (amount : Nat) (w next : World R) : Prop where
  enough : amount ≤ w.spendableCoin sender
  balances : ∀ other, (next.balances other : Int) =
    w.balances other - (if other = sender then (amount : Int) else 0) +
      (if other = recipient then (amount : Int) else 0)
  kept : AccountsKept w next

namespace Bank

variable {ctx next : Ctx (World R)} {sender recipient : Address} {amount : Nat} {u : Unit}

theorem balances_makeAccount (kind : AccountKind) (address : Address) (w : World R) :
    (makeAccount kind address w).balances = w.balances := by
  unfold makeAccount
  split <;> rfl

theorem subUnlockedCoins_ok (h : (subUnlockedCoins sender amount).run ctx = .ok u next) :
    amount ≤ ctx.world.spendableCoin sender ∧ next.world = spend ctx.world sender amount := by
  simp only [subUnlockedCoins, run_get_bind, run_lift_bind, failIf_eq_ok, decide_eq_false_iff_not,
    run_modify_bind, emit, run_modify_eq_ok] at h
  obtain ⟨_, hle, rfl⟩ := h
  exact ⟨Nat.le_of_not_lt hle, rfl⟩

theorem addCoins_ok (h : (addCoins recipient amount).run ctx = .ok u next) :
    ∃ hlt : ctx.world.balances recipient + amount < 2 ^ 256,
      next.world = ctx.world.putBalance recipient (ctx.world.balances recipient + amount) hlt := by
  rw [addCoins, run_get_bind] at h
  by_cases hlt : ctx.world.balances recipient + amount < 2 ^ 256
  · simp only [dif_pos hlt] at h
    rw [run_bind_eq_ok] at h
    obtain ⟨_, middle, hset, hemit⟩ := h
    cases hset
    rw [emit, run_modify_eq_ok] at hemit
    subst hemit
    exact ⟨hlt, rfl⟩
  · simp only [dif_neg hlt] at h
    cases h

theorem sendCoins_ok (h : (sendCoins sender recipient amount).run ctx = .ok u next) :
    Sent sender recipient amount ctx.world next.world := by
  rw [sendCoins, run_bind_eq_ok] at h
  obtain ⟨_, spent, hspent, h⟩ := h
  rw [run_bind_eq_ok] at h
  obtain ⟨_, added, hadded, h⟩ := h
  simp only [run_modify_bind, emit, run_modify_eq_ok] at h
  subst h
  obtain ⟨henough, hspent⟩ := subUnlockedCoins_ok hspent
  obtain ⟨hlt, hadded⟩ := addCoins_ok hadded
  refine ⟨henough, ?_, ?_⟩
  · intro other
    have hsender : amount ≤ ctx.world.balances sender := henough.trans (Nat.sub_le _ _)
    have hdebit : (spent.world.balances other : Int) =
        ctx.world.balances other - (if other = sender then (amount : Int) else 0) := by
      rw [hspent]
      by_cases heq : other = sender
      · subst heq
        simp [spend, World.putBalance, hsender]
      · simp [spend, World.putBalance, heq]
    have hcredit : (added.world.balances other : Int) =
        spent.world.balances other + (if other = recipient then (amount : Int) else 0) := by
      rw [hadded]
      by_cases heq : other = recipient
      · subst heq
        simp [World.putBalance]
      · simp [World.putBalance, heq]
    rw [balances_makeAccount, hcredit, hdebit]
  · have hfirst : AccountsKept ctx.world spent.world := by
      rw [hspent]
      exact .putBalance _ _ _
    have hsecond : AccountsKept spent.world added.world := by
      rw [hadded]
      exact .putBalance _ _ _
    exact (hfirst.trans hsecond).trans (.makeAccount rfl recipient)

theorem sendCoinsFromAccountToModule_ok
    (h : (sendCoinsFromAccountToModule sender recipient amount).run ctx = .ok u next) :
    Sent sender recipient amount ctx.world next.world := by
  rw [sendCoinsFromAccountToModule, run_bind_eq_ok] at h
  obtain ⟨_, made, hmade, hsend⟩ := h
  rw [getModuleAccount, run_get_bind, run_lift_bind] at hmade
  obtain ⟨_, -, hmade⟩ := hmade
  have hworld : made.world = makeAccount .moduleAccount recipient ctx.world := by
    rw [← (run_modify_eq_ok _ _ _ _).mp hmade]
  have hkept : AccountsKept ctx.world made.world := by
    rw [hworld]
    exact .makeAccount rfl recipient
  obtain ⟨henough, hbalances, hrest⟩ := sendCoins_ok hsend
  have hsame : made.world.balances = ctx.world.balances := by
    rw [hworld]
    exact balances_makeAccount _ _ _
  refine ⟨?_, ?_, hkept.trans hrest⟩
  · rw [World.spendableCoin, hsame, hkept.locked] at henough
    exact henough
  · rw [hsame] at hbalances
    exact hbalances

theorem sendCoinsFromModuleToAccount_ok {config : Config}
    (h : (sendCoinsFromModuleToAccount config sender recipient amount).run ctx = .ok u next) :
    Sent sender recipient amount ctx.world next.world := by
  rw [sendCoinsFromModuleToAccount, run_lift_bind] at h
  obtain ⟨_, -, hsend⟩ := h
  exact sendCoins_ok hsend

end Bank

theorem Sent.zero (sender recipient : Address) (w : World R) : Sent sender recipient 0 w w where
  enough := Nat.zero_le _
  balances other := by simp
  kept := .refl w

namespace Block

variable {block : Block R} {msg : Message} {tx : Transaction} {cfg : EVMConfig} {res : Response}
  {ctx next : Ctx (World R)} {txIndex : Nat}

theorem evmConfig_ok (h : block.evmConfig = .ok cfg) :
    cfg.minGasMultiplier = block.feeMarket.getParams.minGasMultiplier ∧
      block.getBaseFee = .ok cfg.baseFee := by
  simp only [evmConfig, wrappedParams, Check.bind_eq_ok, Check.pure_eq_ok] at h
  obtain ⟨params, ⟨baseFee, -, minGasPrice, -, converted, -, rfl⟩, coinbase, -, fee, hfee, rfl⟩ := h
  exact ⟨rfl, hfee⟩

theorem refundGas_ok {leftoverGas : UInt64} {u : Unit}
    (h : (block.refundGas msg leftoverGas).run ctx = .ok u next) :
    0 ≤ leftoverGas.toNat * msg.gasPrice ∧
      Sent block.feeCollector msg.sender (leftoverGas.toNat * msg.gasPrice).toNat ctx.world next.world := by
  rw [refundGas, run_lift_bind] at h
  obtain ⟨_, hsign, h⟩ := h
  rw [failIf_eq_ok, decide_eq_false_iff_not] at hsign
  refine ⟨by omega, ?_⟩
  by_cases hpos : 0 < leftoverGas.toNat * msg.gasPrice
  · rw [if_pos hpos, run_lift_bind] at h
    obtain ⟨amount, hamount, h⟩ := h
    rw [SdkInt.newIntFromBigInt_eq_ok] at hamount
    rw [rewordError_eq_ok, hamount] at h
    exact Bank.sendCoinsFromModuleToAccount_ok h
  · rw [if_neg hpos] at h
    obtain ⟨-, rfl⟩ := (run_pure_eq_ok _ _ _ _).mp h
    have hzero : (leftoverGas.toNat * msg.gasPrice).toNat = 0 := by omega
    rw [hzero]
    exact .zero _ _ _

theorem postTxProcessing_ok {first : Response} {tmp : Ctx (World R)}
    (h : (block.postTxProcessing msg first tmp).run ctx = .ok res next) :
    res.gasUsed = first.gasUsed ∧
      (next.world = ctx.world ∨ next.world = tmp.world ∨
        ∃ hooks start last, block.hooks = some hooks ∧
          (start.world = ctx.world ∨ start.world = tmp.world) ∧
          (hooks msg.sender msg first).run start = .ok () last ∧ next.world = last.world) := by
  rw [postTxProcessing, run_get_bind] at h
  cases hhooks : block.hooks with
  | none =>
    rw [hhooks] at h
    dsimp only at h
    rw [run_bind_eq_ok] at h
    obtain ⟨_, written, hwrite, h⟩ := h
    obtain ⟨rfl, rfl⟩ := (run_pure_eq_ok _ _ _ _).mp h
    refine ⟨rfl, ?_⟩
    rw [run_runIf_eq_ok] at hwrite
    cases hfailed : first.failed with
    | true =>
      rw [hfailed] at hwrite
      left
      exact congrArg Ctx.world hwrite.symm
    | false =>
      rw [hfailed] at hwrite
      right
      left
      have hworld := (run_modify_eq_ok _ _ _ _).mp hwrite
      rw [← hworld]
      rfl
  | some hooks =>
    rw [hhooks] at h
    dsimp only at h
    split at h
    · rename_i last hlast
      rw [run_modify_bind] at h
      obtain ⟨rfl, rfl⟩ := (run_pure_eq_ok _ _ _ _).mp h
      refine ⟨rfl, .inr (.inr ⟨hooks, _, last, rfl, ?_, hlast, rfl⟩)⟩
      cases first.failed with
      | true => exact .inl rfl
      | false => exact .inr rfl
    · obtain ⟨rfl, rfl⟩ := (run_pure_eq_ok _ _ _ _).mp h
      exact ⟨rfl, .inl rfl⟩
    · cases h

theorem executeTransaction_ok (h : (block.executeTransaction tx txIndex).run ctx = .ok (msg, res) next) :
    ∃ cfg sender first tmp, block.evmConfig = .ok cfg ∧ tx.sender = .ok sender ∧
      msg = tx.messageFrom sender cfg.baseFee ∧ block.applyMessage msg cfg txIndex ctx = .ok (first, tmp) ∧
      (block.postTxProcessing msg first tmp).run ctx = .ok res next := by
  simp only [executeTransaction, run_lift_bind, run_get_bind, annotate_eq_ok, Transaction.toMessage,
    Check.bind_eq_ok, passOn_eq_ok, Check.pure_eq_ok] at h
  obtain ⟨cfg, hcfg, found, ⟨sender, hsender, rfl⟩, ⟨first, tmp⟩, hfirst, h⟩ := h
  rw [run_bind_eq_ok] at h
  obtain ⟨last, final, hlast, h⟩ := h
  obtain ⟨hpair, rfl⟩ := (run_pure_eq_ok _ _ _ _).mp h
  cases hpair
  exact ⟨cfg, sender, first, tmp, hcfg, hsender, rfl, hfirst, hlast⟩

theorem applyTransaction_ok (h : (block.applyTransaction tx txIndex).run ctx = .ok res next) :
    ∃ msg executed, (block.executeTransaction tx txIndex).run ctx = .ok (msg, res) executed ∧
      (block.refundGas msg (remainingGas msg res)).run executed = .ok () next := by
  rw [applyTransaction, run_bind_eq_ok] at h
  obtain ⟨⟨msg, found⟩, executed, hexecuted, h⟩ := h
  rw [run_bind_eq_ok] at h
  obtain ⟨_, refunded, hrefund, h⟩ := h
  obtain ⟨rfl, rfl⟩ := (run_pure_eq_ok _ _ _ _).mp h
  exact ⟨msg, executed, hexecuted, (wrapError_eq_ok _ _ _ _ _).mp hrefund⟩

theorem applyMessage_ok {tmp : Ctx (World R)} (h : block.applyMessage msg cfg txIndex ctx = .ok (res, tmp)) :
    ∃ m, (block.chain.applyMessageWithConfig block.env msg cfg true false false).run
      ⟨.new ⟨ctx.world, []⟩ txIndex, []⟩ = .ok res m ∧ tmp = m.db.ctx := by
  unfold applyMessage at h
  split at h
  · rename_i found m hfound
    cases h
    exact ⟨m, hfound, rfl⟩
  · cases h

end Block

end PosChain.Evm
