import PosChain.Evm.ApplyTransaction.Theorems
import PosChain.Evm.Transition.Authorizations

namespace PosChain.Evm

open StateDB Ethereum

variable {R : Type}

-- A call with its authorizations: the states in which it starts and returns, and what
-- is committed of it.
structure Called (block : Block R) (msg : Message) (recipient : Address) (txIndex : Nat) (w : World R)
    (vmError : String) (called returned : Machine (World R)) (committed : World R) : Prop where
  ran : ∃ out, (block.chain.runMessage block.env msg false).run ⟨.new ⟨w, []⟩ txIndex, []⟩ = .ok out returned
  authorized : called.db.holding block.env = authorizeAll block.chain.chainID
    ((StateDB.new ⟨w, []⟩ txIndex).holding block.env) msg.setCodeAuthorizations
  call : ∃ gas value,
    (Machine.exec block.env
      (block.chain.interpreter.call called.db msg.sender recipient msg.data gas value).script).run called =
        .ok () returned ∧
    vmError = (block.chain.interpreter.call called.db msg.sender recipient msg.data gas value).vmErr.getD ""
  published : ∀ known, Set.InjOn block.config.keccak256 known → [] ∈ known →
    w.Consistent block.config known → AllRegular block.config known w returned →
      ∀ address, ¬ Exempt block.config w address → Published block.config returned.db committed address

-- What the hooks make of a state. Hooks that fail make nothing of it.
inductive Hooked (block : Block R) (msg : Message) (first : Response) (base : World R) : World R → Prop where
  | none (h : block.hooks = none) : Hooked block msg first base base
  | failed (hooks : Address → Message → Response → Action (Ctx (World R)) Unit) (start last : Ctx (World R))
      (text : String) (h : block.hooks = some hooks)
      (hrun : (hooks msg.sender msg first).run start = .error (.error text) last) :
      Hooked block msg first base base
  | ran (hooks : Address → Message → Response → Action (Ctx (World R)) Unit) (start last : Ctx (World R))
      (h : block.hooks = some hooks) (hstart : start.world = base)
      (hrun : (hooks msg.sender msg first).run start = .ok () last) : Hooked block msg first base last.world

-- The hooks are not there or do not fail.
def HooksPass (block : Block R) (msg : Message) (first : Response) (start : Ctx (World R)) : Prop :=
  ∀ hooks, block.hooks = some hooks → ∃ last, (hooks msg.sender msg first).run start = .ok () last

-- An account is stored with a nonce and a code.
def World.Holds (config : Config) (w : World R) (address : Address) (account : Holding) : Prop :=
  (w.reads config address).nonce = account.nonce ∧ (w.reads config address).code = account.code

section Parts

variable {block : Block R} {msg : Message} {cfg : EVMConfig} {res first : Response} {ctx next tmp : Ctx (World R)}
  {txIndex : Nat}

theorem postTxProcessing_hooked (h : (block.postTxProcessing msg first tmp).run ctx = .ok res next) :
    (res.failed = false ↔ first.vmError = "" ∧ HooksPass block msg first tmp) ∧
      Hooked block msg first (if res.failed = true then ctx.world else tmp.world) next.world := by
  have hsucceeded : first.failed = false ↔ first.vmError = "" := by
    simp [Response.failed]
  rw [Block.postTxProcessing, run_get_bind] at h
  cases hhooks : block.hooks with
  | none =>
    rw [hhooks] at h
    dsimp only at h
    rw [run_bind_eq_ok] at h
    obtain ⟨_, written, hwrite, h⟩ := h
    obtain ⟨rfl, rfl⟩ := (run_pure_eq_ok _ _ _ _).mp h
    refine ⟨by simp [hsucceeded, HooksPass, hhooks], ?_⟩
    rw [run_runIf_eq_ok] at hwrite
    cases hfailed : first.failed with
    | true =>
      rw [hfailed] at hwrite
      obtain rfl : ctx = written := hwrite
      exact .none hhooks
    | false =>
      rw [hfailed] at hwrite
      obtain rfl := (run_modify_eq_ok _ _ _ _).mp hwrite
      exact .none hhooks
  | some hooks =>
    rw [hhooks] at h
    dsimp only at h
    split at h
    · rename_i last hlast
      rw [run_modify_bind] at h
      obtain ⟨rfl, rfl⟩ := (run_pure_eq_ok _ _ _ _).mp h
      refine ⟨?_, .ran hooks _ last hhooks ?_ hlast⟩
      · rw [hsucceeded, iff_self_and]
        intro herror found hfound
        obtain rfl := Option.some.inj (hhooks.symm.trans hfound)
        rw [hsucceeded.mpr herror] at hlast
        exact ⟨last, hlast⟩
      · cases first.failed <;> rfl
    · rename_i text last hlast
      obtain ⟨rfl, rfl⟩ := (run_pure_eq_ok _ _ _ _).mp h
      have hfailed : Response.failed
          { first with vmError := "failed to execute post transaction processing: " ++ text } = true := by
        simp [Response.failed]
      rw [hfailed]
      refine ⟨iff_of_false (by decide) fun hpass => ?_, .failed hooks _ last text hhooks hlast⟩
      obtain ⟨passed, hpassed⟩ := hpass.2 hooks hhooks
      rw [hsucceeded.mpr hpass.1] at hlast
      cases hpassed.symm.trans hlast
    · cases h

theorem holding_prepared {m : Machine (World R)} {u : Unit} {n : Machine (World R)} {chain : Chain (World R)}
    {env : Env (World R)} (h : (chain.prepare msg).run m = .ok u n) : n.db.holding env = m.db.holding env := by
  obtain ⟨accessList, rfl⟩ := prepare_machine h
  exact holding_of_objects (objects_eq_of_objects rfl rfl)

theorem applyMessage_called {recipient : Address} (hrecipient : msg.recipient = some recipient)
    (h : block.applyMessage msg cfg txIndex ctx = .ok (first, tmp)) :
    ∃ called returned, Called block msg recipient txIndex ctx.world first.vmError called returned tmp.world := by
  obtain ⟨m, hm, rfl⟩ := Block.applyMessage_ok h
  obtain ⟨leftoverGas, vmErr, returned, refund, hrun, -, -, hcommit, -, -, hvmError⟩ :=
    applyMessageWithConfig_ok hm
  obtain ⟨committed, hcommitted, rfl⟩ := commit_ok hcommit
  obtain ⟨gas, value, prepared, hprepared, hrest⟩ := runMessage_ok hrun
  rw [hrecipient] at hrest
  obtain ⟨called, hcalled, hexec, herror⟩ := runCall_ok hrest
  refine ⟨called, returned, ⟨_, hrun⟩, ?_, ⟨gas, value, hexec, ?_⟩, ?_⟩
  · rw [hcalled, holding_prepared hprepared]
  · rw [hvmError, ← herror]
  · intro known hinj hempty hconsistent hregular address hexempt
    have hkeeps : block.chain.Keeps block.env msg fun m =>
        HistoryMeets (Step.Regular block.config known ctx.world) m →
          m.Good block.config known ctx.world [] [] :=
      (good_invariant hinj hempty ctx.world).keeps [] (fun accessList hgood =>
        ⟨hgood.world, hgood.sound.of_core rfl rfl (fun _ => Iff.rfl) (.of_eq rfl)
          (objects_eq_of_objects rfl rfl), hgood.events, hgood.kept⟩) block.chain msg
    have hstart : (⟨.new ⟨ctx.world, []⟩ txIndex, []⟩ : Machine (World R)).Good block.config known ctx.world
        [] [] :=
      ⟨rfl, sound_new txIndex hconsistent, List.nil_prefix, fun _ _ _ => rfl⟩
    have hgood := hkeeps.runMessage (fun _ => hstart) hrun hregular
    exact hgood.sound.published hinj hempty hcommitted (.inl (by rw [hgood.world]; exact hexempt))

theorem Called.kept {recipient : Address} {w committed : World R} {vmError : String}
    {called returned : Machine (World R)}
    (h : Called block msg recipient txIndex w vmError called returned committed) {known : Set Bytes}
    (hinj : Set.InjOn block.config.keccak256 known) (hempty : [] ∈ known)
    (hconsistent : w.Consistent block.config known) (hregular : AllRegular block.config known w returned)
    {address : Address} (hexempt : ¬ Exempt block.config w address)
    (halive : returned.db.hasSelfDestructed block.env address = false)
    (hsame : returned.db.holding block.env address = called.db.holding block.env address) :
    committed.Holds block.config address (authorizeAll block.chain.chainID
      ((StateDB.new ⟨w, []⟩ txIndex).holding block.env) msg.setCodeAuthorizations address) := by
  have hreads := (h.published known hinj hempty hconsistent hregular address hexempt).2 halive
  rw [World.Holds, hreads, ← h.authorized, ← hsame]
  exact ⟨holding_nonce.symm, holding_code.symm⟩

-- A StateDB that has just been opened would commit what it has found.
theorem holds_new {w : World R} {config : Config} {known : Set Bytes} (hinj : Set.InjOn config.keccak256 known)
    (hempty : [] ∈ known) (hconsistent : w.Consistent config known) (txIndex : Nat) {address : Address}
    (hexempt : ¬ Exempt config w address) :
    w.Holds config address ((StateDB.new ⟨w, []⟩ txIndex).holding (VmKeeper.env config) address) := by
  have hcommit : (StateDB.new ⟨w, []⟩ txIndex).commit (VmKeeper.env config) = .ok () ⟨w, []⟩ := rfl
  have halive : (StateDB.new ⟨w, []⟩ txIndex).hasSelfDestructed (VmKeeper.env config) address = false := by
    simp only [hasSelfDestructed, getStateObject, StateDB.new, StateDB.world]
    cases (VmKeeper.env config).keeper.getAccount w address <;> rfl
  have hreads := ((sound_new txIndex hconsistent).published hinj hempty hcommit (.inl hexempt)).2 halive
  rw [World.Holds, hreads]
  exact ⟨holding_nonce.symm, holding_code.symm⟩

theorem AccountsKept.holds {w last : World R} (h : AccountsKept w last) (config : Config) (address : Address)
    (account : Holding) : last.Holds config address account ↔ w.Holds config address account := by
  simp only [World.Holds, World.reads, World.getCode, World.getCodeHash, h.nonces, h.codeHashes, h.codes]

end Parts

-- One authorization of an account without code, and a call that returns with or without
-- an error.
section Examples

def wallet : Address :=
  hexToAddress "0x0000000000000000000000000000000000007a29"

def setCodeBlock (vmErr : Option String) : Block Unit where
  config := sampleConfig
  chain := ⟨latestRules, 1, [], ⟨fun _ _ _ gas _ => ⟨.done, gas, none⟩, fun _ _ _ _ gas _ => ⟨.done, gas, vmErr⟩⟩⟩
  feeMarket := ⟨none, none, []⟩
  decimals := FeeMarket.eighteenDecimals
  evmDenom := "aatom"
  coinbase := .ok zeroAddress
  hooks := none
  feeCollector := zeroAddress

def prefundedAuthorization : SetCodeAuthorization :=
  ⟨1, wallet, 0, .ok prefunded⟩

def setCodeTx : Transaction :=
  ⟨.setCode 0 0 payer [] [prefundedAuthorization], 1, 60000, 0, [], .ok payer⟩

def setCodeMessage : Message :=
  setCodeTx.messageFrom payer none

def delegated : Machine (World Unit) :=
  endState (((setCodeBlock none).chain.runMessage (setCodeBlock none).env setCodeMessage false).run
    ⟨.new ⟨twoAccounts, []⟩ 0, []⟩)

def delegationCodes : Set Bytes :=
  {[], addressToDelegation wallet}

theorem delegationCodes_injOn : Set.InjOn sampleConfig.keccak256 delegationCodes := by
  refine Set.injOn_pair.mpr fun hhash => ?_
  revert hhash
  decide +kernel

theorem delegated_regular : AllRegular sampleConfig delegationCodes twoAccounts delegated := by
  change ∀ step ∈ ([_, _, _, _, _, _] : List (Step (World Unit))), _
  simp only [List.forall_mem_cons]
  have htouches := twoAccounts_touches
  exact ⟨⟨htouches _, trivial⟩, ⟨htouches _, .inr rfl⟩, ⟨htouches _, trivial⟩, ⟨htouches _, trivial⟩,
    ⟨htouches _, trivial⟩, ⟨htouches _, trivial⟩, by simp⟩

end Examples

end PosChain.Evm
