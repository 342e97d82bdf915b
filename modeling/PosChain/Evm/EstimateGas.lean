import PosChain.Evm.ApplyTransaction
import PosChain.Evm.Publish
import PosChain.Evm.Transition.Gas

namespace PosChain.Evm

open Ethereum

-- Whether a message fails with a gas limit, and its response unless the limit is too
-- low for it to start.
abbrev Executable := UInt64 → Check (Bool × Option Response)

-- The sum of the bounds is taken in 64 bits. The fuel bounds the rounds of the loop.
def binSearch (executable : Executable) : Nat → UInt64 → UInt64 → Option (Check UInt64)
  | 0, _, _ => none
  | fuel + 1, lo, hi =>
    if lo + 1 < hi then
      match executable ((hi + lo) / 2) with
      | .error fault => some (.error fault)
      | .ok (true, _) => binSearch executable fuel ((hi + lo) / 2) hi
      | .ok (false, _) => binSearch executable fuel lo ((hi + lo) / 2)
    else some (.ok hi)

-- The limits that the search evaluates, each with the bounds of its round.
def probes (executable : Executable) : Nat → UInt64 → UInt64 → List (UInt64 × UInt64 × UInt64)
  | 0, _, _ => []
  | fuel + 1, lo, hi =>
    if lo + 1 < hi then
      (lo, (hi + lo) / 2, hi) ::
        match executable ((hi + lo) / 2) with
        | .error _ => []
        | .ok (true, _) => probes executable fuel ((hi + lo) / 2) hi
        | .ok (false, _) => probes executable fuel lo ((hi + lo) / 2)
    else []

-- A message fails below its threshold and succeeds from it on.
structure Threshold (executable : Executable) (threshold : Nat) : Prop where
  fails : ∀ gas : UInt64, gas.toNat < threshold → ∃ res, executable gas = .ok (true, res)
  succeeds : ∀ gas : UInt64, threshold ≤ gas.toNat → ∃ res, executable gas = .ok (false, some res)

-- The highest threshold that a search finds before the sum of its bounds passes 64 bits.
-- As long as every limit fails, the upper bound stays, and the lower one moves up.
def searchReach (lo hi : Nat) : Nat :=
  if lo + 1 < hi then
    if lo + hi < 2 ^ 64 then searchReach ((lo + hi) / 2) hi else lo
  else hi
termination_by hi - lo

theorem le_searchReach {lo hi : Nat} (h : lo ≤ hi) : lo ≤ searchReach lo hi := by
  fun_induction searchReach lo hi with
  | case1 lo hgo hsum ih => exact (show lo ≤ (lo + hi) / 2 by omega).trans (ih (by omega))
  | case2 lo hgo hsum => exact le_rfl
  | case3 lo hdone => exact h

theorem searchReach_of_le {lo hi : Nat} (h : lo ≤ hi) (hbound : hi ≤ 2 ^ 63) : searchReach lo hi = hi := by
  fun_induction searchReach lo hi with
  | case1 lo hgo hsum ih => exact ih (by omega)
  | case2 lo hgo hsum => omega
  | case3 lo hdone => rfl

def Inside (probe : UInt64 × UInt64 × UInt64) : Prop :=
  probe.1 < probe.2.1 ∧ probe.2.1 < probe.2.2

-- The search finds the threshold and stays inside the bounds of its rounds.
def Finds (executable : Executable) (fuel : Nat) (lo hi : UInt64) (threshold : Nat) : Prop :=
  ∃ gas, binSearch executable fuel lo hi = some (.ok gas) ∧ gas.toNat = threshold ∧
    ∀ probe ∈ probes executable fuel lo hi, Inside probe

section Search

variable {executable : Executable} {threshold : Nat} {lo hi : UInt64}

theorem toNat_mid : ((hi + lo) / 2).toNat = (hi.toNat + lo.toNat) % 2 ^ 64 / 2 := by
  have hd : ((hi + lo) / 2).toNat = (hi + lo).toNat / (2 : UInt64).toNat := UInt64.toNat_div _ _
  rw [hd, UInt64.toNat_add]
  rfl

theorem succ_lt_iff (hlt : lo.toNat < hi.toNat) : lo + 1 < hi ↔ lo.toNat + 1 < hi.toNat := by
  have ha : (lo + 1).toNat = (lo.toNat + 1) % 2 ^ 64 := UInt64.toNat_add _ _
  have hb := hi.toNat_lt
  rw [UInt64.lt_iff_toNat_lt, ha, Nat.mod_eq_of_lt (by omega)]

theorem finds_of_done {fuel : Nat} (hdone : ¬ lo + 1 < hi) (hlo : lo.toNat < threshold)
    (hhi : threshold ≤ hi.toNat) :
    searchReach lo.toNat hi.toNat = hi.toNat ∧ Finds executable (fuel + 1) lo hi threshold := by
  have hgap : ¬ lo.toNat + 1 < hi.toNat := fun hgap => hdone ((succ_lt_iff (by omega)).mpr hgap)
  refine ⟨by rw [searchReach, if_neg hgap], hi, by rw [binSearch, if_neg hdone], by omega, ?_⟩
  simp [probes, if_neg hdone]

theorem Finds.round {fuel : Nat} {res : Bool × Option Response} (hgo : lo + 1 < hi)
    (hinside : Inside (lo, (hi + lo) / 2, hi)) (hres : executable ((hi + lo) / 2) = .ok res)
    (h : Finds executable fuel (if res.1 then (hi + lo) / 2 else lo) (if res.1 then hi else (hi + lo) / 2)
      threshold) : Finds executable (fuel + 1) lo hi threshold := by
  obtain ⟨gas, hgas, heq, hprobes⟩ := h
  obtain ⟨failed, answer⟩ := res
  have hlist : ∀ probe ∈ probes executable (fuel + 1) lo hi, Inside probe := by
    rw [probes, if_pos hgo, hres]
    intro probe hp
    rcases List.mem_cons.mp hp with rfl | hp
    · exact hinside
    · cases failed <;> exact hprobes probe hp
  refine ⟨gas, ?_, heq, hlist⟩
  rw [binSearch, if_pos hgo, hres]
  cases failed <;> exact hgas

-- The threshold stays above the lower bound and is not above the upper one.
theorem binSearch_finds (h : Threshold executable threshold) (k : Nat) (hlo : lo.toNat < threshold)
    (hhi : threshold ≤ hi.toNat) (hwidth : hi.toNat - lo.toNat ≤ 2 ^ k) :
    (threshold ≤ searchReach lo.toNat hi.toNat → Finds executable (k + 1) lo hi threshold) ∧
      (searchReach lo.toNat hi.toNat < threshold → ∃ probe ∈ probes executable (k + 1) lo hi, ¬ Inside probe) := by
  induction k generalizing lo hi with
  | zero =>
    obtain ⟨hreach, hfinds⟩ := finds_of_done (by rw [succ_lt_iff (by omega)]; omega) hlo hhi
    rw [hreach]
    exact ⟨fun _ => hfinds, fun hlt => by omega⟩
  | succ k ih =>
    by_cases hgo : lo + 1 < hi
    · have hgap := (succ_lt_iff (by omega)).mp hgo
      have hmid := @toNat_mid lo hi
      have hsize := hi.toNat_lt
      rw [Nat.pow_succ] at hwidth
      rw [searchReach, if_pos hgap]
      by_cases hsum : lo.toNat + hi.toNat < 2 ^ 64
      · -- the limit is between the bounds, and one of them moves to it
        rw [Nat.mod_eq_of_lt (by omega), Nat.add_comm] at hmid
        have hinside : Inside (lo, (hi + lo) / 2, hi) := by
          change lo < (hi + lo) / 2 ∧ (hi + lo) / 2 < hi
          rw [UInt64.lt_iff_toNat_lt, UInt64.lt_iff_toNat_lt, hmid]
          omega
        rw [if_pos hsum, ← hmid]
        by_cases hbelow : ((hi + lo) / 2).toNat < threshold
        · obtain ⟨res, hres⟩ := h.fails _ hbelow
          obtain ⟨hfinds, hwraps⟩ := ih hbelow hhi (by omega)
          refine ⟨fun hreach => .round hgo hinside hres (hfinds hreach), fun hreach => ?_⟩
          obtain ⟨probe, hprobe, hnot⟩ := hwraps hreach
          rw [probes, if_pos hgo, hres]
          exact ⟨probe, List.mem_cons_of_mem _ hprobe, hnot⟩
        · obtain ⟨res, hres⟩ := h.succeeds _ (Nat.le_of_not_lt hbelow)
          have habove : ((hi + lo) / 2).toNat ≤ searchReach ((hi + lo) / 2).toNat hi.toNat :=
            le_searchReach (by omega)
          obtain ⟨hfinds, -⟩ := ih hlo (Nat.le_of_not_lt hbelow) (by omega)
          rw [searchReach_of_le (by omega) (by omega)] at hfinds
          exact ⟨fun _ => .round hgo hinside hres (hfinds (by omega)), fun hreach => by omega⟩
      · -- the sum wraps, and the limit falls below the lower bound
        rw [if_neg hsum]
        refine ⟨fun hreach => by omega, fun _ => ⟨(lo, (hi + lo) / 2, hi), ?_, ?_⟩⟩
        · rw [probes, if_pos hgo]
          exact List.mem_cons_self
        · rintro ⟨hlow, -⟩
          rw [UInt64.lt_iff_toNat_lt, hmid] at hlow
          dsimp only at hlow
          have hlosize := lo.toNat_lt
          omega
    · obtain ⟨hreach, hfinds⟩ := finds_of_done hgo hlo hhi
      rw [hreach]
      exact ⟨fun _ => hfinds, fun hlt => by omega⟩

end Search

structure EstimateGasResponse where
  gas : UInt64
  vmError : String

-- State overrides after decoding: the EVM with the precompiles as they are moved, and what is
-- written to the state of an execution.
structure StateOverride (W : Type) where
  activePrecompiles : List Address
  interpreter : Interpreter W
  apply : StateDB W → Check (StateDB W)

-- A request after its arguments are decoded. The message is what they are made into,
-- with defaults for what they leave open.
structure EstimateRequest (W : Type) where
  overrides : Check (Option (StateOverride W))
  gasCap : UInt64
  gas : Option UInt64
  value : Option Nat
  message : Check Message
  rpc : Bool

def EstimateRequest.highest {W : Type} (req : EstimateRequest W) (maxGas : Option Int) : UInt64 :=
  let block := match maxGas with
    | some maxGas => if 0 < maxGas then UInt64.ofNat maxGas.toNat else req.gasCap
    | none => req.gasCap
  let hi := match req.gas with
    | some gas => if 21000 ≤ gas then gas else block
    | none => block
  if req.gasCap ≠ 0 ∧ req.gasCap < hi then req.gasCap else hi

-- An account that pays for the gas bounds the limit further.
def EstimateRequest.affordable {W : Type} (req : EstimateRequest W) (gasFeeCap available : Nat) (hi : UInt64) :
    Check UInt64 := do
  if gasFeeCap = 0 then return hi
  failIf (req.value.any fun value => available ≤ value) "insufficient funds for transfer"
  let allowance := (available - req.value.getD 0) / gasFeeCap
  if allowance < 2 ^ 64 ∧ allowance < hi.toNat then
    failIf (allowance < 21000) "insufficient funds for gas * price + value"
    return UInt64.ofNat allowance
  return hi

namespace Block

variable {R : Type} (block : Block R) (ctx : Ctx (World R)) (maxGas : Option Int)

-- The nonce of the sender is one ahead, as it is after the ante handler.
def advanceSender (msg : Message) : Action (World R) Unit := do
  let w ← get
  let account := (w.getAccount block.config msg.sender).getD ⟨0, 0, block.config.emptyCodeHash, none⟩
  runIf (w.accounts msg.sender).isNone
    (modify fun w => (w.newAccountWithAddress).2.putAccount msg.sender (w.newAccountWithAddress).1)
  VmKeeper.setAccount block.config msg.sender { account with nonce := msg.nonce + 1 }

def tooLow (text : String) : Bool :=
  text == "apply message: intrinsic gas too low" || text.startsWith "insufficient gas for floor data gas cost"

-- The chain and the state that an execution starts from, with the overrides if there are any.
def overridden (overrides : Option (StateOverride (World R))) (db : StateDB (World R)) :
    Check (Chain (World R) × StateDB (World R)) :=
  match overrides with
  | none => .ok (block.chain, db)
  | some diff => do
    let db ← annotate "failed to apply state override" (diff.apply db)
    return ({ block.chain with activePrecompiles := diff.activePrecompiles, interpreter := diff.interpreter }, db)

-- A limit that does not cover the start is one that fails.
def judged {σ : Type} : EStateM.Result Fault σ Response → Check (Bool × Option Response)
  | .ok res _ => .ok (res.failed, some res)
  | .error (.error text) _ => if tooLow text then .ok (true, none) else .error (.error text)
  | .error (.panic text) _ => .error (.panic text)

def executable (msg : Message) (cfg : EVMConfig) (overrides : Option (StateOverride (World R))) (rpc : Bool) :
    Executable := fun gas =>
  match (runIf rpc (block.advanceSender msg)).run ctx.world with
  | .error fault _ => .error fault
  | .ok _ w =>
    match block.overridden overrides (.new ⟨w, if rpc then [] else ctx.events⟩ 0) with
    | .error fault => .error fault
    | .ok (chain, db) =>
      judged ((chain.applyMessageWithConfig block.env { msg with gasLimit := gas } cfg false false false).run
        ⟨db, []⟩)

def plainTransfer (msg : Message) : Bool :=
  decide (msg.data.length = 0) && msg.recipient.any fun address =>
    (ctx.world.getAccount block.config address).all fun account =>
      decide (account.codeHash = block.config.emptyCodeHash)

def exceedsAllowance (gas : UInt64) : Fault :=
  .error ("gas required exceeds allowance (" ++ toString gas.toNat ++ ")")

def failedAnswer (gasCap hi : UInt64) (result : Option Response) : Check EstimateGasResponse :=
  if hi = gasCap then
    match result with
    | some res =>
      if res.vmError ≠ "out of gas" then
        if res.vmError = "execution reverted" then .ok ⟨0, res.vmError⟩ else .error (.error res.vmError)
      else .error (exceedsAllowance gasCap)
    | none => .error (exceedsAllowance gasCap)
  else .error (exceedsAllowance hi)

def optimisticGasLimit (res : Response) : UInt64 :=
  (res.maxUsedGas + 2300) * 64 / 63

def narrowed (executable : Executable) (hi : UInt64) (res : Response) : Check (UInt64 × UInt64) :=
  if optimisticGasLimit res < hi then do
    let (failed, _) ← executable (optimisticGasLimit res)
    return if failed then (optimisticGasLimit res, hi) else (20999, optimisticGasLimit res)
  else .ok (20999, hi)

def gasResponse : Check UInt64 → Check EstimateGasResponse
  | .ok gas => .ok ⟨gas, ""⟩
  | .error fault => .error fault

def searchLimit (fuel : Nat) (executable : Executable) (gasCap hi : UInt64) : Option (Check EstimateGasResponse) :=
  match executable hi with
  | .error fault => some (.error fault)
  | .ok (true, result) => some (failedAnswer gasCap hi result)
  | .ok (false, result) =>
    match result.map (narrowed executable hi) with
    | none => some (.error nilDereference)
    | some (.error fault) => some (.error fault)
    | some (.ok (lo, hi)) => (binSearch executable fuel lo hi).map gasResponse

def succeedsAt (executable : Executable) (gas : UInt64) : Bool :=
  match executable gas with
  | .ok (failed, _) => !failed
  | .error _ => false

def allowed (req : EstimateRequest (World R)) :
    Check (Message × EVMConfig × Option (StateOverride (World R)) × UInt64) := do
  let overrides ← annotate "rpc error: code = InvalidArgument desc = invalid state overrides format" req.overrides
  failIf (req.gasCap < 21000) "rpc error: code = InvalidArgument desc = gas cap cannot be lower than 21000"
  let cfg ← block.evmConfig.mapError
    (Fault.reword fun _ => "rpc error: code = Internal desc = failed to load evm config")
  let msg ← req.message
  let hi ← req.affordable msg.gasFeeCap (ctx.world.spendableCoin msg.sender) (req.highest maxGas)
  return (msg, cfg, overrides, hi)

def estimateGasInternal (fuel : Nat) (req : EstimateRequest (World R)) : Option (Check EstimateGasResponse) :=
  match block.allowed ctx maxGas req with
  | .error fault => some (.error fault)
  | .ok (msg, cfg, overrides, hi) =>
    let executable := block.executable ctx msg cfg overrides req.rpc
    if block.plainTransfer ctx msg && succeedsAt executable 21000 then some (.ok ⟨21000, ""⟩)
    else searchLimit fuel executable (req.highest maxGas) hi

end Block

-- The gas that a message costs before it runs, unless its sum passes 64 bits.
def startGas (rules : Rules) (msg : Message) : Nat :=
  dataGas rules.toForks msg.recipient.isNone msg.data + msg.accessList.length * 2400 +
    (msg.accessList.map fun tuple => tuple.2.length).sum * 1900 + msg.setCodeAuthorizations.length * 25000

-- The least sufficient limit if it is allowed, and an error or a revert otherwise.
def LeastWithin (hi : UInt64) (threshold : Nat) (answer : Check EstimateGasResponse) : Prop :=
  if 21000 ≤ threshold ∧ threshold ≤ hi.toNat then
    ∃ res, answer = .ok res ∧ res.gas.toNat = threshold ∧ res.vmError = ""
  else (∃ fault, answer = .error fault) ∨ ∃ res, answer = .ok res ∧ res.vmError = "execution reverted"

-- The search that follows a success with the highest limit tries no limit outside the
-- bounds of its round.
def SearchInside (executable : Executable) (hi : UInt64) : Prop :=
  ∀ res lo top, executable hi = .ok (false, some res) → Block.narrowed executable hi res = .ok (lo, top) →
    ∀ probe ∈ probes executable 65 lo top, Inside probe

-- The threshold is within reach of the search from the bounds that the optimistic limit leaves.
def WithinReach (executable : Executable) (hi : UInt64) (threshold : Nat) : Prop :=
  ∀ res lo top, executable hi = .ok (false, some res) → Block.narrowed executable hi res = .ok (lo, top) →
    threshold ≤ searchReach lo.toNat top.toNat

section Estimate

variable {R : Type} {block : Block R} {ctx : Ctx (World R)} {msg : Message} {cfg : EVMConfig} {rpc : Bool}
  {overrides : Option (StateOverride (World R))} {executable : Executable} {threshold : Nat} {hi : UInt64}

theorem startGas_ge (rules : Rules) : 21000 ≤ startGas rules msg := by
  have hd : 21000 ≤ dataGas rules.toForks msg.recipient.isNone msg.data := by
    simp only [dataGas]
    split <;> omega
  unfold startGas
  omega

theorem checkGas_low {chain : Chain (World R)} (hsize : startGas chain.rules msg < 2 ^ 64) {gas : UInt64}
    (hlow : gas.toNat < 21000) : ∃ fault, chain.checkGas { msg with gasLimit := gas } = .error fault := by
  cases hc : chain.checkGas { msg with gasLimit := gas } with
  | error fault => exact ⟨fault, rfl⟩
  | ok left =>
    simp only [Chain.checkGas, Chain.getEthIntrinsicGas, intrinsicGas, Check.bind_eq_ok, annotate_eq_ok,
      failIf_eq_ok, Check.pure_eq_ok, decide_eq_false_iff_not] at hc
    obtain ⟨start, ⟨-, -, hstart⟩, -, hge, -⟩ := hc
    have hs : start.toNat = startGas chain.rules msg := by
      rw [← hstart, UInt64.toNat_ofNat_of_lt' (by exact hsize)]
      rfl
    have hm := @startGas_ge msg chain.rules
    rw [UInt64.lt_iff_toNat_lt] at hge
    omega

theorem executable_low (hsize : startGas block.chain.rules msg < 2 ^ 64) {gas : UInt64}
    (hlow : gas.toNat < 21000) (res : Option Response) :
    block.executable ctx msg cfg overrides rpc gas ≠ .ok (false, res) := by
  intro hok
  unfold Block.executable at hok
  split at hok
  · cases hok
  split at hok
  · cases hok
  · rename_i chain db hchain
    -- the overrides leave the rules of the chain, and with them the gas of the start
    have hrules : chain.rules = block.chain.rules := by
      unfold Block.overridden at hchain
      split at hchain
      · cases hchain
        rfl
      · simp only [Check.bind_eq_ok, Check.pure_eq_ok] at hchain
        obtain ⟨_, -, hpair⟩ := hchain
        cases hpair
        rfl
    rw [← hrules] at hsize
    obtain ⟨fault, hfault⟩ := checkGas_low hsize hlow
    have hrun : ∀ m, (chain.applyMessageWithConfig block.env { msg with gasLimit := gas } cfg false false
        false).run m = .error fault m := by
      intro m
      simp only [Chain.applyMessageWithConfig, Chain.runMessage, hfault]
      rfl
    rw [hrun] at hok
    cases fault with
    | error text =>
      rw [Block.judged] at hok
      split at hok <;> cases hok
    | panic text => cases hok

theorem Threshold.ge (hsize : startGas block.chain.rules msg < 2 ^ 64)
    (h : Threshold (block.executable ctx msg cfg overrides rpc) threshold) : 21000 ≤ threshold := by
  by_contra hlt
  have hn : (UInt64.ofNat threshold).toNat = threshold :=
    UInt64.toNat_ofNat_of_lt' (by change _ < 2 ^ 64; omega)
  obtain ⟨res, hres⟩ := h.succeeds (UInt64.ofNat threshold) hn.ge
  exact executable_low hsize (by omega) _ hres

theorem Threshold.succeeds_iff (h : Threshold executable threshold) (gas : UInt64) :
    Block.succeedsAt executable gas = true ↔ threshold ≤ gas.toNat := by
  by_cases hlt : gas.toNat < threshold
  · obtain ⟨res, hres⟩ := h.fails gas hlt
    simp [Block.succeedsAt, hres, hlt]
  · obtain ⟨res, hres⟩ := h.succeeds gas (Nat.le_of_not_lt hlt)
    simp [Block.succeedsAt, hres, Nat.le_of_not_lt hlt]

theorem Threshold.narrowed (h : Threshold executable threshold) (hge : 21000 ≤ threshold)
    (hhi : threshold ≤ hi.toNat) (res : Response) :
    ∃ lo top, Block.narrowed executable hi res = .ok (lo, top) ∧ lo.toNat < threshold ∧
      threshold ≤ top.toNat ∧ top.toNat ≤ hi.toNat := by
  have hstart : (20999 : UInt64).toNat = 20999 := rfl
  unfold Block.narrowed
  by_cases hopt : Block.optimisticGasLimit res < hi
  · rw [if_pos hopt]
    rw [UInt64.lt_iff_toNat_lt] at hopt
    by_cases hlt : (Block.optimisticGasLimit res).toNat < threshold
    · obtain ⟨answer, hres⟩ := h.fails _ hlt
      rw [hres]
      exact ⟨_, _, rfl, hlt, hhi, le_rfl⟩
    · obtain ⟨answer, hres⟩ := h.succeeds _ (Nat.le_of_not_lt hlt)
      rw [hres]
      exact ⟨_, _, rfl, by omega, by omega, by omega⟩
  · rw [if_neg hopt]
    exact ⟨_, _, rfl, by omega, hhi, le_rfl⟩

theorem Threshold.searchInside_iff (h : Threshold executable threshold) (hge : 21000 ≤ threshold) :
    SearchInside executable hi ↔ WithinReach executable hi threshold := by
  refine forall_congr' fun res => forall_congr' fun lo => forall_congr' fun top => ?_
  refine imp_congr_right fun hok => imp_congr_right fun hbounds => ?_
  have hhi : threshold ≤ hi.toNat := by
    by_contra hlt
    obtain ⟨answer, hres⟩ := h.fails hi (by omega)
    rw [hres] at hok
    cases hok
  obtain ⟨lo', top', hnarrow, hlo, htop, -⟩ := h.narrowed hge hhi res
  rw [hbounds] at hnarrow
  cases hnarrow
  have hsize := top.toNat_lt
  obtain ⟨hfinds, hwraps⟩ := binSearch_finds h 64 hlo htop (by omega)
  constructor
  · intro hinside
    by_contra hlt
    obtain ⟨probe, hprobe, hnot⟩ := hwraps (by omega)
    exact hnot (hinside probe hprobe)
  · intro hreach
    obtain ⟨gas, -, -, hprobes⟩ := hfinds hreach
    exact hprobes

theorem failedAnswer_cases (gasCap : UInt64) (result : Option Response) :
    (∃ fault, Block.failedAnswer gasCap hi result = .error fault) ∨
      ∃ res, Block.failedAnswer gasCap hi result = .ok res ∧ res.vmError = "execution reverted" := by
  unfold Block.failedAnswer
  split
  · cases result with
    | none => exact .inl ⟨_, rfl⟩
    | some res =>
      dsimp only
      split
      · split
        · rename_i hrevert
          exact .inr ⟨_, rfl, hrevert⟩
        · exact .inl ⟨_, rfl⟩
      · exact .inl ⟨_, rfl⟩
  · exact .inl ⟨_, rfl⟩

theorem Threshold.searchLimit (h : Threshold executable threshold) (hge : 21000 ≤ threshold)
    (hreach : WithinReach executable hi threshold) (gasCap : UInt64) :
    ∃ answer, Block.searchLimit 65 executable gasCap hi = some answer ∧ LeastWithin hi threshold answer := by
  unfold Block.searchLimit
  by_cases hhi : threshold ≤ hi.toNat
  · obtain ⟨res, hres⟩ := h.succeeds hi hhi
    obtain ⟨lo, top, hnarrow, hlo, htop, hle⟩ := h.narrowed hge hhi res
    have hsize := top.toNat_lt
    obtain ⟨gas, hgas, heq, -⟩ :=
      (binSearch_finds h 64 hlo htop (by omega)).1 (hreach res lo top hres hnarrow)
    rw [hres]
    simp only [Option.map_some, hnarrow, hgas]
    refine ⟨_, rfl, ?_⟩
    rw [LeastWithin, if_pos ⟨hge, hhi⟩]
    exact ⟨_, rfl, heq, rfl⟩
  · obtain ⟨result, hres⟩ := h.fails hi (by omega)
    rw [hres]
    refine ⟨_, rfl, ?_⟩
    rw [LeastWithin, if_neg fun hin => hhi hin.2]
    exact failedAnswer_cases gasCap result

end Estimate

-- A contract that reverts unless it is given some gas that it does not use.
section Examples

-- PUSH8 (need - 5), GAS, LT, PUSH1 15, JUMPI, STOP, JUMPDEST, PUSH0, PUSH0, REVERT
def gateEVM (need : UInt64) : Interpreter (World Unit) where
  create _ _ _ gas _ := ⟨.done, gas, none⟩
  call _ _ _ _ gas _ := ⟨.done, if need ≤ gas then gas - 21 else if 26 ≤ gas then gas - 26 else 0,
    if need ≤ gas then none else if 26 ≤ gas then some "execution reverted" else some "out of gas"⟩

def gateBlock (need : UInt64) : Block Unit where
  config := sampleConfig
  chain := ⟨latestRules, 1, [], gateEVM need⟩
  feeMarket := ⟨none, none, []⟩
  decimals := FeeMarket.eighteenDecimals
  evmDenom := "aatom"
  coinbase := .ok zeroAddress
  hooks := none
  feeCollector := zeroAddress

def gateWorld : World Unit :=
  { twoAccounts with
    codeHashes := (∅ : Std.ExtTreeMap Address Hash).insert prefunded (sampleConfig.keccak256 [0x67]) }

def gateMessage (gas : UInt64) : Message :=
  ⟨payer, some prefunded, 1, 0, gas, 0, 0, 0, [], [], []⟩

def gateRequest (gasCap : UInt64) : EstimateRequest (World Unit) :=
  ⟨.ok none, gasCap, some 0xffffffffffffffff, none, .ok (gateMessage 0), true⟩

def gateStart (need : UInt64) : World Unit :=
  endState ((runIf true ((gateBlock need).advanceSender (gateMessage 0))).run gateWorld)

section Runs

variable {need gas : UInt64} {cfg : EVMConfig}

theorem gate_checkGas : (gateBlock need).chain.checkGas (gateMessage gas) =
    if gas < 21000 then .error (.error "apply message: intrinsic gas too low") else .ok (gas - 21000) := by
  have hstart : (gateBlock need).chain.getEthIntrinsicGas (gateMessage gas) = .ok 21000 := by
    simp [Chain.getEthIntrinsicGas, intrinsicGas, dataGas, gateMessage, gateBlock, latestRules, failIf, zeroBytes,
      bind, Except.bind, pure, Except.pure]
  rw [Chain.checkGas, hstart]
  by_cases h : gas < 21000
  · simp [annotate, Except.mapError, bind, Except.bind, failIf, h, gateMessage]
  · have hfloor : Chain.checkFloorDataGas (gateMessage gas) = .ok () := by
      simp [Chain.checkFloorDataGas, floorDataGas, dataTokens, gateMessage, failIf, zeroBytes, bind, Except.bind,
        pure, Except.pure, h]
    rw [hfloor]
    simp [annotate, Except.mapError, bind, Except.bind, failIf, h, gateMessage, pure, Except.pure]

theorem gate_run (h : ¬ gas < 21000) : ∃ n,
    ((gateBlock need).chain.runMessage (gateBlock need).env (gateMessage gas) false).run
        ⟨.new ⟨gateStart need, []⟩ 0, []⟩ =
      .ok (((gateEVM need).call (.new ⟨gateStart need, []⟩ 0) payer prefunded [] (gas - 21000) 0).leftoverGas,
        ((gateEVM need).call (.new ⟨gateStart need, []⟩ 0) payer prefunded [] (gas - 21000) 0).vmErr) n ∧
      n.db.refund = 0 := by
  unfold Chain.runMessage
  rw [gate_checkGas, if_neg h]
  exact ⟨_, rfl, rfl⟩

theorem gate_charged (hcfg : cfg.minGasMultiplier = some ⟨500000000000000000⟩) {leftover used : UInt64}
    (hle : ¬ gas < leftover) (hused : used.toNat < 2 ^ 63) :
    ∃ charged, Chain.chargedGas (gateMessage gas) cfg false leftover used = .ok charged := by
  have hgas := gas.toNat_lt
  have hint : used.toInt64.toInt = used.toNat := FeeMarket.toInt64_toInt hused
  have hhalf : 0 ≤ (gas.toNat * 500000000000000000 : Int).tdiv LegacyDec.precision ∧
      (gas.toNat * 500000000000000000 : Int).tdiv LegacyDec.precision < 2 ^ 64 := by
    rw [Int.tdiv_eq_ediv_of_nonneg (by omega)]
    simp only [LegacyDec.precision]
    omega
  have hmax : 0 ≤ ((LegacyDec.newDec used.toInt64).maxDec ⟨gas.toNat * 500000000000000000⟩).raw ∧
      ((LegacyDec.newDec used.toInt64).maxDec ⟨gas.toNat * 500000000000000000⟩).raw <
        2 ^ 64 * LegacyDec.precision := by
    rw [LegacyDec.maxDec_raw, LegacyDec.newDec, LegacyDec.ofInt, hint]
    simp only [LegacyDec.precision]
    omega
  obtain ⟨charged, hcharged⟩ := truncateUint64_ok hmax.1 hmax.2
  refine ⟨charged, ?_⟩
  simp only [Chain.chargedGas, LegacyDec.newDecFromInt, Check.bind_eq_ok, LegacyDec.ofInt_mul_eq_ok,
    LegacyDec.truncateInt_eq_ok, hcfg, failIf_eq_ok]
  have hbits : ((gas.toNat * 500000000000000000 : Int).tdiv LegacyDec.precision).natAbs < 2 ^ 256 := by omega
  refine ⟨⟨gas.toNat * 500000000000000000⟩, ⟨?_, rfl⟩, ⟨_, hbits⟩, rfl, (), ?_, (), ?_, hcharged⟩
  · change ((gas.toNat : Int) * 500000000000000000).natAbs < LegacyDec.limit
    simp only [LegacyDec.limit]
    omega
  · simp only [FeeMarket.isUint64, Bool.not_eq_false', Bool.and_eq_true, decide_eq_true_eq]
    exact hhalf
  · exact decide_eq_false hle

def gateLeft (need gas : UInt64) : UInt64 :=
  if need ≤ gas then gas - 21 else if 26 ≤ gas then gas - 26 else 0

theorem gateLeft_used (hneed : 26 ≤ need) (h : ¬ gas < 21000) :
    ¬ gas < gateLeft need (gas - 21000) ∧ (gas - gateLeft need (gas - 21000)).toNat ≤ 21026 := by
  have hg := gas.toNat_lt
  have hstart : (gas - 21000).toNat = gas.toNat - 21000 := by
    rw [UInt64.not_lt] at h
    exact UInt64.toNat_sub_of_le _ _ h
  have hle : (gateLeft need (gas - 21000)).toNat ≤ gas.toNat ∧
      gas.toNat - (gateLeft need (gas - 21000)).toNat ≤ 21026 := by
    rw [UInt64.lt_iff_toNat_lt] at h
    change ¬ gas.toNat < 21000 at h
    unfold gateLeft
    split
    · rename_i hhigh
      have hpaid : 21 ≤ gas - 21000 := UInt64.le_trans (by decide) (UInt64.le_trans hneed hhigh)
      rw [UInt64.toNat_sub_of_le _ _ hpaid, hstart]
      change gas.toNat - 21000 - 21 ≤ _ ∧ gas.toNat - (gas.toNat - 21000 - 21) ≤ 21026
      omega
    · split
      · rename_i hmid
        rw [UInt64.toNat_sub_of_le _ _ hmid, hstart]
        change gas.toNat - 21000 - 26 ≤ _ ∧ gas.toNat - (gas.toNat - 21000 - 26) ≤ 21026
        omega
      · rename_i hlow
        rw [UInt64.le_iff_toNat_le, hstart] at hlow
        change ¬ 26 ≤ _ at hlow
        change 0 ≤ _ ∧ gas.toNat - 0 ≤ 21026
        omega
  constructor
  · rw [UInt64.lt_iff_toNat_lt]
    omega
  · rw [UInt64.toNat_sub_of_le _ _ (UInt64.le_iff_toNat_le.mpr hle.1)]
    exact hle.2

theorem gate_trial : (gateBlock need).executable ⟨gateWorld, []⟩ (gateMessage 0) cfg none true gas =
    Block.judged (((gateBlock need).chain.applyMessageWithConfig (gateBlock need).env (gateMessage gas) cfg false
      false false).run ⟨.new ⟨gateStart need, []⟩ 0, []⟩) := by
  have hsender : (runIf true ((gateBlock need).advanceSender (gateMessage 0))).run gateWorld =
    .ok () (gateStart need) := rfl
  unfold Block.executable
  rw [hsender]
  dsimp only [Block.overridden, if_pos]
  rfl

theorem gate_executable (hneed : 26 ≤ need) (hcfg : cfg.minGasMultiplier = some ⟨500000000000000000⟩)
    (h : ¬ gas < 21000) :
    ∃ charged, (gateBlock need).executable ⟨gateWorld, []⟩ (gateMessage 0) cfg none true gas =
      .ok (!decide (need ≤ gas - 21000), some ⟨charged, gas - gateLeft need (gas - 21000),
        if need ≤ gas - 21000 then "" else
          if 26 ≤ gas - 21000 then "execution reverted" else "out of gas"⟩) := by
  obtain ⟨n, hrun, hrefund⟩ := @gate_run need gas h
  obtain ⟨hleft, hused⟩ := gateLeft_used hneed h
  obtain ⟨charged, hcharged⟩ := gate_charged hcfg hleft
    (show (gas - gateLeft need (gas - 21000)).toNat < 2 ^ 63 by omega)
  have happly : ((gateBlock need).chain.applyMessageWithConfig (gateBlock need).env (gateMessage gas) cfg false false
      false).run ⟨.new ⟨gateStart need, []⟩ 0, []⟩ = .ok ⟨charged, gas - gateLeft need (gas - 21000),
        ((gateEVM need).call (.new ⟨gateStart need, []⟩ 0) payer prefunded [] (gas - 21000) 0).vmErr.getD ""⟩ n := by
    unfold Chain.applyMessageWithConfig
    refine (run_bind_eq_ok _ _ _ _ _).mpr ⟨_, _, hrun, ?_⟩
    have husedGas : (gateBlock need).chain.usedGas (gateMessage gas) false (gateLeft need (gas - 21000)) 0 =
        .ok (gas - gateLeft need (gas - 21000), 0) := by
      simp only [Chain.usedGas, gasToRefund_zero]
      change failIf (decide (gas < gateLeft need (gas - 21000))) _ >>= _ = _
      rw [decide_eq_false hleft]
      rfl
    rw [run_get_bind, hrefund]
    refine (run_bind_eq_ok _ _ _ _ _).mpr ⟨_, _, (run_lift_eq_ok _ _ _ _).mpr ⟨husedGas, rfl⟩, ?_⟩
    refine (run_bind_eq_ok _ _ _ _ _).mpr ⟨_, _, rfl, ?_⟩
    rw [UInt64.add_zero, UInt64.sub_zero]
    exact (run_bind_eq_ok _ _ _ _ _).mpr ⟨_, _, (run_lift_eq_ok _ _ _ _).mpr ⟨hcharged, rfl⟩, rfl⟩
  refine ⟨charged, ?_⟩
  rw [gate_trial, happly, Block.judged]
  by_cases hhigh : need ≤ gas - 21000
  · simp [gateEVM, hhigh, Response.failed]
  · by_cases hmid : 26 ≤ gas - 21000
    · simp [gateEVM, hhigh, hmid, Response.failed]
    · simp [gateEVM, hhigh, hmid, Response.failed]

theorem gate_threshold (hneed : 26 ≤ need) (hcfg : cfg.minGasMultiplier = some ⟨500000000000000000⟩) :
    Threshold ((gateBlock need).executable ⟨gateWorld, []⟩ (gateMessage 0) cfg none true) (need.toNat + 21000) := by
  have hstart : (21000 : UInt64).toNat = 21000 := rfl
  have hiff : ∀ gas : UInt64, ¬ gas < 21000 → (need ≤ gas - 21000 ↔ need.toNat + 21000 ≤ gas.toNat) := by
    intro gas h
    rw [UInt64.le_iff_toNat_le, UInt64.toNat_sub_of_le _ _ (UInt64.not_lt.mp h), hstart]
    rw [UInt64.lt_iff_toNat_lt, hstart] at h
    omega
  constructor
  · intro gas hlow
    by_cases h : gas < 21000
    · refine ⟨none, ?_⟩
      have hrun : ∀ m, ((gateBlock need).chain.applyMessageWithConfig (gateBlock need).env (gateMessage gas) cfg false
          false false).run m = .error (.error "apply message: intrinsic gas too low") m := by
        intro m
        simp only [Chain.applyMessageWithConfig, Chain.runMessage, gate_checkGas, if_pos h]
        rfl
      rw [gate_trial, hrun]
      rfl
    · obtain ⟨charged, hrun⟩ := gate_executable hneed hcfg h
      have hnot : ¬ need ≤ gas - 21000 := by rw [hiff gas h]; omega
      exact ⟨_, by rw [hrun, decide_eq_false hnot]; rfl⟩
  · intro gas hhigh
    have h : ¬ gas < 21000 := by rw [UInt64.lt_iff_toNat_lt, hstart]; omega
    obtain ⟨charged, hrun⟩ := gate_executable hneed hcfg h
    exact ⟨_, by rw [hrun, decide_eq_true ((hiff gas h).mpr hhigh)]; rfl⟩

end Runs

-- Every round takes a bound below 2^63, which is too low, and the next one may take it
-- down again.
theorem binSearch_endless {executable : Executable} (hlow : ∀ gas : UInt64, gas.toNat < 2 ^ 63 →
      ∃ res, executable gas = .ok (true, res)) (fuel : Nat) {lo : UInt64} (hlo : lo.toNat < 2 ^ 63) :
    binSearch executable fuel lo 0xffffffffffffffff = none := by
  induction fuel generalizing lo with
  | zero => rfl
  | succ fuel ih =>
    have htop : (0xffffffffffffffff : UInt64).toNat = 2 ^ 64 - 1 := rfl
    have hgo : lo + 1 < 0xffffffffffffffff := (succ_lt_iff (by omega)).mpr (by omega)
    have hmid : ((0xffffffffffffffff + lo) / 2).toNat < 2 ^ 63 := by
      have hd : ((0xffffffffffffffff + lo) / 2).toNat = (0xffffffffffffffff + lo).toNat / 2 :=
        UInt64.toNat_div _ _
      have hb := (0xffffffffffffffff + lo).toNat_lt
      omega
    obtain ⟨res, hres⟩ := hlow _ hmid
    rw [binSearch, if_pos hgo, hres]
    exact ih hmid

end Examples

end PosChain.Evm
