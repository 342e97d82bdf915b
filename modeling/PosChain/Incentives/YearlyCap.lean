import PosChain.Incentives.Liveness

namespace PosChain.Incentives

open Run (run accepted)

def yearlyCap (params : Params) (balance : Int) : Int :=
  balance * params.treasuryReleaseRateBasisPoints.toNat / 10000

section Cap

variable {params : Params} {balance larger : Int}

theorem yearlyCap_nonneg (h : 0 ≤ balance) : 0 ≤ yearlyCap params balance :=
  Int.ediv_nonneg (Int.mul_nonneg h (Int.natCast_nonneg _)) (by decide)

theorem yearlyCap_mono (h : balance ≤ larger) : yearlyCap params balance ≤ yearlyCap params larger :=
  share_mono_whole h (Int.natCast_nonneg _) (by decide)

theorem year_mul_provisionFor_le (bonded : Int) (h : 0 ≤ balance) :
    params.blocksPerYear.toNat * provisionFor params bonded balance ≤
      yearlyCap params balance * params.calculationPeriodBlocks.toNat := by
  rw [provisionFor]
  split
  · exact mul_share_le (yearlyCap_nonneg h) (Int.natCast_nonneg _) _
  · rw [mul_zero]
    exact Int.mul_nonneg (yearlyCap_nonneg h) (Int.natCast_nonneg _)

end Cap

section Year

variable {World : Type} (env : Env World)

def PeriodStart (c : Chain World) : Prop :=
  ∃ found, getPeriodState c.state.store = .ok found ∧ ∀ p, found = some p → p.endBlock.toNat ≤ c.height

-- Blocks, and whatever else happens on the chain that leaves the treasury and the
-- parameters alone.
def Undisturbed (c : Chain World) : Event World → Prop
  | .block => True
  | .updateParams _ => False
  | .other world => treasury env world = treasury env c.state.world

def released (start c : Chain World) : Int :=
  treasury env start.state.world - treasury env c.state.world

-- A period of the year. What the earlier ones released is within their part of the
-- cap, and so is what this one may release.
structure InYear (start c : Chain World) (p : PeriodState) (snapshot provision paid : SdkInt) : Prop where
  sound : p.Sound snapshot provision paid
  after : start.height ≤ p.startBlock.toNat
  started : p.startBlock.toNat < c.height
  paid_eq : paid.value = share provision.value (c.height - p.startBlock.toNat) p.length
  snapshot_eq : snapshot.value = treasury env c.state.world + paid.value
  snapshot_le : snapshot.value ≤ treasury env start.state.world
  provision_le : (getParams start.state.store).blocksPerYear.toNat * provision.value ≤
    yearlyCap (getParams start.state.store) (treasury env start.state.world) * p.length
  earlier_le : (getParams start.state.store).blocksPerYear.toNat * (released env start c - paid.value) ≤
    yearlyCap (getParams start.state.store) (treasury env start.state.world) *
      (p.startBlock.toNat - start.height)

-- Either no block has been processed since the start, or a period of the year is stored.
structure Capped (start c : Chain World) (log : List Outcome) : Prop where
  params : getParams c.state.store = getParams start.state.store
  total : ∃ total, getTotalDistributed c.state.store = .ok total
  height_le : start.height ≤ c.height
  paid : paidFrom start.height log = released env start c
  period : (c.height = start.height ∧ released env start c = 0 ∧ PeriodStart c) ∨
    ∃ p snapshot provision paid, getPeriodState c.state.store = .ok (some p) ∧
      InYear env start c p snapshot provision paid

end Year

section Period

variable {World : Type} {env : Env World} {start c : Chain World} {p : PeriodState}
variable {snapshot provision paid : SdkInt}

theorem InYear.paid_le (h : InYear env start c p snapshot provision paid) :
    (getParams start.state.store).blocksPerYear.toNat * paid.value ≤
      yearlyCap (getParams start.state.store) (treasury env start.state.world) *
        (c.height - p.startBlock.toNat) := by
  have hlength := h.sound.length_pos
  have hstarted := h.started
  have helapsed : (0 : Int) ≤ c.height - p.startBlock.toNat := by omega
  have hprovision : 0 ≤ provision.value := h.sound.paid_nonneg.trans h.sound.paid_le
  have hprovision_le := h.provision_le
  have hshare : p.length * paid.value ≤ provision.value * (c.height - p.startBlock.toNat) := by
    rw [h.paid_eq]
    exact mul_share_le hprovision helapsed _
  generalize yearlyCap (getParams start.state.store) (treasury env start.state.world) = cap at *
  generalize (getParams start.state.store).blocksPerYear.toNat = year at *
  generalize (c.height : Int) - p.startBlock.toNat = elapsed at *
  -- Compared after multiplying by the length of the period.
  refine le_of_mul_le_mul_left ?_ hlength
  calc p.length * (year * paid.value)
      = year * (p.length * paid.value) := by ring
    _ ≤ year * (provision.value * elapsed) :=
        Int.mul_le_mul_of_nonneg_left hshare (Int.natCast_nonneg _)
    _ = year * provision.value * elapsed := by ring
    _ ≤ cap * p.length * elapsed := Int.mul_le_mul_of_nonneg_right hprovision_le helapsed
    _ = p.length * (cap * elapsed) := by ring

theorem InYear.released_le (h : InYear env start c p snapshot provision paid) :
    (getParams start.state.store).blocksPerYear.toNat * released env start c ≤
      yearlyCap (getParams start.state.store) (treasury env start.state.world) *
        (c.height - start.height) := by
  have hpaid := h.paid_le
  have hearlier := h.earlier_le
  linarith

theorem InYear.treasury_bounds (h : InYear env start c p snapshot provision paid) :
    0 ≤ treasury env c.state.world ∧ treasury env c.state.world ≤ treasury env start.state.world := by
  have hsnapshot := h.snapshot_eq
  have hsnapshot_le := h.snapshot_le
  have hnonneg := h.sound.paid_nonneg
  have hpaid := h.sound.paid_le.trans h.sound.provision_le
  omega

variable {log : List Outcome}

theorem Capped.released_le (h : Capped env start c log) :
    (getParams start.state.store).blocksPerYear.toNat * released env start c ≤
      yearlyCap (getParams start.state.store) (treasury env start.state.world) *
        (c.height - start.height) := by
  rcases h.period with ⟨hheight, hnone, -⟩ | ⟨p, snapshot, provision, paid, -, hp⟩
  · simp [hheight, hnone]
  · exact hp.released_le

theorem Capped.treasury_bounds (h : Capped env start c log) (hs : 0 ≤ treasury env start.state.world) :
    0 ≤ treasury env c.state.world ∧ treasury env c.state.world ≤ treasury env start.state.world := by
  rcases h.period with ⟨-, hnone, -⟩ | ⟨p, snapshot, provision, paid, -, hp⟩
  · rw [released] at hnone
    omega
  · exact hp.treasury_bounds

end Period

section Step

variable {World : Type} {env : Env World} {start c : Chain World} {log : List Outcome}

theorem Capped.active (h : Capped env start c log) (hs : 0 ≤ treasury env start.state.world)
    {height : UInt64} (hh : height.toNat = c.height) {p : PeriodState} {r : State World}
    (ha : Active env c.state height p r) {snapshot provision paid : SdkInt}
    (hsound : p.Sound snapshot provision paid) :
    start.height ≤ p.startBlock.toNat ∧ snapshot.value = treasury env c.state.world + paid.value ∧
      snapshot.value ≤ treasury env start.state.world ∧
      (getParams start.state.store).blocksPerYear.toNat * provision.value ≤
        yearlyCap (getParams start.state.store) (treasury env start.state.world) * p.length ∧
      (getParams start.state.store).blocksPerYear.toNat * (released env start c - paid.value) ≤
        yearlyCap (getParams start.state.store) (treasury env start.state.world) *
          (p.startBlock.toNat - start.height) := by
  cases ha with
  | stored found running =>
    rcases h.period with ⟨hheight, hnone, _, hfound, hended⟩ | ⟨q, snapshot', provision', paid', hq, hy⟩
    · -- At a period's start no stored period is running.
      have hend := hended p (Except.ok.inj (hfound.symm.trans found))
      rw [UInt64.lt_iff_toNat_lt] at running
      omega
    · obtain rfl := Option.some.inj (Except.ok.inj (hq.symm.trans found))
      obtain rfl := Except.ok.inj (hsound.snapshot_read.symm.trans hy.sound.snapshot_read)
      obtain rfl := Except.ok.inj (hsound.provision_read.symm.trans hy.sound.provision_read)
      obtain rfl := Except.ok.inj (hsound.paid_read.symm.trans hy.sound.paid_read)
      exact ⟨hy.after, hy.snapshot_eq, hy.snapshot_le, hy.provision_le, hy.earlier_le⟩
  | opened closed bonded balance provision' hsnapshot =>
    have ho := hsnapshot.opened
    obtain rfl := Except.ok.inj (hsound.snapshot_read.symm.trans ho.sound.snapshot_read)
    obtain rfl := Except.ok.inj (hsound.provision_read.symm.trans ho.sound.provision_read)
    obtain rfl := Except.ok.inj (hsound.paid_read.symm.trans ho.sound.paid_read)
    obtain ⟨hnonneg, hle⟩ := h.treasury_bounds hs
    have hbalance := hsnapshot.balance_value
    have hlength : p.length = (getParams start.state.store).calculationPeriodBlocks.toNat := by
      rw [PeriodState.length, ho.end_eq, ho.start_eq, h.params]
      omega
    have hstart : p.startBlock.toNat = c.height := by rw [ho.start_eq, hh]
    have hzero : SdkInt.zeroInt.value = 0 := rfl
    refine ⟨hstart ▸ h.height_le, by omega, by omega, ?_, ?_⟩
    · rw [ho.provision_eq, hlength, h.params, hbalance]
      exact (year_mul_provisionFor_le _ hnonneg).trans
        (Int.mul_le_mul_of_nonneg_right (yearlyCap_mono hle) (Int.natCast_nonneg _))
    · rw [hzero, Int.sub_zero, hstart]
      exact h.released_le

theorem Capped.block (hm : MovesExactly env) (h : Capped env start c log)
    (hs : 0 ≤ treasury env start.state.world) (hlt : c.height < 2 ^ 63) {next : State World}
    (hb : (processBlock env (Int64.ofNat c.height) feeCollectorName).run c.state = .ok () next) :
    Capped env start ⟨next, c.height + 1⟩
      (log ++ [.paid c.height (treasury env c.state.world - treasury env next.world)]) := by
  obtain ⟨total, htotal⟩ := h.total
  obtain ⟨p, snapshot, provision, paid, target, newTotal, hp⟩ := processBlock_ok htotal hb
  obtain ⟨r, hactive⟩ := hp.active
  have hheight := toNat_height hlt
  obtain ⟨hafter, hsnapshot, hle, hprovision, hearlier⟩ := h.active hs hheight hactive hp.sound
  obtain ⟨q, hq, hqsound, hqstart, hqend⟩ := hp.period_after
  have hmoved := hp.transferred.treasury_eq hm
  have hstart : p.startBlock.toNat ≤ c.height := by
    rw [← hheight]
    exact UInt64.le_iff_toNat_le.mp hp.start_le
  have hlength : q.length = p.length := by rw [PeriodState.length, PeriodState.length, hqstart, hqend]
  have htarget := hp.target_eq
  rw [hheight] at htarget
  have hpaid := h.paid
  rw [released] at hpaid hearlier
  refine ⟨hp.params_after.trans h.params, ⟨newTotal, hp.total_after⟩, Nat.le_succ_of_le h.height_le, ?_,
    Or.inr ⟨q, snapshot, provision, target, hq, hqsound, ?_, ?_, ?_, ?_, hle, ?_, ?_⟩⟩
  · rw [paidFrom_paid, if_pos h.height_le, hpaid, released]
    dsimp only
    omega
  · rw [hqstart]
    exact hafter
  · rw [hqstart]
    exact Nat.lt_succ_of_le hstart
  · rw [htarget, hqstart, hlength, PeriodState.elapsed]
    congr 1
    push_cast
    omega
  · dsimp only
    omega
  · rw [hlength]
    exact hprovision
  · have hsum : released env start ⟨next, c.height + 1⟩ - target.value =
        treasury env start.state.world - treasury env c.state.world - paid.value := by
      rw [released]
      dsimp only
      omega
    rw [hsum, hqstart]
    exact hearlier

theorem Capped.step (hm : MovesExactly env) (hs : 0 ≤ treasury env start.state.world)
    {event : Event World} {outcome : Outcome} {next : Chain World}
    (hc : Incentives.step env c event = some (outcome, next)) (hu : Undisturbed env c event)
    (h : Capped env start c log) : Capped env start next (log ++ [outcome]) := by
  cases step_ok hc with
  | block height_lt next processed => exact h.block hm hs height_lt processed
  | updateParams message params valid => exact hu.elim
  | other world kept =>
    have hkept : treasury env world = treasury env c.state.world := hu
    have hreleased : released env start ⟨⟨c.state.store, world⟩, c.height⟩ = released env start c := by
      rw [released, released, hkept]
    refine ⟨h.params, h.total, h.height_le, ?_, ?_⟩
    · rw [paidFrom_deposited, hreleased]
      exact h.paid
    · rcases h.period with ⟨hheight, hnone, hstart⟩ | ⟨p, snapshot, provision, paid, hfound, hp⟩
      · exact Or.inl ⟨hheight, hreleased.trans hnone, hstart⟩
      · refine Or.inr ⟨p, snapshot, provision, paid, hfound, hp.sound, hp.after, hp.started, hp.paid_eq,
          ?_, hp.snapshot_le, hp.provision_le, ?_⟩
        · rw [hp.snapshot_eq, hkept]
        · rw [hreleased]
          exact hp.earlier_le

theorem PeriodStart.capped (h : PeriodStart start)
    (ht : ∃ total, getTotalDistributed start.state.store = .ok total) : Capped env start start [] := by
  have hnone : released env start start = 0 := Int.sub_self _
  exact ⟨rfl, ht, le_refl _, hnone.symm, Or.inl ⟨rfl, hnone, h⟩⟩

theorem Capped.within_year (h : Capped env start c log) (hs : 0 ≤ treasury env start.state.world)
    (hy : c.height ≤ start.height + (getParams start.state.store).blocksPerYear.toNat) :
    paidFrom start.height log ≤
      yearlyCap (getParams start.state.store) (treasury env start.state.world) := by
  have hreleased := h.released_le
  have hcap : 0 ≤ yearlyCap (getParams start.state.store) (treasury env start.state.world) :=
    yearlyCap_nonneg hs
  have hheight := h.height_le
  rw [h.paid]
  rcases h.period with ⟨-, hnone, -⟩ | ⟨p, snapshot, provision, paid, -, hp⟩
  · rw [hnone]
    exact hcap
  · have hafter := hp.after
    have hstarted := hp.started
    -- A block was processed, so that a year has at least one.
    have hyear : (0 : Int) < (getParams start.state.store).blocksPerYear.toNat := by omega
    refine le_of_mul_le_mul_left (hreleased.trans ?_) hyear
    rw [mul_comm]
    exact Int.mul_le_mul_of_nonneg_right (by omega) hcap

end Step

section Years

variable {World : Type}

-- A year of blocks from the start of a period, whatever is staked in between.
theorem yearly_release_capped (env : Env World) (hm : MovesExactly env) (g : GenesisState) (world : World)
    (c : Chain World) (hc : Started env g world c) (past events : List (Event World))
    (start : Chain World) (hs : start = run (step env) c past) (hp : PeriodStart start)
    (hb : 0 ≤ treasury env start.state.world) (hq : Run.Along (step env) (Undisturbed env) start events)
    (hy : (run (step env) start events).height ≤
      start.height + (getParams start.state.store).blocksPerYear.toNat) :
    paidFrom start.height (outcomes (accepted (step env) start events)) ≤
        treasury env start.state.world *
          (getParams start.state.store).treasuryReleaseRateBasisPoints.toNat / 10000 ∧
      0 ≤ treasury env (run (step env) start events).state.world := by
  obtain ⟨total, htotal, -⟩ := (incentives_books hm hc past).total
  rw [← hs] at htotal
  have hcapped : Capped env start (run (step env) start events)
      (outcomes ([] ++ accepted (step env) start events)) := by
    refine hq.history (fun next log => Capped env start next (outcomes log)) ?_ (hp.capped ⟨total, htotal⟩)
    intro s log event outcome next hstep hgood hinv
    have hnext := hinv.step hm hb hstep hgood
    rwa [outcomes, List.map_append]
  exact ⟨hcapped.within_year hb hy, (hcapped.treasury_bounds hb).1⟩

theorem run_height_le (env : Env World) (c : Chain World) (events : List (Event World)) :
    (run (step env) c events).height ≤ c.height + events.length := by
  induction events generalizing c with
  | nil => exact le_refl _
  | cons event rest ih =>
    have hafter : (Run.after (step env) c event).height ≤ c.height + 1 := by
      cases hc : step env c event with
      | none =>
        rw [Run.after_of_none hc]
        exact Nat.le_succ _
      | some answer =>
        obtain ⟨outcome, next⟩ := answer
        rw [Run.after_of_some hc]
        cases step_ok hc with
        | block height_lt next processed => exact le_refl _
        | updateParams message params valid => exact Nat.le_succ _
        | other world kept => exact Nat.le_succ _
    have hrest := ih (Run.after (step env) c event)
    rw [Run.run_cons, List.length_cons]
    omega

theorem default_year_capped :
    paidFrom 1 (outcomes (accepted (step Purse.env) (freshChain defaultGenesisState) [.block, .block])) ≤
        10 ^ 23 ∧
      0 ≤ treasury Purse.env
        (run (step Purse.env) (freshChain defaultGenesisState) [.block, .block]).state.world := by
  have hparams : getParams (freshChain defaultGenesisState).state.store = defaultParams :=
    getParams_genesisStore _ _
  have hheight := run_height_le Purse.env (freshChain defaultGenesisState) [.block, .block]
  have h := yearly_release_capped Purse.env Purse.movesExactly defaultGenesisState somePurse _
    default_started [] [.block, .block] (freshChain defaultGenesisState) rfl
    ⟨none, getPeriodState_genesisStore _ _, by simp⟩ (by decide)
    ⟨fun _ _ _ => trivial, fun _ _ _ => trivial, trivial⟩
    (hheight.trans (by rw [hparams]; decide))
  rw [hparams] at h
  exact h

end Years

end PosChain.Incentives
