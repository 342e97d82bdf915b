import PosChain.Incentives.Accounting

namespace PosChain.Incentives

open Run (run accepted)

section Statement

variable {World : Type} (env : Env World)

-- The bank and staking keepers as the module may expect them: the treasury has
-- an account, balances and stake are not negative, and a transfer within the
-- balance succeeds and moves exactly its amount.
structure Dependable : Prop where
  address : env.getModuleAddress treasuryAccountName ≠ []
  denom : ∀ world, (env.getBalance world (env.getModuleAddress treasuryAccountName)
    incentiveDenom).denom = incentiveDenom
  nonneg : ∀ world, 0 ≤ treasury env world
  bonded : ∀ world, ∃ stake, env.totalValidatorPower world = .ok stake ∧ 0 ≤ stake.value
  sends : ∀ amount world, 0 < amount.value → amount.value ≤ treasury env world →
    ∃ next, (env.sendCoinsFromModuleToModule treasuryAccountName feeCollectorName
      ⟨incentiveDenom, amount⟩).run world = .ok () next
  moves : MovesExactly env

-- A period that has to be opened at the next height ends within 64 bits.
def OpensInRange (c : Chain World) : Prop :=
  ∀ found, getPeriodState c.state.store = .ok found →
    (∀ p, found = some p → p.endBlock.toNat ≤ c.height) →
    c.height + (getParams c.state.store).calculationPeriodBlocks.toNat < 2 ^ 64

def Event.Small : Event World → Prop
  | .other world => treasury env world < 2 ^ 192
  | _ => True

-- The sizes that keep all arithmetic of a block in range.
structure Bounded (c : Chain World) (log : List Outcome) : Prop where
  params : (getParams c.state.store).validate = .ok ()
  small : treasury env c.state.world < 2 ^ 192
  snapshot : ∀ p, getPeriodState c.state.store = .ok (some p) → ∀ snapshot,
    parseAtomicAmount p.treasuryBalanceAtomic = .ok snapshot → snapshot.value < 2 ^ 192
  deposits : ∀ moment amount, .deposited moment amount ∈ log → 0 ≤ amount
  total : paidFrom 0 log ≤ 2 ^ 192 * c.height

end Statement

section Bounds

variable {World : Type} {env : Env World}

theorem depositedFrom_nonneg {log : List Outcome} (height : Nat)
    (h : ∀ moment amount, .deposited moment amount ∈ log → 0 ≤ amount) :
    0 ≤ depositedFrom height log := by
  apply List.sum_nonneg
  intro value hvalue
  obtain ⟨e, he, rfl⟩ := List.mem_map.mp hvalue
  obtain ⟨outcome, hmem, hentry⟩ := List.mem_filterMap.mp he
  cases outcome with
  | deposited moment amount =>
    cases hentry
    have hnonneg := h moment amount hmem
    dsimp only
    split
    · exact hnonneg
    · exact le_refl 0
  | paid | updated => cases hentry

theorem getParams_genesisStore (authority : String) (params : Params) :
    getParams (genesisStore authority params) = params := by
  rw [genesisStore]
  split
  · rw [getParams_of_ne _ (by decide), getParams_of_ne _ (by decide), getParams_set]
  · rw [getParams_of_ne _ (by decide), getParams_set]

theorem Started.bounded {g : GenesisState} {world : World} {c : Chain World}
    (h : Started env g world c) (hs : treasury env world < 2 ^ 192) : Bounded env c [] := by
  obtain ⟨-, hparams, hstate⟩ := (initGenesis_eq_ok g world c.state).mp h
  refine ⟨?_, ?_, ?_, by simp, by simp⟩
  · rw [hstate, getParams_genesisStore]
    exact hparams
  · rw [hstate]
    exact hs
  · intro p hp
    rw [hstate, getPeriodState_genesisStore] at hp
    cases hp

theorem Transferred.bounds (hd : Dependable env) {world next : World} {amount : Int}
    (h : Transferred env feeCollectorName world amount next) :
    0 ≤ amount ∧ amount ≤ treasury env world := by
  have hnext := hd.nonneg next
  have hmoved := h.treasury_eq hd.moves
  have hpositive : 0 ≤ amount := by
    cases h with
    | nothing => exact le_refl 0
    | sent amount next positive send => exact positive.le
  exact ⟨hpositive, by omega⟩

theorem Bounded.step (hd : Dependable env) {c next : Chain World} {log : List Outcome}
    {first : Nat} {balance : Int} {event : Event World} {outcome : Outcome}
    (h : Stepped env c event outcome next) (ha : Accounted env first balance c log)
    (he : event.Small env) (hb : Bounded env c log) : Bounded env next (log ++ [outcome]) := by
  cases h with
  | block height_lt next processed =>
    obtain ⟨total, htotal, -⟩ := ha.total
    obtain ⟨p, snapshot, provision, paid, target, newTotal, hp⟩ := processBlock_ok htotal processed
    obtain ⟨hnonneg, hle⟩ := hp.transferred.bounds hd
    have hmoved := hp.transferred.treasury_eq hd.moves
    have hsmall := hb.small
    have htotal := hb.total
    refine ⟨?_, ?_, ?_, ?_, ?_⟩
    · dsimp only
      rw [hp.params_after]
      exact hb.params
    · dsimp only
      omega
    · intro q hq snapshot' hsnapshot'
      obtain ⟨q', hq', hsound, -, -⟩ := hp.period_after
      obtain rfl := Option.some.inj (Except.ok.inj (hq'.symm.trans hq))
      obtain rfl := Except.ok.inj (hsound.snapshot_read.symm.trans hsnapshot')
      obtain ⟨r, hactive⟩ := hp.active
      cases hactive with
      | stored found running => exact hb.snapshot p found snapshot hp.sound.snapshot_read
      | opened closed bonded balance provision' hsnapshot =>
        obtain rfl := Except.ok.inj
          (hp.sound.snapshot_read.symm.trans hsnapshot.opened.sound.snapshot_read)
        rw [hsnapshot.balance_value]
        exact hsmall
    · intro moment amount hmem
      rcases List.mem_append.mp hmem with hmem | hmem
      · exact hb.deposits moment amount hmem
      · cases List.mem_singleton.mp hmem
    · rw [paidFrom_paid, if_pos (Nat.zero_le _)]
      push_cast
      omega
  | updateParams message params valid =>
    refine ⟨?_, hb.small, ?_, ?_, by simpa using hb.total⟩
    · dsimp only
      rw [getParams_set]
      exact valid
    · intro p hp
      dsimp only at hp
      rw [getPeriodState_of_ne _ (by decide)] at hp
      exact hb.snapshot p hp
    · intro moment amount hmem
      exact hb.deposits moment amount (by simpa using hmem)
  | other world kept =>
    refine ⟨hb.params, he, hb.snapshot, ?_, by simpa using hb.total⟩
    intro moment amount hmem
    rcases List.mem_append.mp hmem with hmem | hmem
    · exact hb.deposits moment amount hmem
    · cases List.mem_singleton.mp hmem
      omega

end Bounds

section Success

variable {World : Type} {env : Env World} {c : Chain World} {log : List Outcome}

theorem height_nonneg {height : Nat} (h : height < 2 ^ 63) : ¬ Int64.ofNat height < 0 := by
  rw [Int64.lt_iff_toInt_lt, Int64.toInt_ofNat_of_lt h]
  simp

theorem snapshotPeriod_succeeds (hd : Dependable env) (hb : Bounded env c log) (hlt : c.height < 2 ^ 63)
    (hroom : c.height + (getParams c.state.store).calculationPeriodBlocks.toNat < 2 ^ 64) :
    ∃ p t, (snapshotPeriod env (Int64.ofNat c.height)).run c.state = .ok p t := by
  obtain ⟨stake, hstake, hnonneg⟩ := hd.bonded c.state.world
  have hheight := toNat_height hlt
  rw [← hheight] at hroom
  obtain ⟨p, hp⟩ := newPeriodState_succeeds hb.params hnonneg (hd.nonneg c.state.world) hb.small hroom
  obtain ⟨provision, hopened⟩ := newPeriodState_ok hp
  have hvalid : p.validate = .ok () := (PeriodState.validate_eq_ok p).mpr ⟨_, _, _, hopened.sound⟩
  have hdenom := hd.denom c.state.world
  simp only [snapshotPeriod, run_lift_bind, run_get_bind, failIf_eq_ok, exists_const, passOn_eq_ok,
    balance_eq_ok, run_bind_eq_ok (setPeriodState _), setPeriodState_eq_ok, run_pure_eq_ok,
    SdkInt.isNegative, decide_eq_false_iff_not, not_lt]
  exact ⟨p, _, by simpa using height_nonneg hlt, stake, hstake, hnonneg, _, ⟨hd.address, rfl⟩,
    by simp [hdenom], p, hp, _, ⟨hvalid, rfl⟩, rfl, rfl⟩

theorem activePeriod_succeeds (hd : Dependable env) {first : Nat} {balance : Int}
    (ha : Accounted env first balance c log) (hb : Bounded env c log) (hlt : c.height < 2 ^ 63)
    (hr : OpensInRange c) :
    ∃ p t, (activePeriod env (Int64.ofNat c.height) (Int64.ofNat c.height).toUInt64).run c.state =
      .ok p t := by
  obtain ⟨found, hfound, -, -⟩ := ha.period
  have hheight := toNat_height hlt
  simp only [activePeriod, run_get_bind, run_lift_bind, hfound, Except.ok.injEq, exists_eq_left']
  cases found with
  | none => exact snapshotPeriod_succeeds hd hb hlt (hr none hfound (by simp))
  | some q =>
    dsimp only
    split
    case isTrue hended =>
      refine snapshotPeriod_succeeds hd hb hlt (hr (some q) hfound ?_)
      rintro _ ⟨⟩
      rw [ge_iff_le, UInt64.le_iff_toNat_le, hheight] at hended
      exact hended
    case isFalse hrunning => exact ⟨q, c.state, rfl⟩

theorem Active.not_overpaid {first : Nat} {balance : Int} (ha : Accounted env first balance c log)
    (hlt : c.height < 2 ^ 63) {p : PeriodState} {t : State World}
    (h : Active env c.state (Int64.ofNat c.height).toUInt64 p t)
    {snapshot provision paid : SdkInt} (hs : p.Sound snapshot provision paid) :
    p.startBlock.toNat ≤ c.height ∧ c.height < p.endBlock.toNat ∧
      paid.value ≤ share provision.value (p.elapsed c.height) p.length := by
  have hheight := toNat_height hlt
  have hprovision : 0 ≤ provision.value := hs.paid_nonneg.trans hs.paid_le
  cases h with
  | stored found running =>
    obtain ⟨_, hfound, -, hreleased⟩ := ha.period
    obtain rfl := Except.ok.inj (hfound.symm.trans found)
    obtain ⟨snapshot', provision', paid', hr⟩ := hreleased p rfl
    obtain rfl := Except.ok.inj (hs.provision_read.symm.trans hr.sound.provision_read)
    obtain rfl := Except.ok.inj (hs.paid_read.symm.trans hr.sound.paid_read)
    rw [UInt64.lt_iff_toNat_lt, hheight] at running
    have hstarted := hr.started
    obtain ⟨last, hlast⟩ : ∃ last, c.height = last + 1 := Nat.exists_eq_succ_of_ne_zero (by omega)
    have hpaid : paid.value = share provision.value (p.elapsed last) p.length := by
      rw [hr.paid_eq, hr.released last hlast]
      rfl
    refine ⟨hstarted.le, running, ?_⟩
    rw [hpaid]
    apply share_mono hprovision _ hs.length_pos
    rw [PeriodState.elapsed, PeriodState.elapsed, hlast]
    omega
  | opened closed bonded balance provision' hsnapshot =>
    have ho := hsnapshot.opened
    obtain rfl := Except.ok.inj (hs.paid_read.symm.trans ho.sound.paid_read)
    have hstart : p.startBlock.toNat = c.height := by rw [ho.start_eq, hheight]
    have hordered := UInt64.lt_iff_toNat_lt.mp hs.ordered
    refine ⟨hstart.le, by omega, share_nonneg hprovision ?_ hs.length_pos⟩
    rw [PeriodState.elapsed]
    omega

theorem Active.covered {first : Nat} {balance : Int} (ha : Accounted env first balance c log)
    (hb : Bounded env c log) (hlt : c.height < 2 ^ 63) {p : PeriodState} {t : State World}
    (h : Active env c.state (Int64.ofNat c.height).toUInt64 p t)
    {snapshot provision paid : SdkInt} (hs : p.Sound snapshot provision paid) :
    snapshot.value < 2 ^ 192 ∧ p.elapsed c.height ≤ p.length ∧
      share provision.value (p.elapsed c.height) p.length ≤ provision.value ∧
      share provision.value (p.elapsed c.height) p.length - paid.value ≤ treasury env c.state.world := by
  obtain ⟨hstart, hend, -⟩ := h.not_overpaid ha hlt hs
  obtain ⟨hpaid, hsnapshot⟩ := h.paid_eq ha (toNat_height hlt) hs
  have hdeposits := depositedFrom_nonneg (p.startBlock.toNat + 1) hb.deposits
  have hprovision : 0 ≤ provision.value := hs.paid_nonneg.trans hs.paid_le
  have helapsed : p.elapsed c.height ≤ p.length := by
    rw [PeriodState.elapsed, PeriodState.length]
    omega
  have hshare := share_le hprovision helapsed hs.length_pos
  have hle := hs.provision_le
  refine ⟨?_, helapsed, hshare, by omega⟩
  cases h with
  | stored found running => exact hb.snapshot p found snapshot hs.snapshot_read
  | opened closed bonded balance provision' hopened =>
    obtain rfl := Except.ok.inj (hs.snapshot_read.symm.trans hopened.opened.sound.snapshot_read)
    rw [hopened.balance_value]
    exact hb.small

theorem step_block {t : State World} (hlt : c.height < 2 ^ 63)
    (h : (beginBlock env (Int64.ofNat c.height)).run c.state = .ok () t) :
    step env c .block = some (.paid c.height (treasury env c.state.world - treasury env t.world),
      ⟨t, c.height + 1⟩) := by
  rw [step, if_pos hlt, (kept_eq_some _ _ _).mpr h]
  rfl

theorem beginBlock_succeeds (hd : Dependable env) {first : Nat} {balance : Int}
    (ha : Accounted env first balance c log) (hb : Bounded env c log) (hlt : c.height < 2 ^ 63)
    (hr : OpensInRange c) :
    ∃ t, (beginBlock env (Int64.ofNat c.height)).run c.state = .ok () t := by
  obtain ⟨p, r, hperiod⟩ := activePeriod_succeeds hd ha hb hlt hr
  have hactive := activePeriod_ok hperiod
  obtain ⟨hfound, snapshot, provision, paid, hs⟩ := hactive.sound
  obtain ⟨htotalSame, -, -, hworld⟩ := hactive.frame
  obtain ⟨hstart, hend, hpaid⟩ := hactive.not_overpaid ha hlt hs
  obtain ⟨hsmall, helapsed, hshare, hcovered⟩ := hactive.covered ha hb hlt hs
  obtain ⟨total, htotal, htotalValue⟩ := ha.total
  rw [htotal] at htotalSame
  have hheight := toNat_height hlt
  have hbound := hs.provision_le
  have hprovision : 0 ≤ provision.value := hs.paid_nonneg.trans hs.paid_le
  have hproduct : provision.value * p.elapsed c.height < 2 ^ 256 := by
    have hlength : p.elapsed c.height ≤ 2 ^ 64 := by
      have hlast := p.endBlock.toNat_lt
      rw [PeriodState.length] at helapsed
      omega
    calc provision.value * p.elapsed c.height ≤ provision.value * 2 ^ 64 :=
          Int.mul_le_mul_of_nonneg_left hlength hprovision
      _ < 2 ^ 256 := by omega
  have hnonneg := hs.paid_nonneg
  have hlimit := provision.bounded
  obtain ⟨amount, hamount⟩ : ∃ amount : SdkInt, amount.value =
      share provision.value (p.elapsed c.height) p.length - paid.value :=
    ⟨⟨share provision.value (p.elapsed c.height) p.length - paid.value, by omega⟩, rfl⟩
  have hdue : dueAmount p (Int64.ofNat c.height).toUInt64 = .ok amount := by
    rw [dueAmount_eq_ok hs, UInt64.le_iff_toNat_le, UInt64.lt_iff_toNat_lt, hheight]
    exact ⟨hstart, hend, hproduct, hamount, by omega⟩
  simp only [beginBlock, processBlock, run_lift_bind, failIf_eq_ok, exists_const,
    run_bind_eq_ok (activePeriod _ _ _)]
  by_cases hz : amount.value = 0
  · refine ⟨r, by simpa using height_nonneg hlt, p, r, hperiod, amount, hdue, ?_⟩
    rw [if_pos (by simpa [SdkInt.isZero] using hz)]
    rfl
  · have hpos : 0 < amount.value := by omega
    obtain ⟨world, hsend⟩ := hd.sends amount c.state.world hpos (by omega)
    have htotalBound := hb.total
    have htotalNonneg := getTotalDistributed_nonneg htotal
    have hbalance := hb.small
    obtain ⟨sum, hsum⟩ : ∃ sum : SdkInt, sum.value = paid.value + amount.value :=
      ⟨⟨paid.value + amount.value, by omega⟩, rfl⟩
    obtain ⟨newTotal, hnew⟩ : ∃ newTotal : SdkInt, newTotal.value = total.value + amount.value :=
      ⟨⟨total.value + amount.value, by omega⟩, rfl⟩
    refine ⟨⟨recorded r.store p sum newTotal, world⟩, by simpa using height_nonneg hlt, p, r, hperiod,
      amount, hdue, ?_⟩
    rw [if_neg (by simpa [SdkInt.isZero] using hz), run_bind_eq_ok]
    refine ⟨(), ⟨r.store, world⟩, ?_, (recordDistribution_eq_ok (s := ⟨r.store, world⟩) hfound hs
      htotalSame).mpr ⟨hpos, by omega, sum, newTotal, hsum, hnew, rfl⟩⟩
    rw [sendToModule_eq_ok, hworld]
    exact ⟨by decide, hpos, hd.address, by omega, world, hsend, rfl⟩

end Success

theorem run_bounded {World : Type} {env : Env World} (hd : Dependable env) {g : GenesisState}
    {world : World} {c : Chain World} (hc : Started env g world c) (hs : treasury env world < 2 ^ 192)
    (events : List (Event World)) (he : ∀ event ∈ events, event.Small env) :
    Accounted env c.height (treasury env world) (run (step env) c events)
        (outcomes (accepted (step env) c events)) ∧
      Bounded env (run (step env) c events) (outcomes (accepted (step env) c events)) := by
  have hstep (s : Chain World) (log : List (Event World × Outcome)) (event : Event World)
      (outcome : Outcome) (next : Chain World) (h : step env s event = some (outcome, next))
      (ih : (∀ entry ∈ log, entry.1.Small env) →
        Accounted env c.height (treasury env world) s (outcomes log) ∧ Bounded env s (outcomes log))
      (hsmall : ∀ entry ∈ log ++ [(event, outcome)], entry.1.Small env) :
      Accounted env c.height (treasury env world) next (outcomes (log ++ [(event, outcome)])) ∧
        Bounded env next (outcomes (log ++ [(event, outcome)])) := by
    rw [outcomes, List.map_append]
    obtain ⟨ha, hb⟩ := ih fun entry hentry => hsmall entry (List.mem_append_left _ hentry)
    exact ⟨ha.step hd.moves (step_ok h), hb.step hd (step_ok h) ha (hsmall (event, outcome) (by simp))⟩
  have hhistory := Run.run_history _ hstep c events [] fun _ => ⟨hc.accounted, hc.bounded hs⟩
  refine hhistory fun entry hentry => he entry.1 ?_
  exact Run.mem_of_mem_accepted c events entry hentry

-- At every height of every run, the begin-blocker succeeds exactly when a period
-- that it has to open ends within 64 bits.
theorem beginBlock_succeeds_iff {World : Type} (env : Env World) (hd : Dependable env)
    (g : GenesisState) (world : World) (c : Chain World) (hc : Started env g world c)
    (hs : treasury env world < 2 ^ 192) (events : List (Event World)) (he : ∀ event ∈ events, event.Small env)
    (hlt : (run (step env) c events).height < 2 ^ 63) :
    (∃ t, (beginBlock env (Int64.ofNat (run (step env) c events).height)).run
      (run (step env) c events).state = .ok () t) ↔ OpensInRange (run (step env) c events) := by
  obtain ⟨ha, hb⟩ := run_bounded hd hc hs events he
  constructor
  · rintro ⟨t, ht⟩ found hfound hclosed
    obtain ⟨total, htotal, -⟩ := ha.total
    obtain ⟨p, snapshot, provision, paid, target, newTotal, hp⟩ := processBlock_ok htotal ht
    obtain ⟨r, hactive⟩ := hp.active
    have hheight := toNat_height hlt
    cases hactive with
    | stored hstored running =>
      obtain rfl := Except.ok.inj (hfound.symm.trans hstored)
      rw [UInt64.lt_iff_toNat_lt, hheight] at running
      exact absurd (hclosed p rfl) (Nat.not_le.mpr running)
    | opened closed bonded balance provision' hsnapshot =>
      have hend := hsnapshot.opened.end_eq
      have hrange := p.endBlock.toNat_lt
      rw [hheight] at hend
      omega
  · exact beginBlock_succeeds hd ha hb hlt

theorem Purse.dependable : Dependable Purse.env where
  address := by decide
  denom _ := rfl
  nonneg purse := Int.natCast_nonneg purse.balance
  bonded purse := ⟨_, rfl, Int.natCast_nonneg purse.stake⟩
  sends amount purse hpos hle := ⟨_, (Purse.send_eq_ok _ _ _ _ _).mpr ⟨hpos, hle, rfl⟩⟩
  moves := Purse.movesExactly

theorem default_block_succeeds :
    ∃ t, (beginBlock Purse.env (Int64.ofNat
        (run (step Purse.env) (freshChain defaultGenesisState) [.other richerPurse]).height)).run
      (run (step Purse.env) (freshChain defaultGenesisState) [.other richerPurse]).state = .ok () t := by
  refine (beginBlock_succeeds_iff Purse.env Purse.dependable defaultGenesisState somePurse _
    (freshChain_started (by decide +kernel) (by decide +kernel)) (by decide) [.other richerPurse]
    ?_ (by decide)).mpr ?_
  · intro event hevent
    rw [List.mem_singleton.mp hevent]
    exact show treasury Purse.env richerPurse < 2 ^ 192 by decide
  · intro found hfound hclosed
    decide

theorem default_started :
    Started Purse.env defaultGenesisState somePurse (freshChain defaultGenesisState) :=
  freshChain_started (by decide +kernel) (by decide +kernel)

theorem default_first_block :
    ∃ t, (beginBlock Purse.env (Int64.ofNat (freshChain defaultGenesisState).height)).run
      (freshChain defaultGenesisState).state = .ok () t := by
  refine beginBlock_succeeds Purse.dependable default_started.accounted
    (default_started.bounded (by decide)) (by decide) ?_
  intro found hfound hclosed
  decide

-- A period as long as a year of 2^64 - 1 blocks is valid and cannot be opened.
def overflowGenesis : GenesisState :=
  ⟨"", ⟨1000, maxUint64, maxUint64⟩⟩

def faultOf {σ α : Type} : EStateM.Result Fault σ α → Option Fault
  | .ok _ _ => none
  | .error fault _ => some fault

theorem overflowing_period_halts :
    overflowGenesis.validate Purse.env = .ok () ∧
      Started Purse.env overflowGenesis somePurse (freshChain overflowGenesis) ∧
      faultOf ((beginBlock Purse.env (Int64.ofNat (freshChain overflowGenesis).height)).run
        (freshChain overflowGenesis).state) =
          some (.error "calculation period end block overflows") := by
  refine ⟨by decide +kernel, freshChain_started (by decide +kernel) (by decide +kernel), ?_⟩
  decide +kernel

end PosChain.Incentives
