import PosChain.Incentives.Liveness

namespace PosChain.Incentives

open Run (run accepted)

section Following

variable {World : Type} {env : Env World}

def PeriodState.installment (p : PeriodState) (provision : SdkInt) (height : Nat) : Int :=
  share provision.value (p.elapsed height) p.length -
    share provision.value (p.elapsed height - 1) p.length

-- A chain in the middle of a period or beyond it, with what it has paid since.
structure Following (p : PeriodState) (provision : SdkInt) (c : Chain World) (log : List Outcome) :
    Prop where
  total : ∃ total, getTotalDistributed c.state.store = .ok total
  period : c.height ≤ p.endBlock.toNat → ∃ q snapshot paid,
    getPeriodState c.state.store = .ok (some q) ∧ q.Sound snapshot provision paid ∧
      q.startBlock = p.startBlock ∧ q.endBlock = p.endBlock ∧
      paid.value = share provision.value (p.elapsed c.height - 1) p.length
  payments : ∀ height amount, .paid height amount ∈ log → height < p.endBlock.toNat →
    amount = p.installment provision height

-- In every state of a run, the stored period has been paid up to the last height.
theorem Accounted.following {first : Nat} {balance : Int} {c : Chain World} {log : List Outcome}
    (ha : Accounted env first balance c log) {p : PeriodState}
    (hp : getPeriodState c.state.store = .ok (some p)) :
    ∃ provision, parseAtomicAmount p.periodProvisionAtomic = .ok provision ∧
      Following p provision c [] := by
  obtain ⟨_, hfound, -, hreleased⟩ := ha.period
  obtain rfl := Except.ok.inj (hfound.symm.trans hp)
  obtain ⟨snapshot, provision, paid, hr⟩ := hreleased p rfl
  obtain ⟨total, htotal, -⟩ := ha.total
  have hstarted := hr.started
  obtain ⟨last, hlast⟩ : ∃ last, c.height = last + 1 := Nat.exists_eq_succ_of_ne_zero (by omega)
  have hpaid : paid.value = share provision.value (p.elapsed c.height - 1) p.length := by
    have helapsed : p.elapsed c.height - 1 = last - p.startBlock.toNat + 1 := by
      rw [PeriodState.elapsed, hlast]
      omega
    rw [hr.paid_eq, hr.released last hlast, helapsed]
    rfl
  exact ⟨provision, hr.sound.provision_read, ⟨total, htotal⟩,
    fun _ => ⟨p, snapshot, paid, hp, hr.sound, rfl, rfl, hpaid⟩, by simp⟩

theorem Following.block (hm : MovesExactly env) {p : PeriodState} {provision : SdkInt}
    {c : Chain World} {log : List Outcome} (hf : Following p provision c log)
    (hlt : c.height < 2 ^ 63) {next : State World}
    (h : (processBlock env (Int64.ofNat c.height) feeCollectorName).run c.state = .ok () next) :
    Following p provision ⟨next, c.height + 1⟩
      (log ++ [.paid c.height (treasury env c.state.world - treasury env next.world)]) := by
  obtain ⟨total, htotal⟩ := hf.total
  obtain ⟨r, snapshot, provision', paid, target, newTotal, hb⟩ := processBlock_ok htotal h
  have hheight := toNat_height hlt
  have hmoved := hb.transferred.treasury_eq hm
  -- Inside the period the block has used the stored state; beyond its end there
  -- is nothing to show.
  have hinside (hin : c.height < p.endBlock.toNat) :
      target.value = share provision.value (p.elapsed c.height) p.length ∧
        paid.value = share provision.value (p.elapsed c.height - 1) p.length ∧
        provision' = provision ∧ r.startBlock = p.startBlock ∧ r.endBlock = p.endBlock := by
    obtain ⟨q, snapshot', paid', hq, hsound, hstart, hend, hpaid⟩ := hf.period hin.le
    obtain ⟨t, hactive⟩ := hb.active
    cases hactive with
    | stored found running =>
      obtain rfl := Option.some.inj (Except.ok.inj (hq.symm.trans found))
      obtain rfl := Except.ok.inj (hsound.provision_read.symm.trans hb.sound.provision_read)
      obtain rfl := Except.ok.inj (hsound.paid_read.symm.trans hb.sound.paid_read)
      refine ⟨?_, hpaid, rfl, hstart, hend⟩
      rw [hb.target_eq, hheight, PeriodState.elapsed, PeriodState.length, hstart, hend]
      rfl
    | opened closed bonded balance provision'' hsnapshot =>
      obtain ⟨found, hfound, hclosed⟩ := closed
      obtain rfl := Except.ok.inj (hq.symm.trans hfound)
      have hended := UInt64.le_iff_toNat_le.mp (hclosed q rfl)
      rw [hheight, hend] at hended
      omega
  refine ⟨⟨newTotal, hb.total_after⟩, ?_, ?_⟩
  · intro hin
    obtain ⟨htarget, -, rfl, hstart, hend⟩ := hinside hin
    obtain ⟨q, hq, hsound, hqstart, hqend⟩ := hb.period_after
    refine ⟨q, snapshot, target, hq, hsound, hqstart.trans hstart, hqend.trans hend, ?_⟩
    have helapsed : p.elapsed (c.height + 1) - 1 = p.elapsed c.height := by
      rw [PeriodState.elapsed, PeriodState.elapsed]
      omega
    rw [helapsed]
    exact htarget
  · intro height amount hmem hin
    rcases List.mem_append.mp hmem with hmem | hmem
    · exact hf.payments height amount hmem hin
    · cases List.mem_singleton.mp hmem
      obtain ⟨htarget, hpaid, -, -, -⟩ := hinside hin
      rw [PeriodState.installment, ← htarget, ← hpaid]
      omega

theorem Following.step (hm : MovesExactly env) {p : PeriodState} {provision : SdkInt}
    {c next : Chain World} {log : List Outcome} {event : Event World} {outcome : Outcome}
    (h : Stepped env c event outcome next) (hf : Following p provision c log) :
    Following p provision next (log ++ [outcome]) := by
  cases h with
  | block height_lt next processed => exact hf.block hm height_lt processed
  | updateParams message params valid =>
    refine ⟨?_, ?_, fun height amount hmem => hf.payments height amount (by simpa using hmem)⟩
    · dsimp only
      rw [getTotalDistributed_of_ne _ (by decide)]
      exact hf.total
    · dsimp only
      rw [getPeriodState_of_ne _ (by decide)]
      exact hf.period
  | other world kept =>
    exact ⟨hf.total, hf.period, fun height amount hmem =>
      hf.payments height amount (by simpa using hmem)⟩

theorem run_following (hm : MovesExactly env) {p : PeriodState} {provision : SdkInt}
    {c : Chain World} (hf : Following p provision c []) (events : List (Event World)) :
    Following p provision (run (step env) c events) (outcomes (accepted (step env) c events)) := by
  refine Run.run_history (fun s log => Following p provision s (outcomes log)) ?_ c events [] hf
  intro s log event outcome next hstep ih
  rw [outcomes, List.map_append]
  exact ih.step hm (step_ok hstep)

end Following

-- Two chains that have the same period at the same height pay the same at each
-- later height of it, whatever else happens on them.
theorem payments_depend_on_snapshot {World : Type} (env : Env World) (hm : MovesExactly env)
    (g g' : GenesisState) (world world' : World) (c d : Chain World) (hc : Started env g world c)
    (hd : Started env g' world' d) (past past' future future' : List (Event World)) (p : PeriodState)
    (hp : getPeriodState (run (step env) c past).state.store = .ok (some p))
    (hp' : getPeriodState (run (step env) d past').state.store = .ok (some p))
    (height : Nat) (amount amount' : Int) (hin : height < p.endBlock.toNat)
    (ha : .paid height amount ∈ outcomes (accepted (step env) (run (step env) c past) future))
    (ha' : .paid height amount' ∈ outcomes (accepted (step env) (run (step env) d past') future')) :
    amount = amount' := by
  obtain ⟨provision, hread, hf⟩ := (incentives_books hm hc past).following hp
  obtain ⟨provision', hread', hf'⟩ := (incentives_books hm hd past').following hp'
  obtain rfl := Except.ok.inj (hread.symm.trans hread')
  rw [(run_following hm hf future).payments height amount ha hin,
    (run_following hm hf' future').payments height amount' ha' hin]

theorem default_period :
    ∃ t p, step Purse.env (freshChain defaultGenesisState) .block =
        some (.paid 1 (treasury Purse.env somePurse - treasury Purse.env t.world), ⟨t, 2⟩) ∧
      getPeriodState t.store = .ok (some p) ∧ p.endBlock.toNat = 17281 ∧
      treasury Purse.env t.world ≤ treasury Purse.env richerPurse := by
  obtain ⟨t, ht⟩ := default_first_block
  have htotal := getTotalDistributed_genesisStore defaultGenesisState.authority
    defaultGenesisState.params
  obtain ⟨p, snapshot, provision, paid, target, newTotal, hp⟩ := processBlock_ok htotal ht
  obtain ⟨q, hq, -, -, hend⟩ := hp.period_after
  obtain ⟨r, hactive⟩ := hp.active
  refine ⟨t, q, step_block (by decide) ht, hq, ?_, ?_⟩
  · rw [hend]
    cases hactive with
    | stored found running =>
      rw [show getPeriodState (freshChain defaultGenesisState).state.store = .ok none from
        getPeriodState_genesisStore _ _] at found
      cases found
    | opened closed bonded balance provision' hsnapshot =>
      rw [hsnapshot.opened.end_eq, show getParams (freshChain defaultGenesisState).state.store =
        defaultParams from getParams_genesisStore _ _]
      decide
  · obtain ⟨hnonneg, -⟩ := hp.transferred.bounds Purse.dependable
    have hmoved := hp.transferred.treasury_eq Purse.movesExactly
    have hsome : treasury Purse.env (freshChain defaultGenesisState).state.world = 10 ^ 24 := rfl
    have hricher : treasury Purse.env richerPurse = 10 ^ 25 := rfl
    omega

theorem default_second_block {events : List (Event Purse)} (he : ∀ event ∈ events, event.Small Purse.env)
    {c : Chain Purse} (hc : run (step Purse.env) (freshChain defaultGenesisState) events = c)
    {p : PeriodState} (hp : getPeriodState c.state.store = .ok (some p)) (hh : c.height = 2)
    (hend : p.endBlock.toNat = 17281) :
    ∃ amount next, step Purse.env c .block = some (.paid 2 amount, next) := by
  obtain ⟨ha, hb⟩ := run_bounded Purse.dependable default_started (by decide) events he
  rw [hc] at ha hb
  have hlt : c.height < 2 ^ 63 := by omega
  obtain ⟨t, ht⟩ := beginBlock_succeeds Purse.dependable ha hb hlt (by
    intro found hfound hclosed
    obtain rfl := Except.ok.inj (hp.symm.trans hfound)
    have hended := hclosed p rfl
    omega)
  have hstep := step_block hlt ht
  rw [hh] at hstep
  exact ⟨_, _, hstep⟩

theorem default_payments_agree :
    ∃ p amount amount',
      getPeriodState (run (step Purse.env) (freshChain defaultGenesisState) [.block]).state.store =
        .ok (some p) ∧ 2 < p.endBlock.toNat ∧
      .paid 2 amount ∈ outcomes (accepted (step Purse.env)
        (run (step Purse.env) (freshChain defaultGenesisState) [.block]) [.block]) ∧
      .paid 2 amount' ∈ outcomes (accepted (step Purse.env)
        (run (step Purse.env) (freshChain defaultGenesisState) [.block]) [.other richerPurse, .block]) ∧
      amount = amount' := by
  obtain ⟨t, p, hfirst, hp, hend, hle⟩ := default_period
  have hrun : run (step Purse.env) (freshChain defaultGenesisState) [.block] = ⟨t, 2⟩ := by
    rw [Run.run_cons, Run.after_of_some hfirst, Run.run_nil]
  have hdeposit : step Purse.env ⟨t, 2⟩ (.other richerPurse) = some (.deposited 2
      (treasury Purse.env richerPurse - treasury Purse.env t.world), ⟨⟨t.store, richerPurse⟩, 2⟩) := by
    rw [step, if_pos hle]
  have hrun' : run (step Purse.env) (freshChain defaultGenesisState) [.block, .other richerPurse] =
      ⟨⟨t.store, richerPurse⟩, 2⟩ := by
    rw [Run.run_cons, Run.after_of_some hfirst, Run.run_cons, Run.after_of_some hdeposit, Run.run_nil]
  have hsmall : treasury Purse.env richerPurse < 2 ^ 192 := by decide
  obtain ⟨amount, next, hsecond⟩ := default_second_block (by simp [Event.Small]) hrun hp rfl hend
  obtain ⟨amount', next', hsecond'⟩ := default_second_block
    (by simpa [Event.Small] using hsmall) hrun' hp rfl hend
  have hperiod : getPeriodState (run (step Purse.env) (freshChain defaultGenesisState)
      [.block]).state.store = .ok (some p) := by
    rw [hrun, hp]
  have hpaid : .paid 2 amount ∈ outcomes (accepted (step Purse.env)
      (run (step Purse.env) (freshChain defaultGenesisState) [.block]) [.block]) := by
    rw [hrun, Run.accepted_cons_some _ hsecond]
    exact List.mem_cons_self
  have hpaid' : .paid 2 amount' ∈ outcomes (accepted (step Purse.env)
      (run (step Purse.env) (freshChain defaultGenesisState) [.block]) [.other richerPurse, .block]) := by
    rw [hrun, Run.accepted_cons_some _ hdeposit, Run.accepted_cons_some _ hsecond']
    exact List.mem_cons_of_mem _ List.mem_cons_self
  exact ⟨p, amount, amount', hperiod, by omega, hpaid, hpaid', payments_depend_on_snapshot Purse.env
    Purse.movesExactly _ _ _ _ _ _ default_started default_started _ _ _ _ p hperiod hperiod 2 amount amount'
    (by omega) hpaid hpaid'⟩

end PosChain.Incentives
