import PosChain.Incentives.Liveness

namespace PosChain.Incentives

open Run (run accepted)

section Statement

variable {World : Type} (env : Env World)

-- The module's state after an import of its own export, beside the same world.
def restarted (s : State World) : EStateM.Result Fault (State World) Unit :=
  (initGenesis env (exportGenesis s.store)).run ⟨KVStore.empty, s.world⟩

-- The import succeeds, restores what the module has stored and pays in every
-- continuation what the chain would have paid.
def Restores (c : Chain World) : Prop :=
  ∃ t, restarted env c.state = .ok () t ∧
    getParams t.store = getParams c.state.store ∧
    getAuthority t.store = getAuthority c.state.store ∧
    getTotalDistributed t.store = getTotalDistributed c.state.store ∧
    getPeriodState t.store = getPeriodState c.state.store ∧
    ∀ events, outcomes (accepted (step env) ⟨t, c.height⟩ events) =
      outcomes (accepted (step env) c events)

-- Before the first period the store is that of a genesis.
structure Unopened (authority : String) (c : Chain World) : Prop where
  params : (getParams c.state.store).validate = .ok ()
  authority_eq : getAuthority c.state.store = authority
  total : ∃ total, getTotalDistributed c.state.store = .ok total
  store_eq : getPeriodState c.state.store = .ok none →
    c.state.store = genesisStore authority (getParams c.state.store)

end Statement

section Steps

variable {World : Type} {env : Env World}

theorem getAuthority_genesisStore (authority : String) (params : Params) :
    getAuthority (genesisStore authority params) = authority := by
  rw [genesisStore]
  split
  case isTrue h => simp [getAuthority]
  case isFalse h =>
    have hempty : authority = "" := by simpa using h
    rw [hempty]
    simp [getAuthority, authorityKey, totalDistributedKey, paramsKey]
    rfl

theorem genesisStore_setParams (authority : String) (params next : Params) :
    (genesisStore authority params).set paramsKey (encodeParams next) = genesisStore authority next := by
  ext key
  rw [genesisStore, genesisStore]
  split
  · simp only [KVStore.find?_set]
    by_cases hp : paramsKey = key
    · subst hp
      simp [authorityKey, totalDistributedKey, paramsKey]
    · simp [hp]
  · simp only [KVStore.find?_set]
    by_cases hp : paramsKey = key
    · subst hp
      simp [totalDistributedKey, paramsKey]
    · simp [hp]

theorem Started.unopened {g : GenesisState} {world : World} {c : Chain World}
    (h : Started env g world c) : Unopened g.authority c := by
  obtain ⟨-, hparams, hstate⟩ := (initGenesis_eq_ok g world c.state).mp h
  refine ⟨?_, ?_, ⟨SdkInt.zeroInt, ?_⟩, fun _ => ?_⟩
  · rw [hstate, getParams_genesisStore]
    exact hparams
  · rw [hstate, getAuthority_genesisStore]
  · rw [hstate, getTotalDistributed_genesisStore]
  · rw [hstate, getParams_genesisStore]

theorem Unopened.step {authority : String} {c next : Chain World} {event : Event World}
    {outcome : Outcome} (h : Stepped env c event outcome next) (hu : Unopened authority c) :
    Unopened authority next := by
  cases h with
  | block height_lt next processed =>
    obtain ⟨total, htotal⟩ := hu.total
    obtain ⟨p, snapshot, provision, paid, target, newTotal, hp⟩ := processBlock_ok htotal processed
    obtain ⟨q, hq, -⟩ := hp.period_after
    refine ⟨?_, ?_, ⟨newTotal, hp.total_after⟩, fun hnone => ?_⟩
    · dsimp only
      rw [hp.params_after]
      exact hu.params
    · dsimp only
      rw [hp.authority_after]
      exact hu.authority_eq
    · cases Except.ok.inj (hq.symm.trans hnone)
  | updateParams message params valid =>
    refine ⟨?_, ?_, ?_, ?_⟩
    · dsimp only
      rw [getParams_set]
      exact valid
    · dsimp only
      rw [getAuthority_of_ne _ (by decide)]
      exact hu.authority_eq
    · dsimp only
      rw [getTotalDistributed_of_ne _ (by decide)]
      exact hu.total
    · dsimp only
      rw [getPeriodState_of_ne _ (by decide), getParams_set]
      intro hnone
      rw [hu.store_eq hnone, genesisStore_setParams]
  | other world kept => exact ⟨hu.params, hu.authority_eq, hu.total, hu.store_eq⟩

theorem run_unopened {g : GenesisState} {world : World} {c : Chain World}
    (hc : Started env g world c) (events : List (Event World)) :
    Unopened g.authority (run (step env) c events) :=
  Run.run_invariant (Unopened g.authority) (fun _ _ _ _ h hu => hu.step (step_ok h)) c events hc.unopened

theorem Unopened.restarted_eq {g : GenesisState} {c : Chain World} (hg : g.validate env = .ok ())
    (hu : Unopened g.authority c) : restarted env c.state =
      .ok () ⟨genesisStore g.authority (getParams c.state.store), c.state.world⟩ := by
  have hexport : exportGenesis c.state.store = ⟨g.authority, getParams c.state.store⟩ := by
    rw [exportGenesis, hu.authority_eq]
  rw [restarted, hexport, initGenesis_eq_ok]
  refine ⟨?_, hu.params, rfl⟩
  simp only [GenesisState.validate, Check.bind_eq_ok, annotate_eq_ok] at hg ⊢
  obtain ⟨⟨⟩, -, hauthority⟩ := hg
  exact ⟨(), hu.params, hauthority⟩

end Steps

-- For every state of every run, the export restores it exactly when no period
-- has been opened yet.
theorem restart_restores_unopened_iff {World : Type} (env : Env World) (g : GenesisState)
    (world : World) (c : Chain World) (hc : Started env g world c) (events : List (Event World)) :
    Restores env (run (step env) c events) ↔
      getPeriodState (run (step env) c events).state.store = .ok none := by
  obtain ⟨hg, -, -⟩ := (initGenesis_eq_ok g world c.state).mp hc
  have hu := run_unopened hc events
  have hrestarted := hu.restarted_eq hg
  generalize run (step env) c events = reached at hu hrestarted ⊢
  constructor
  · rintro ⟨t, ht, -, -, -, hperiod, -⟩
    rw [hrestarted] at ht
    cases ht
    rw [← hperiod]
    exact getPeriodState_genesisStore _ _
  · intro hnone
    have hsame : (⟨genesisStore g.authority (getParams reached.state.store), reached.state.world⟩ :
        State World) = reached.state := by
      rw [← hu.store_eq hnone]
    rw [hsame] at hrestarted
    exact ⟨reached.state, hrestarted, rfl, rfl, rfl, rfl, fun _ => rfl⟩

theorem deposited_chain_restored :
    Restores Purse.env (run (step Purse.env) (freshChain defaultGenesisState) [.other richerPurse]) :=
  (restart_restores_unopened_iff Purse.env defaultGenesisState somePurse _
    default_started [.other richerPurse]).mpr
    (getPeriodState_genesisStore _ _)

-- After one block the chain has a period, and the import of its export has none.
theorem first_period_lost :
    ∃ t p, (beginBlock Purse.env (Int64.ofNat (freshChain defaultGenesisState).height)).run
        (freshChain defaultGenesisState).state = .ok () t ∧
      getPeriodState t.store = .ok (some p) ∧ ¬ Restores Purse.env ⟨t, 2⟩ ∧
      ∃ r, restarted Purse.env t = .ok () r ∧ getPeriodState r.store = .ok none := by
  have hc := default_started
  obtain ⟨t, ht⟩ := default_first_block
  obtain ⟨total, htotal⟩ := hc.unopened.total
  obtain ⟨p, snapshot, provision, paid, target, newTotal, hp⟩ := processBlock_ok htotal ht
  obtain ⟨q, hq, -⟩ := hp.period_after
  have hu : Unopened defaultGenesisState.authority ⟨t, 2⟩ := hc.unopened.step (.block (by decide) t ht)
  have hrestarted := hu.restarted_eq (by decide +kernel : defaultGenesisState.validate Purse.env = .ok ())
  refine ⟨t, q, ht, hq, ?_, _, hrestarted, getPeriodState_genesisStore _ _⟩
  rintro ⟨r, hr, -, -, -, hperiod, -⟩
  rw [hrestarted] at hr
  cases hr
  rw [getPeriodState_genesisStore, hq] at hperiod
  cases hperiod

end PosChain.Incentives
