import PosChain.Bridge.Genesis

namespace PosChain.Bridge

section Invariant

variable {Bank : Type} (env : Env Bank)

-- What every reachable store has: it is empty as long as there is no
-- configuration, and everything in it can be read.
structure WellFormed (store : KVStore) : Prop where
  config : store = KVStore.empty ∨ ∃ config, getRouteConfig env store = .ok (some config)
  state : ∃ state, getRouteState store = .ok state
  outstanding : (route env store).outstanding < 2 ^ 256

theorem getRouteState_congr {old new : KVStore} (h : new.get routeStateKey = old.get routeStateKey) :
    getRouteState new = getRouteState old := by
  simp only [getRouteState, h]

theorem get_putOutstandingAmount (amount : SdkInt) (store : KVStore) (key : Bytes)
    (hk : keyOutstandingAmount ≠ key) :
    (putOutstandingAmount amount store).get key = store.get key := by
  unfold putOutstandingAmount
  split <;> simp [hk]

theorem getRouteState_genesisStore (g : GenesisState) (config : RouteConfig) (amount : SdkInt) :
    getRouteState (genesisStore g config amount KVStore.empty) = .ok ⟨g.paused⟩ := by
  have hlater : (genesisStore g config amount KVStore.empty).get routeStateKey =
      (suspendedStore g (KVStore.empty.set routeConfigKey config.encode)).get routeStateKey := by
    have hnonce : keyOutboundNonce ≠ routeStateKey := by decide
    unfold genesisStore numberedStore fundedStore
    split <;> split <;> simp [get_putOutstandingAmount _ _ routeStateKey (by decide), hnonce]
  rw [getRouteState_congr hlater, suspendedStore]
  split
  case isTrue hp => rw [getRouteState_set, hp]
  case isFalse hp => simp [getRouteState, hp, routeConfigKey, routeStateKey, pure, Except.pure]

theorem wellFormed_empty : WellFormed env KVStore.empty :=
  ⟨Or.inl rfl, ⟨⟨false⟩, by simp [getRouteState, pure, Except.pure]⟩, by
    rw [route_empty]
    norm_num⟩

variable {env}

theorem WellFormed.outstanding_read {store : KVStore} (h : WellFormed env store) :
    ∃ amount, outstandingAmount store = .ok amount ∧
      amount.value = (route env store).outstanding := by
  have hread : ∃ amount, outstandingAmount store = .ok amount := by
    simp only [outstandingAmount]
    split
    · exact ⟨_, rfl⟩
    · have hbound : (Bytes.toNat (store.get keyOutstandingAmount) : Int).natAbs < 2 ^ 256 :=
        h.outstanding
      exact ⟨⟨_, hbound⟩, (SdkInt.newIntFromBigInt_eq_ok _ _).mpr rfl⟩
  obtain ⟨amount, hamount⟩ := hread
  exact ⟨amount, hamount, outstanding_of_read env hamount⟩

theorem Accepted.config_found {keeper : Keeper} {ctx : Context} {s t : State Bank} {msg : Msg}
    {response : Response} (h : Accepted env keeper ctx s msg response t) :
    ∃ config, getRouteConfig env t.store = .ok (some config) := by
  have hstep := h.routeStep
  have hsome : ∃ config, (route env t.store).config = some config := by
    generalize route env s.store = r at hstep
    generalize route env t.store = next at hstep
    cases hstep with
    | configure req absent => exact ⟨_, rfl⟩
    | pause req config id found => exact ⟨config, found⟩
    | resume req config id found => exact ⟨config, found⟩
    | update req current id found => exact ⟨_, rfl⟩
    | settle req config amount written found => exact ⟨config, found⟩
    | burn req config amount written found => exact ⟨config, found⟩
  obtain ⟨config, hconfig⟩ := hsome
  exact ⟨config, found_of_config env hconfig⟩

theorem Accepted.state_found {keeper : Keeper} {ctx : Context} {s t : State Bank} {msg : Msg}
    {response : Response} (h : Accepted env keeper ctx s msg response t)
    (hs : ∃ state, getRouteState s.store = .ok state) :
    ∃ state, getRouteState t.store = .ok state := by
  -- Each handler writes a state, or leaves the bytes at its key alone.
  have same (store : KVStore) (he : store.get routeStateKey = s.store.get routeStateKey) :
      ∃ state, getRouteState store = .ok state := by
    rwa [getRouteState_congr he]
  cases h with
  | initialized req authorised valid absent => exact ⟨_, getRouteState_set _ _⟩
  | paused req config id found checked =>
    refine ⟨⟨true⟩, ?_⟩
    rw [← getRouteState_set s.store ⟨true⟩]
    exact getRouteState_congr (by simp [routeStateKey, processedPauseKey])
  | resumed req config id found checked suspended =>
    refine ⟨⟨false⟩, ?_⟩
    rw [← getRouteState_set s.store ⟨false⟩]
    exact getRouteState_congr (by simp [routeStateKey, processedControlKey])
  | updated req current id found checked valid route =>
    exact same _ (by simp [routeConfigKey, routeStateKey, processedControlKey])
  | settled req config id written w found inbound admitted holds =>
    apply same
    rw [settledStore, get_putOutstandingAmount _ _ _ (by decide)]
    simp [recordUsage, dailyUsageKey, routeStateKey, processedKey]
  | burned req config sender id w found route sender_eq holds id_eq =>
    apply same
    rw [outboundStore, get_putOutstandingAmount _ _ _ (by decide)]
    simp [recordUsage, dailyUsageKey, routeStateKey, keyOutboundNonce]

theorem Accepted.wellFormed {keeper : Keeper} {ctx : Context} {s t : State Bank} {msg : Msg}
    {response : Response} (h : Accepted env keeper ctx s msg response t)
    (hs : WellFormed env s.store) : WellFormed env t.store := by
  refine ⟨Or.inr h.config_found, h.state_found hs.state, ?_⟩
  have hout := hs.outstanding
  cases h with
  | initialized req authorised valid absent =>
    rwa [route_setState, route_setConfig env _ _ valid]
  | paused req config id found checked => rwa [route_markPause, route_setState]
  | resumed req config id found checked suspended => rwa [route_markControl, route_setState]
  | updated req current id found checked valid route =>
    rwa [route_markControl, route_setConfig env _ _ valid]
  | settled req config id written w found inbound admitted holds =>
    rw [route_settledStore ctx holds]
    exact w.after.toNat_lt
  | burned req config sender id w found route sender_eq holds id_eq =>
    rw [route_outboundStore holds]
    exact w.after.toNat_lt

theorem wellFormed_genesisStore {g : GenesisState} {config : RouteConfig} {amount : SdkInt}
    (hv : config.validate env = .ok ()) (ha : g.importedAmount = some amount) (hn : 0 ≤ amount.value) :
    WellFormed env (genesisStore g config amount KVStore.empty) := by
  have hroute := route_genesisStore env g config amount hv ha hn
  refine ⟨Or.inr ⟨config, found_of_config env (congrArg Route.config hroute)⟩,
    ⟨_, getRouteState_genesisStore g config amount⟩, ?_⟩
  rw [hroute]
  exact amount.toNat_lt

theorem Started.wellFormed {g : GenesisState} {s : State Bank} (h : Started env g s) :
    WellFormed env s.store := by
  rcases h.cases with ⟨-, he⟩ | ⟨config, amount, -, hvalid, hamount, hn, he⟩
  · rw [he]
    exact wellFormed_empty env
  · rw [he]
    exact wellFormed_genesisStore hvalid.config_valid hamount hn

theorem Reachable.wellFormed {keeper : Keeper} {s : State Bank} (h : Reachable env keeper s) :
    WellFormed env s.store := by
  refine Run.Reachable.invariant (fun s => WellFormed env s.store) ?_ ?_ h
  · rintro s ⟨g, hg⟩
    exact hg.wellFormed
  · intro s call response t ht hs
    exact (deliver_accepted ht).wellFormed hs

end Invariant

end PosChain.Bridge
