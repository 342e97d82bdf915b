import PosChain.Bridge.Invariant
import PosChain.Bridge.Replay

namespace PosChain.Bridge

section Export

variable {Bank : Type} (env : Env Bank)

def exported (store : KVStore) (config : RouteConfig) : GenesisState where
  routeConfig := some config
  paused := (route env store).paused
  outstandingAmount := toString (route env store).outstanding
  outboundNonce := (route env store).nonce

-- The route after a restart: the protection against replays starts afresh.
def Route.restarted (r : Route) : Route :=
  { r with
    usage := fun _ => 0
    settled := fun _ => false
    controls := fun _ => false
    pauses := fun _ => false }

def WithinLimit (s : State Bank) : Prop :=
  ∀ config, (route env s.store).config = some config →
    ∃ limit : Int, BigInt.setString config.maxOutstandingAmount 10 = some limit ∧
      ((route env s.store).outstanding : Int) ≤ limit

variable {env}

theorem getRouteConfig_valid {store : KVStore} {config : RouteConfig}
    (h : getRouteConfig env store = .ok (some config)) : config.validate env = .ok () := by
  simp only [getRouteConfig] at h
  split at h
  · cases h
  · simp only [Check.bind_eq_ok, Check.pure_eq_ok, Option.some.injEq] at h
    obtain ⟨_, -, ⟨⟩, hvalid, rfl⟩ := h
    exact hvalid

theorem exportGenesis_found {store : KVStore} (hs : WellFormed env store) {config : RouteConfig}
    (found : getRouteConfig env store = .ok (some config)) :
    exportGenesis env store = .ok (exported env store config) := by
  obtain ⟨state, hstate⟩ := hs.state
  obtain ⟨amount, hamount, hvalue⟩ := hs.outstanding_read
  have htext : amount.toText = toString (route env store).outstanding := by
    rw [SdkInt.toText, hvalue]
    rfl
  simp [exportGenesis, must, found, hstate, hamount, exported, paused_of_read env hstate, htext, bind,
    Except.bind, pure, Except.pure]
  rfl

theorem exported_amount_ne {store : KVStore} {config : RouteConfig} :
    (exported env store config).outstandingAmount ≠ "" := by
  intro h
  have hread := BigInt.setString_repr (route env store).outstanding 10 (Or.inr rfl)
  rw [show Nat.repr (route env store).outstanding = "" from h] at hread
  cases hread

theorem exported_validatedAmount {store : KVStore} {config : RouteConfig} :
    (exported env store config).validatedAmount = some ((route env store).outstanding : Int) := by
  rw [GenesisState.validatedAmount, if_neg exported_amount_ne]
  exact BigInt.setString_repr _ 10 (Or.inr rfl)

theorem exported_importedAmount {store : KVStore} {config : RouteConfig} (hs : WellFormed env store) :
    (exported env store config).importedAmount =
      some ⟨(route env store).outstanding, hs.outstanding⟩ := by
  rw [GenesisState.importedAmount, if_neg exported_amount_ne]
  exact SdkInt.newIntFromString_natCast _ hs.outstanding

theorem exported_validate_iff {store : KVStore} {config : RouteConfig} (hv : config.validate env = .ok ()) :
    (exported env store config).validate env = .ok () ↔
      ∃ limit : Int, BigInt.setString config.maxOutstandingAmount 10 = some limit ∧
        ((route env store).outstanding : Int) ≤ limit := by
  rw [GenesisState.validate_eq_ok env _ config rfl]
  constructor
  · rintro ⟨-, outstanding, limit, hamount, -, hlimit, hle⟩
    rw [exported_validatedAmount, Option.some.injEq] at hamount
    exact ⟨limit, hlimit, hamount ▸ hle⟩
  · rintro ⟨limit, hlimit, hle⟩
    exact ⟨hv, _, limit, exported_validatedAmount, Int.natCast_nonneg _, hlimit, hle⟩

theorem RouteStep.fields_of_update {ctx : Context} {r next : Route} {req : MsgUpdateRouteConfig}
    (h : RouteStep env ctx r (.updateRouteConfig req) next) :
    next.config = some req.routeConfig ∧ next.paused = r.paused ∧ next.outstanding = r.outstanding ∧
      next.nonce = r.nonce := by
  cases h
  exact ⟨rfl, rfl, rfl, rfl⟩

-- Every well-formed state can be exported and imported again. What comes back
-- is the route without its records of what has been processed.
theorem restart_route {s : State Bank} (hs : WellFormed env s.store) (bank : Bank) :
    ∃ g u, exportGenesis env s.store = .ok g ∧
      (initGenesis env g).run ⟨KVStore.empty, bank, []⟩ = .ok () u ∧
      route env u.store = (route env s.store).restarted ∧
      (g.validate env = .ok () ↔ WithinLimit env s) := by
  rcases hs.config with hempty | ⟨config, found⟩
  · refine ⟨defaultGenesisState, ⟨KVStore.empty, bank, []⟩, ?_, rfl, ?_, ?_⟩
    · rw [hempty]
      rfl
    · rw [hempty, route_empty]
      rfl
    · refine iff_of_true rfl ?_
      intro config hconfig
      rw [hempty, route_empty] at hconfig
      cases hconfig
  · have hvalid := getRouteConfig_valid found
    have hamount : (exported env s.store config).importedAmount =
        some ⟨(route env s.store).outstanding, hs.outstanding⟩ := exported_importedAmount hs
    refine ⟨_, _, exportGenesis_found hs found,
      (initGenesis_eq_ok env (exported env s.store config) config _ _ rfl).mpr
        ⟨hvalid, _, hamount, rfl⟩, ?_, ?_⟩
    · rw [route_genesisStore env _ _ _ hvalid hamount (Int.natCast_nonneg _)]
      simp [Route.restarted, exported, config_of_found env found]
    · rw [exported_validate_iff hvalid]
      simp [WithinLimit, config_of_found env found]

end Export

section Protection

variable {Bank : Type} (env : Env Bank)

def SettledBefore (s : State Bank) (a : Attestation) : Prop :=
  ∃ id, a.id env = .ok id ∧ isProcessed s.store id = true

def AppliedBefore (s : State Bank) (a : ControlAction) : Prop :=
  ∃ id, a.id env = .ok id ∧ s.store.has (processedControlKey id) = true

def PausedBefore (s : State Bank) (a : GuardianPauseAction) : Prop :=
  ∃ id, a.id env = .ok id ∧ s.store.has (processedPauseKey id) = true

structure Protected (ctx : Context) (s u : State Bank) : Prop where
  settled : ∀ a, SettledBefore env s a → SettledBefore env u a
  applied : ∀ a, AppliedBefore env s a → AppliedBefore env u a
  paused : ∀ a, PausedBefore env s a → PausedBefore env u a
  usage : ∀ config, (route env s.store).config = some config →
    dailyUsage env ctx u.store config.routeID = dailyUsage env ctx s.store config.routeID

structure Unused (ctx : Context) (s : State Bank) : Prop where
  settled : ∀ a, ¬ SettledBefore env s a
  applied : ∀ a, ¬ AppliedBefore env s a
  paused : ∀ a, ¬ PausedBefore env s a
  usage : ∀ config, (route env s.store).config = some config →
    dailyUsage env ctx s.store config.routeID = 0

variable {env}

theorem protected_iff_of_restarted {s u : State Bank} (ctx : Context)
    (hu : route env u.store = (route env s.store).restarted) :
    Protected env ctx s u ↔ Unused env ctx s := by
  have hsettled (a : Attestation) : ¬ SettledBefore env u a := by
    rintro ⟨id, -, h⟩
    rw [show isProcessed u.store id = (route env u.store).settled id from rfl, hu] at h
    cases h
  have happlied (a : ControlAction) : ¬ AppliedBefore env u a := by
    rintro ⟨id, -, h⟩
    rw [show u.store.has (processedControlKey id) = (route env u.store).controls id from rfl, hu] at h
    cases h
  have hpaused (a : GuardianPauseAction) : ¬ PausedBefore env u a := by
    rintro ⟨id, -, h⟩
    rw [show u.store.has (processedPauseKey id) = (route env u.store).pauses id from rfl, hu] at h
    cases h
  have husage (routeID : String) : dailyUsage env ctx u.store routeID = 0 := by
    rw [dailyUsage_eq, hu]
    rfl
  constructor
  · intro h
    exact ⟨fun a ha => hsettled a (h.settled a ha), fun a ha => happlied a (h.applied a ha),
      fun a ha => hpaused a (h.paused a ha),
      fun config hconfig => (h.usage config hconfig).symm.trans (husage _)⟩
  · intro h
    exact ⟨fun a ha => absurd ha (h.settled a), fun a ha => absurd ha (h.applied a),
      fun a ha => absurd ha (h.paused a),
      fun config hconfig => (husage _).trans (h.usage config hconfig).symm⟩

end Protection

-- Export and import of a reachable state keep its replay and rate protection
-- exactly when there is nothing yet to protect.
theorem restart_protected_iff {Bank : Type} (env : Env Bank) (keeper : Keeper) (s : State Bank)
    (hs : Reachable env keeper s) (ctx : Context) (bank : Bank) :
    ∃ g u, exportGenesis env s.store = .ok g ∧
      (initGenesis env g).run ⟨KVStore.empty, bank, []⟩ = .ok () u ∧
      (Protected env ctx s u ↔ Unused env ctx s) := by
  obtain ⟨g, u, hexport, himport, hroute, -⟩ := restart_route hs.wellFormed bank
  exact ⟨g, u, hexport, himport, protected_iff_of_restarted ctx hroute⟩

theorem lock_reachable : Reachable lockTables.env sampleKeeper lockState :=
  ⟨lockState, [], ⟨lockGenesis, lock_started⟩, rfl⟩

theorem lock_route : route lockTables.env lockState.store =
    ⟨some sampleConfig, false, 0, 0, fun _ => 0, fun _ => false, fun _ => false, fun _ => false⟩ :=
  route_genesisStore lockTables.env lockGenesis sampleConfig SdkInt.zeroInt lock_config_valid rfl
    (le_refl _)

theorem lock_unused : Unused lockTables.env lockContext lockState := by
  refine ⟨?_, ?_, ?_, ?_⟩
  · rintro a ⟨id, -, h⟩
    exact absurd ((congrFun (congrArg Route.settled lock_route) id).symm.trans h) Bool.false_ne_true
  · rintro a ⟨id, -, h⟩
    exact absurd ((congrFun (congrArg Route.controls lock_route) id).symm.trans h) Bool.false_ne_true
  · rintro a ⟨id, -, h⟩
    exact absurd ((congrFun (congrArg Route.pauses lock_route) id).symm.trans h) Bool.false_ne_true
  · intro config _
    rw [dailyUsage_eq, lock_route]

theorem fresh_restart_protected :
    Unused lockTables.env lockContext lockState ∧
      ∃ g u, exportGenesis lockTables.env lockState.store = .ok g ∧
        (initGenesis lockTables.env g).run ⟨KVStore.empty, lockState.bank, []⟩ = .ok () u ∧
        Protected lockTables.env lockContext lockState u := by
  obtain ⟨g, u, hexport, himport, hiff⟩ := restart_protected_iff lockTables.env sampleKeeper lockState
    lock_reachable lockContext lockState.bank
  exact ⟨lock_unused, g, u, hexport, himport, hiff.mpr lock_unused⟩

-- A genesis with a hundred outstanding units, and its import next to a ledger.
def lockedGenesis : GenesisState :=
  ⟨some sampleConfig, false, "100", 0⟩

def lockedStart (bank : Ledger) : State Ledger where
  store := genesisStore lockedGenesis sampleConfig ⟨100, hundred_bounded⟩ KVStore.empty
  bank := bank
  events := []

theorem lockedStart_imported (env : Env Ledger) (hv : sampleConfig.validate env = .ok ())
    (bank : Ledger) : (initGenesis env lockedGenesis).run ⟨KVStore.empty, bank, []⟩ =
      .ok () (lockedStart bank) := by
  rw [initGenesis_eq_ok env lockedGenesis sampleConfig _ _ rfl]
  exact ⟨hv, ⟨100, by decide⟩, by decide, rfl⟩

theorem lockedStart_route (env : Env Ledger) (hv : sampleConfig.validate env = .ok ())
    (bank : Ledger) : route env (lockedStart bank).store =
      ⟨some sampleConfig, false, 100, 0, fun _ => 0, fun _ => false, fun _ => false, fun _ => false⟩ :=
  route_genesisStore env lockedGenesis sampleConfig ⟨100, by decide⟩ hv (by decide) (by decide)

def restartedState : State Ledger :=
  lockedStart lockedState.bank

theorem locked_reachable : Reachable lockTables.env sampleKeeper lockedState := by
  obtain ⟨response, h⟩ := lock_accepted
  exact lock_reachable.next h

theorem locked_exported : exportGenesis lockTables.env lockedState.store = .ok lockedGenesis := by
  obtain ⟨response, h⟩ := lock_accepted
  have hconfig : (route lockTables.env lockedState.store).config = some sampleConfig := by
    rw [(deliver_routeStep h).config_of_submit rfl]
    exact config_of_found lockTables.env lock_config_found
  rw [exportGenesis_found locked_reachable.wellFormed (found_of_config lockTables.env hconfig)]
  have hgenesis : exported lockTables.env lockedState.store sampleConfig = lockedGenesis := by
    decide +kernel
  rw [hgenesis]

theorem restarted_accepts : ∃ response t,
    deliver lockTables.env sampleKeeper restartedState lockCall = some (response, t) := by
  have hbasic : (lockMsg 1800000000 lockSignatures).validateBasic lockTables.env = .ok () := by
    decide +kernel
  have hfound : getRouteConfig lockTables.env restartedState.store = .ok (some sampleConfig) :=
    found_of_config lockTables.env (congrArg Route.config
      (lockedStart_route lockTables.env lock_config_valid _))
  have hsome : (kept ((submitUnder lockTables.env sampleKeeper lockContext
      (lockMsg 1800000000 lockSignatures) sampleConfig).run restartedState)).isSome = true := by
    decide +kernel
  obtain ⟨id, hid⟩ := kept_of_isSome hsome
  exact ⟨_, _, deliver_submit hbasic hfound hid⟩

theorem settled_again_after_restart :
    Reachable lockTables.env sampleKeeper lockedState ∧
      SettledBefore lockTables.env lockedState (lockMsg 1800000000 lockSignatures).attestation ∧
      exportGenesis lockTables.env lockedState.store = .ok lockedGenesis ∧
      (initGenesis lockTables.env lockedGenesis).run ⟨KVStore.empty, lockedState.bank, []⟩ =
        .ok () restartedState ∧
      (∃ response t,
        deliver lockTables.env sampleKeeper restartedState lockCall = some (response, t)) ∧
      ¬ Protected lockTables.env lockContext lockedState restartedState := by
  have hsettled : SettledBefore lockTables.env lockedState
      (lockMsg 1800000000 lockSignatures).attestation :=
    ⟨lockId, by decide +kernel, by decide +kernel⟩
  refine ⟨locked_reachable, hsettled, locked_exported,
    lockedStart_imported lockTables.env lock_config_valid _, restarted_accepts, ?_⟩
  intro h
  obtain ⟨id, -, hprocessed⟩ := h.settled _ hsettled
  have hroute := lockedStart_route lockTables.env lock_config_valid lockedState.bank
  exact absurd ((congrFun (congrArg Route.settled hroute) id).symm.trans hprocessed)
    Bool.false_ne_true

-- Export and import of a reachable state restore the route. The exported genesis
-- validates exactly when the outstanding amount is within the limit in force.
theorem restart_restores_iff {Bank : Type} (env : Env Bank) (keeper : Keeper) (s : State Bank)
    (hs : Reachable env keeper s) (bank : Bank) :
    ∃ g u, exportGenesis env s.store = .ok g ∧
      (initGenesis env g).run ⟨KVStore.empty, bank, []⟩ = .ok () u ∧
      (route env u.store).config = (route env s.store).config ∧
      (route env u.store).paused = (route env s.store).paused ∧
      (route env u.store).outstanding = (route env s.store).outstanding ∧
      (route env u.store).nonce = (route env s.store).nonce ∧
      (g.validate env = .ok () ↔ WithinLimit env s) := by
  obtain ⟨g, u, hexport, himport, hroute, hvalid⟩ := restart_route hs.wellFormed bank
  refine ⟨g, u, hexport, himport, ?_, ?_, ?_, ?_, hvalid⟩
  all_goals rw [hroute]; rfl

theorem fresh_restart_restores :
    WithinLimit lockTables.env lockState ∧
      ∃ g u, exportGenesis lockTables.env lockState.store = .ok g ∧ g.validate lockTables.env = .ok () ∧
        (initGenesis lockTables.env g).run ⟨KVStore.empty, lockState.bank, []⟩ = .ok () u ∧
        (route lockTables.env u.store).config = some sampleConfig := by
  have hwithin : WithinLimit lockTables.env lockState := by
    intro config hconfig
    rw [lock_route] at hconfig ⊢
    obtain rfl : sampleConfig = config := by simpa using hconfig
    exact ⟨10000, by decide, by decide⟩
  obtain ⟨g, u, hexport, himport, hconfig, -, -, -, hiff⟩ :=
    restart_restores_iff lockTables.env sampleKeeper lockState lock_reachable lockState.bank
  exact ⟨hwithin, g, u, hexport, hiff.mpr hwithin, himport, by rw [hconfig, lock_route]⟩

-- A hundred outstanding units, and an update that lowers the limit to fifty.
def loweredSignatures : List Bytes :=
  [bytesOfHex ("fa8378f498eb2cb34d847f4a49727f550b369fa89ba2f620b609aca8f81d1a0e" ++
      "083e9ad750b0cc71fcc9f7d5879714a748442f2a74f49de75b62e381f176403800"),
    bytesOfHex ("c2c30a9ce08e385815a640e83e248347e254ab2d6b4d8ced5923239b7342765c" ++
      "600cb467d4331077668dfbfd95a624720ad4ce068bdb6aad84c360f2ee2a4cc200")]

def loweredMsg : MsgUpdateRouteConfig where
  submitter := sampleAccount
  routeId := sampleConfig.routeID
  bridgeSigners := sampleConfig.bridgeSigners
  guardian := sampleConfig.guardian
  maxTransferAmount := "50"
  dailyLimit := "50"
  maxOutstandingAmount := "50"
  enabled := true
  nonce := 1
  notBeforeUnix := 1600000000
  expiresUnix := 1800000000
  signatures := loweredSignatures

def loweredPayload : Hash :=
  Ethereum.hexToHash "82992d8d58f60e886767ab60d4286c4cb0a5018832ce2352d8df5cab26d8ccd6"

def loweredId : Hash :=
  Ethereum.hexToHash "850e84f6ce76e5eccb08a41f43b4276e8acb9dc5d5d8604665cd3d64985296d2"

def loweredDigest : Hash :=
  Ethereum.hexToHash "f961c53a30a46eb58dad94f1c1eeda9b0f1c953a9b0d0e2411d949eeb9aecde1"

def loweredTables : Tables where
  sha256 := [(loweredMsg.routeConfig.encode, loweredPayload),
    (Bytes.utf8 (Text.join [controlDomain, "cronos-testnet", actionUpdateRouteConfig,
      "0x82992d8d58f60e886767ab60d4286c4cb0a5018832ce2352d8df5cab26d8ccd6", "1", "1600000000",
      "1800000000"] "\x00"), loweredId)]
  keccak256 := [(Bytes.utf8 controlDomain ++ loweredId.bytes, loweredDigest)]
  sigToPub := sampleRecovery loweredDigest loweredSignatures
  pubkeyToAddress := samplePubkeys
  accounts := [(sampleAccount, sampleAddress)]

def fundedState : State Ledger :=
  lockedStart (sampleLedger 100 hundred_bounded)

def loweredState : State Ledger :=
  endState ((updateUnder loweredTables.env lockContext loweredMsg sampleConfig).run fundedState)

theorem funded_config_valid : sampleConfig.validate loweredTables.env = .ok () := by
  decide +kernel

theorem funded_started : Started loweredTables.env lockedGenesis fundedState := by
  refine ⟨?_, sampleLedger 100 (by decide), lockedStart_imported loweredTables.env funded_config_valid _⟩
  rw [GenesisState.validate_eq_ok _ lockedGenesis sampleConfig rfl]
  exact ⟨funded_config_valid, 100, 10000, by decide, by decide, by decide, by decide⟩

theorem lowered_accepted : deliver loweredTables.env sampleKeeper fundedState
    ⟨lockContext, .updateRouteConfig loweredMsg⟩ = some (.done, loweredState) := by
  have hbasic : loweredMsg.validateBasic loweredTables.env = .ok () := by decide +kernel
  have hfound : getRouteConfig loweredTables.env fundedState.store = .ok (some sampleConfig) :=
    found_of_config loweredTables.env (congrArg Route.config
      (lockedStart_route loweredTables.env funded_config_valid _))
  have hsome : (kept ((updateUnder loweredTables.env lockContext loweredMsg sampleConfig).run
      fundedState)).isSome = true := by
    decide +kernel
  obtain ⟨⟨⟩, hid⟩ := kept_of_isSome hsome
  exact deliver_update hbasic hfound hid

theorem lowered_limit_export_invalid :
    Reachable loweredTables.env sampleKeeper loweredState ∧
      ∃ g, exportGenesis loweredTables.env loweredState.store = .ok g ∧
        g.validate loweredTables.env =
          .error (.error "bridge outstanding amount exceeds route limit") := by
  have hreachable : Reachable loweredTables.env sampleKeeper loweredState :=
    Run.Reachable.next ⟨fundedState, [], ⟨lockedGenesis, funded_started⟩, rfl⟩ lowered_accepted
  have hfunded := lockedStart_route loweredTables.env funded_config_valid (sampleLedger 100 (by decide))
  obtain ⟨hconfig, hpaused, houtstanding, hnonce⟩ :=
    (deliver_routeStep lowered_accepted).fields_of_update
  have hgenesis : exported loweredTables.env loweredState.store loweredMsg.routeConfig =
      ⟨some loweredMsg.routeConfig, false, "100", 0⟩ := by
    rw [exported, hpaused, houtstanding, hnonce, fundedState, hfunded]
    rfl
  refine ⟨hreachable, ⟨some loweredMsg.routeConfig, false, "100", 0⟩, ?_, by decide +kernel⟩
  rw [exportGenesis_found hreachable.wellFormed (found_of_config loweredTables.env hconfig), hgenesis]

end PosChain.Bridge
