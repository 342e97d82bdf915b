import PosChain.Bridge.Replay

namespace PosChain.Bridge

open Run (run accepted)

def Msg.transfer? : Msg → Option (String × String)
  | .submitAttestation req => some (req.routeId, req.amount)
  | .initiateOutboundTransfer req => some (req.routeId, req.amount)
  | _ => none

def writtenAmount (text : String) : Int :=
  (BigInt.setString text 10).getD 0

-- The number of whole days since the epoch, negative before it.
def utcDay (unixTime : Int64) : Int :=
  unixTime.toInt / 86400

def movedBy (routeID : String) (day : Int) (call : Call) : Int :=
  match call.msg.transfer? with
  | some (route, amount) =>
    if route = routeID ∧ utcDay call.ctx.blockTime = day then writtenAmount amount else 0
  | none => 0

def movedOn (routeID : String) (day : Int) (entries : List (Call × Response)) : Int :=
  (entries.map fun entry => movedBy routeID day entry.1).sum

section Counters

variable {Bank : Type} (env : Env Bank)

def countedBy (index : Bytes) (call : Call) : Int :=
  match call.msg.transfer? with
  | some (route, amount) =>
    if usageIndex env route call.ctx.blockTime = index then writtenAmount amount else 0
  | none => 0

variable {env} {keeper : Keeper} {ctx : Context} {s t : State Bank} {msg : Msg} {response : Response}

theorem usage_update (usage : Bytes → Nat) (index other : Bytes) {text : String} {written : Int}
    (hread : BigInt.setString text 10 = some written) (hpos : 0 < written) :
    (Function.update usage index (usage index + written.toNat) other : Int) =
      usage other + if index = other then writtenAmount text else 0 := by
  have hwritten : writtenAmount text = written := by
    rw [writtenAmount, hread]
    rfl
  by_cases h : index = other
  · subst h
    simp only [Function.update_self, if_true, hwritten]
    omega
  · simp [h, Function.update_of_ne (Ne.symm h)]

theorem Accepted.usage_sum (h : Accepted env keeper ctx s msg response t) (index : Bytes) :
    ((route env t.store).usage index : Int) =
      (route env s.store).usage index + countedBy env index ⟨ctx, msg⟩ := by
  cases h with
  | initialized req authorised valid absent =>
    simp [countedBy, Msg.transfer?, route_setConfig env _ _ valid]
  | paused req config id found checked => simp [countedBy, Msg.transfer?]
  | resumed req config id found checked suspended => simp [countedBy, Msg.transfer?]
  | updated req current id found checked valid same =>
    simp [countedBy, Msg.transfer?, route_setConfig env _ _ valid]
  | settled req config id written w found inbound admitted holds =>
    have hroute : req.routeId = config.routeID := admitted.route
    rw [congrArg Route.usage (route_settledStore ctx holds id written)]
    simp only [countedBy, Msg.transfer?, hroute]
    exact usage_update _ _ index admitted.limited.amount_eq admitted.limited.amount_pos
  | burned req config sender id w found same sender_eq holds id_eq =>
    rw [congrArg Route.usage (route_outboundStore holds)]
    simp only [countedBy, Msg.transfer?, same]
    exact usage_update _ _ index holds.limited.amount_eq holds.limited.amount_pos

theorem run_usage (s : State Bank) (calls : List Call) (index : Bytes) :
    ((route env (run (deliver env keeper) s calls).store).usage index : Int) =
      (route env s.store).usage index +
        ((accepted (deliver env keeper) s calls).map fun entry => countedBy env index entry.1).sum := by
  refine Run.run_sum (fun _ => True) (fun s : State Bank => ((route env s.store).usage index : Int))
    (fun call _ => countedBy env index call) ?_ s calls trivial
  intro s call response t h _
  exact ⟨(deliver_accepted h).usage_sum index, trivial⟩

theorem Started.usage_zero {g : GenesisState} (h : Started env g s) (index : Bytes) :
    (route env s.store).usage index = 0 := by
  rcases h.cases with ⟨-, he⟩ | ⟨config, amount, -, hvalid, hamount, hn, he⟩
  · rw [he, route_empty]
  · rw [he, route_genesisStore env g config amount hvalid.config_valid hamount hn]

end Counters

section Days

variable {Bank : Type} {env : Env Bank}

theorem usageIndex_eq_iff (left right : String) (time other : Int64) :
    usageIndex env left time = usageIndex env right other ↔
      env.sha256 (Bytes.utf8 left) = env.sha256 (Bytes.utf8 right) ∧ time / 86400 = other / 86400 := by
  constructor
  · intro h
    obtain ⟨hhash, hbytes⟩ := List.append_inj h (by rw [Hash.length_eq, Hash.length_eq])
    have hday : (time / 86400).toUInt64 = (other / 86400).toUInt64 := by
      rw [← Bytes.uint64_putUint64 (time / 86400).toUInt64, hbytes, Bytes.uint64_putUint64]
    refine ⟨Hash.ext_bytes hhash, ?_⟩
    rw [← Int64.toInt64_toUInt64 (time / 86400), hday, Int64.toInt64_toUInt64]
  · rintro ⟨hhash, htime⟩
    rw [usageIndex, hhash, htime, usageIndex]

theorem toInt_day {time : Int64} (ht : 0 ≤ time) : (time / 86400).toInt = utcDay time := by
  have hn : 0 ≤ time.toInt := Int64.le_iff_toInt_le.mp ht
  rw [Int64.toInt_div_of_ne_right _ _ (by decide), utcDay, Int.tdiv_eq_ediv_of_nonneg hn]
  rfl

theorem day_eq_iff {time other : Int64} (ht : 0 ≤ time) (ho : 0 ≤ other) :
    time / 86400 = other / 86400 ↔ utcDay time = utcDay other := by
  rw [← Int64.toInt_inj, toInt_day ht, toInt_day ho]

-- No route of the transfers has the hash of another one.
def NoCollision (env : Env Bank) (routeID : String) (calls : List Call) : Prop :=
  ∀ call ∈ calls, ∀ route amount, call.msg.transfer? = some (route, amount) →
    env.sha256 (Bytes.utf8 route) = env.sha256 (Bytes.utf8 routeID) → route = routeID

theorem countedBy_eq {routeID : String} {calls : List Call} (hn : NoCollision env routeID calls)
    {ctx : Context} (hctx : 0 ≤ ctx.blockTime) {call : Call} (hmem : call ∈ calls)
    (hcall : 0 ≤ call.ctx.blockTime) :
    countedBy env (usageIndex env routeID ctx.blockTime) call =
      movedBy routeID (utcDay ctx.blockTime) call := by
  rw [countedBy, movedBy]
  split
  case h_1 route amount htransfer =>
    have hsame : usageIndex env route call.ctx.blockTime = usageIndex env routeID ctx.blockTime ↔
        route = routeID ∧ utcDay call.ctx.blockTime = utcDay ctx.blockTime := by
      rw [usageIndex_eq_iff, day_eq_iff hcall hctx]
      refine and_congr_left fun _ => ⟨hn call hmem route amount htransfer, ?_⟩
      rintro rfl
      rfl
    simp only [hsame]
  case h_2 => rfl

end Days

-- An accepted transfer is within the limits of the configuration in force.
def WithinLimits {Bank : Type} (env : Env Bank) (ctx : Context) (store : KVStore)
    (routeID amount : String) (next : KVStore) : Prop :=
  ∃ config written maxTransfer dailyLimit, getRouteConfig env store = .ok (some config) ∧
    config.routeID = routeID ∧ BigInt.setString amount 10 = some written ∧
    BigInt.setString config.maxTransferAmount 10 = some maxTransfer ∧ written ≤ maxTransfer ∧
    BigInt.setString config.dailyLimit 10 = some dailyLimit ∧
    (dailyUsage env ctx next routeID : Int) ≤ dailyLimit

theorem Accepted.withinLimits {Bank : Type} {env : Env Bank} {keeper : Keeper} {ctx : Context}
    {s t : State Bank} {msg : Msg} {response : Response} {routeID amount : String}
    (h : Accepted env keeper ctx s msg response t) (ht : msg.transfer? = some (routeID, amount)) :
    WithinLimits env ctx s.store routeID amount t.store := by
  have husage := h.usage_sum (usageIndex env routeID ctx.blockTime)
  rw [countedBy, ht] at husage
  simp only [if_true, ← dailyUsage_eq] at husage
  -- Both directions have passed the same check of the limits.
  have hlimits (config : RouteConfig) (written : Int) (hroute : config.routeID = routeID)
      (found : getRouteConfig env s.store = .ok (some config))
      (hl : Limited env ctx s.store config amount written) :
      WithinLimits env ctx s.store routeID amount t.store := by
    obtain ⟨maxTransfer, hmax, hle⟩ := hl.below_transfer
    obtain ⟨dailyLimit, hdaily, hbelow⟩ := hl.below_daily
    refine ⟨config, written, maxTransfer, dailyLimit, found, hroute, hl.amount_eq, hmax, hle, hdaily, ?_⟩
    rw [husage, writtenAmount, hl.amount_eq]
    rw [hroute] at hbelow
    exact hbelow
  cases h with
  | settled req config id written w found inbound admitted holds =>
    obtain ⟨rfl, rfl⟩ : req.routeId = routeID ∧ req.amount = amount := by
      simpa [Msg.transfer?] using ht
    exact hlimits config written admitted.route.symm found admitted.limited
  | burned req config sender id w found same sender_eq holds id_eq =>
    obtain ⟨rfl, rfl⟩ : req.routeId = routeID ∧ req.amount = amount := by
      simpa [Msg.transfer?] using ht
    exact hlimits config w.written same.symm found holds.limited
  | _ => simp [Msg.transfer?] at ht

-- In every run whose blocks are not before the epoch, the usage of each day is
-- what has been moved on it, and every transfer is within the limits.
theorem daily_usage_tracked {Bank : Type} (env : Env Bank) (keeper : Keeper) (g : GenesisState)
    (s : State Bank) (hs : Started env g s) (calls : List Call)
    (htimes : ∀ call ∈ calls, 0 ≤ call.ctx.blockTime) :
    (∀ ctx routeID, 0 ≤ ctx.blockTime → NoCollision env routeID calls →
      (dailyUsage env ctx (run (deliver env keeper) s calls).store routeID : Int) =
        movedOn routeID (utcDay ctx.blockTime) (accepted (deliver env keeper) s calls)) ∧
      ∀ call response t routeID amount,
        deliver env keeper (run (deliver env keeper) s calls) call = some (response, t) →
        call.msg.transfer? = some (routeID, amount) →
        WithinLimits env call.ctx (run (deliver env keeper) s calls).store routeID amount t.store := by
  refine ⟨?_, fun call response t routeID amount h ht => (deliver_accepted h).withinLimits ht⟩
  intro ctx routeID hctx hn
  rw [dailyUsage_eq, run_usage, hs.usage_zero, movedOn]
  simp only [Nat.cast_zero, zero_add]
  congr 1
  apply List.map_congr_left
  intro entry hentry
  have hmem := Run.mem_of_mem_accepted s calls entry hentry
  exact countedBy_eq hn hctx hmem (htimes entry.1 hmem)

theorem lock_usage_tracked :
    (dailyUsage lockTables.env lockContext
        (run (deliver lockTables.env sampleKeeper) lockState [lockCall]).store "cronos-testnet" : Int) =
      movedOn "cronos-testnet" 19675 (accepted (deliver lockTables.env sampleKeeper) lockState
        [lockCall]) := by
  refine (daily_usage_tracked lockTables.env sampleKeeper lockGenesis lockState lock_started [lockCall]
    ?_).1 lockContext "cronos-testnet" (by decide) ?_
  · intro call hcall
    rw [List.mem_singleton.mp hcall]
    decide
  · intro call hcall route amount htransfer _
    rw [List.mem_singleton.mp hcall] at htransfer
    cases htransfer
    rfl

-- A transfer in the last second before the epoch.
def earlyContext : Context :=
  ⟨-1, ""⟩

def earlyCall : Call :=
  ⟨earlyContext, .submitAttestation (lockMsg 1800000000 lockSignatures)⟩

theorem early_transfer_counted_next_day :
    Started lockTables.env lockGenesis lockState ∧
      ∃ response t, deliver lockTables.env sampleKeeper lockState earlyCall = some (response, t) ∧
        utcDay earlyCall.ctx.blockTime = -1 ∧
        dailyUsage lockTables.env ⟨0, ""⟩ t.store "cronos-testnet" = 100 ∧
        movedOn "cronos-testnet" (utcDay 0) [(earlyCall, response)] = 0 := by
  have hbasic : (lockMsg 1800000000 lockSignatures).validateBasic lockTables.env = .ok () := by
    decide +kernel
  have hsome : (kept ((submitUnder lockTables.env sampleKeeper earlyContext
      (lockMsg 1800000000 lockSignatures) sampleConfig).run lockState)).isSome = true := by
    decide +kernel
  obtain ⟨id, hid⟩ := kept_of_isSome hsome
  refine ⟨lock_started, .attestation id, _, deliver_submit hbasic lock_config_found hid, by decide, ?_, ?_⟩
  · decide +kernel
  · simp [movedOn, movedBy, earlyCall, earlyContext, Msg.transfer?, utcDay]

end PosChain.Bridge
