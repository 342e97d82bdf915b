import PosChain.Base.Triple
import PosChain.Bridge.Keeper.Success

namespace PosChain.Bridge

section Traces

variable {Bank : Type} (env : Env Bank) (ctx : Context)

structure Writes (before after : KVStore) (entries : List (Bytes × Bytes)) : Prop where
  written : ∀ entry ∈ entries, after.find? entry.1 = some entry.2
  kept : ∀ key, key ∉ entries.map Prod.fst → after.find? key = before.find? key

theorem writes_pair (store : KVStore) (first second value mark : Bytes) (h : second ≠ first) :
    Writes store ((store.set first value).set second mark) [(first, value), (second, mark)] where
  written := by
    simp [h]
  kept := by
    intro key hkey
    simp only [List.map_cons, List.map_nil, List.mem_cons, List.not_mem_nil, or_false, not_or] at hkey
    rw [KVStore.find?_set_of_ne _ _ (Ne.symm hkey.2), KVStore.find?_set_of_ne _ _ (Ne.symm hkey.1)]

theorem checkAndRecordLimits_aborts (config : RouteConfig) (amountText : String) (s : State Bank) :
    Aborts (checkAndRecordLimits env ctx config amountText) s := by
  refine aborts_get_bind (aborts_lift_bind fun _ _ => aborts_lift_bind fun amount _ => ?_)
  refine aborts_lift_bind fun _ _ => aborts_lift_bind fun maxTransfer _ => ?_
  refine aborts_lift_bind fun _ _ => aborts_lift_bind fun dailyLimit _ => ?_
  exact aborts_lift_bind fun _ _ => aborts_modify _ _

theorem admitAttestation_aborts (config : RouteConfig) (attestation : Attestation)
    (signatures : List Bytes) (s : State Bank) :
    Aborts (admitAttestation env ctx config attestation signatures) s := by
  refine aborts_lift_bind fun _ _ => aborts_lift_bind fun _ _ => aborts_get_bind ?_
  refine aborts_lift_bind fun _ _ => aborts_lift_bind fun _ _ => aborts_lift_bind fun _ _ => ?_
  refine aborts_lift_bind fun id _ => aborts_lift_bind fun _ _ => ?_
  exact aborts_bind (checkAndRecordLimits_aborts env ctx config attestation.amount s)
    fun _ t _ => ⟨id, _, rfl⟩

theorem pauseRoute_aborts (config : RouteConfig) (action : GuardianPauseAction) (signature : Bytes)
    (s : State Bank) : Aborts (pauseRoute env ctx config action signature) s := by
  refine aborts_lift_bind fun _ _ => aborts_lift_bind fun _ _ => aborts_lift_bind fun _ _ => ?_
  refine aborts_lift_bind fun _ _ => aborts_lift_bind fun id _ => aborts_get_bind ?_
  refine aborts_lift_bind fun _ _ => aborts_lift_bind fun _ _ => aborts_lift_bind fun _ _ => ?_
  exact aborts_lift_bind fun _ _ => aborts_bind (aborts_modify _ _) fun _ _ _ => ⟨(), _, rfl⟩

theorem resumeRoute_aborts (config : RouteConfig) (action : ControlAction) (signatures : List Bytes)
    (s : State Bank) : Aborts (resumeRoute env ctx config action signatures) s := by
  refine aborts_lift_bind fun _ _ => aborts_lift_bind fun _ _ => aborts_lift_bind fun _ _ => ?_
  refine aborts_lift_bind fun _ _ => aborts_get_bind (aborts_lift_bind fun _ _ => ?_)
  refine aborts_lift_bind fun _ _ => aborts_lift_bind fun _ _ => aborts_lift_bind fun _ _ => ?_
  refine aborts_lift_bind fun id _ => aborts_lift_bind fun _ _ => aborts_lift_bind fun _ _ => ?_
  exact aborts_bind (aborts_modify _ _) fun _ _ _ => ⟨(), _, rfl⟩

-- The configuration is validated a second time where it is written, after the
-- last check and before the first write.
theorem setRouteConfig_aborts (config : RouteConfig) (s : State Bank) :
    Aborts (setRouteConfig env config) s :=
  aborts_lift_bind fun _ _ => aborts_modify _ _

theorem applyRouteConfigUpdate_aborts (current : RouteConfig) (action : ControlAction)
    (next : RouteConfig) (signatures : List Bytes) (s : State Bank) :
    Aborts (applyRouteConfigUpdate env ctx current action next signatures) s := by
  refine aborts_lift_bind fun _ _ => aborts_lift_bind fun _ _ => aborts_lift_bind fun _ _ => ?_
  refine aborts_lift_bind fun _ _ => aborts_lift_bind fun _ _ => aborts_lift_bind fun _ _ => ?_
  refine aborts_lift_bind fun _ _ => aborts_lift_bind fun id _ => aborts_get_bind ?_
  refine aborts_lift_bind fun _ _ => aborts_lift_bind fun _ _ => ?_
  exact aborts_bind (setRouteConfig_aborts env next s) fun _ _ _ => ⟨(), _, rfl⟩

-- How a call may end: after a failure the state is the one before the call, and
-- after a success the store differs in the entries that belong to the result.
structure Traced {α : Type} (action : Action (State Bank) α) (s : State Bank)
    (writes : α → KVStore → Prop) : Prop where
  failed : Aborts action s
  succeeded : ∀ a t, action.run s = .ok a t → writes a t.store

theorem failures_leave_no_trace (s : State Bank) (config next : RouteConfig)
    (attestation : Attestation) (pause : GuardianPauseAction) (control : ControlAction)
    (signatures : List Bytes) (signature : Bytes) :
    Traced (admitAttestation env ctx config attestation signatures) s (fun id after =>
      attestation.id env = .ok id ∧ s.store.has (processedKey id) = false ∧
      ∃ amount, BigInt.setString attestation.amount 10 = some amount ∧ 0 < amount ∧
        Writes s.store after
          [(dailyUsageKey env config.routeID ctx.blockTime,
            Bytes.ofNat (dailyUsage env ctx s.store config.routeID + amount.toNat)),
          (processedKey id, [1])]) ∧
    Traced (pauseRoute env ctx config pause signature) s (fun _ after =>
      getRouteState s.store = .ok ⟨false⟩ ∧
      ∃ id, pause.id env = .ok id ∧ s.store.has (processedPauseKey id) = false ∧
        Writes s.store after
          [(routeStateKey, RouteState.encode ⟨true⟩), (processedPauseKey id, [1])]) ∧
    Traced (resumeRoute env ctx config control signatures) s (fun _ after =>
      getRouteState s.store = .ok ⟨true⟩ ∧
      ∃ id, control.id env = .ok id ∧ s.store.has (processedControlKey id) = false ∧
        Writes s.store after
          [(routeStateKey, RouteState.encode ⟨false⟩), (processedControlKey id, [1])]) ∧
    Traced (applyRouteConfigUpdate env ctx config control next signatures) s (fun _ after =>
      ∃ id, control.id env = .ok id ∧ s.store.has (processedControlKey id) = false ∧
        Writes s.store after
          [(routeConfigKey, next.encode), (processedControlKey id, [1])]) := by
  refine ⟨⟨admitAttestation_aborts env ctx config attestation signatures s, ?_⟩,
    ⟨pauseRoute_aborts env ctx config pause signature s, ?_⟩,
    ⟨resumeRoute_aborts env ctx config control signatures s, ?_⟩,
    ⟨applyRouteConfigUpdate_aborts env ctx config control next signatures s, ?_⟩⟩
  · intro id t h
    obtain ⟨amount, hadmitted, rfl⟩ := admitAttestation_ok env ctx config attestation signatures s t id h
    refine ⟨hadmitted.id_eq, hadmitted.fresh, amount, hadmitted.limited.amount_eq,
      hadmitted.limited.amount_pos, ?_⟩
    exact writes_pair _ _ _ _ _ (by simp [processedKey, dailyUsageKey])
  · intro _ t h
    obtain ⟨id, hpaused, rfl⟩ := pauseRoute_ok env ctx config pause signature s t h
    exact ⟨hpaused.running, id, hpaused.id_eq, hpaused.fresh,
      writes_pair _ _ _ _ _ (by simp [processedPauseKey, routeStateKey])⟩
  · intro _ t h
    obtain ⟨id, hcontrolled, hpaused, rfl⟩ := resumeRoute_ok env ctx config control signatures s t h
    exact ⟨hpaused, id, hcontrolled.id_eq, hcontrolled.fresh,
      writes_pair _ _ _ _ _ (by simp [processedControlKey, routeStateKey])⟩
  · intro _ t h
    obtain ⟨id, hcontrolled, -, -, rfl⟩ :=
      applyRouteConfigUpdate_ok env ctx config control next signatures s t h
    exact ⟨id, hcontrolled.id_eq, hcontrolled.fresh,
      writes_pair _ _ _ _ _ (by simp [processedControlKey, routeConfigKey])⟩

end Traces

end PosChain.Bridge
