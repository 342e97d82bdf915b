import PosChain.Base.Run
import PosChain.Bridge.MsgServer.Theorems

namespace PosChain.Bridge

section Step

variable {Bank : Type} (env : Env Bank) (ctx : Context)

-- The message server as a machine on routes: what each accepted message needs
-- and changes. Amounts are numbers here; the text of a transfer has two
-- readings, one for the settlement and one for the limits.
inductive RouteStep (r : Route) : Msg → Route → Prop
  | configure (req : MsgInitializeRouteConfig) (absent : r.config = none) :
      RouteStep r (.initializeRouteConfig req)
        { r with config := some req.routeConfig, paused := true }
  | pause (req : MsgEmergencyPauseRoute) (config : RouteConfig) (id : Hash)
      (found : r.config = some config) (running : r.paused = false) (fresh : r.pauses id = false) :
      RouteStep r (.emergencyPauseRoute req)
        { r with paused := true, pauses := Function.update r.pauses id true }
  | resume (req : MsgResumeRoute) (config : RouteConfig) (id : Hash)
      (found : r.config = some config) (suspended : r.paused = true) (fresh : r.controls id = false) :
      RouteStep r (.resumeRoute req)
        { r with paused := false, controls := Function.update r.controls id true }
  | update (req : MsgUpdateRouteConfig) (current : RouteConfig) (id : Hash)
      (found : r.config = some current) (route : req.routeConfig.routeID = current.routeID)
      (fresh : r.controls id = false) :
      RouteStep r (.updateRouteConfig req)
        { r with config := some req.routeConfig, controls := Function.update r.controls id true }
  | settle (req : MsgSubmitAttestation) (config : RouteConfig) (amount written : Nat)
      (found : r.config = some config) (enabled : config.enabled = true) (running : r.paused = false)
      (detected : BigInt.setString req.amount 0 = some (amount : Int))
      (ten : BigInt.setString req.amount 10 = some (written : Int))
      (fresh : r.settled (env.sha256 (Bytes.utf8 (req.attestation.idText env))) = false)
      (below : ∃ limit : Int, BigInt.setString config.maxOutstandingAmount 10 = some limit ∧
        ((r.outstanding + amount : Nat) : Int) ≤ limit) :
      RouteStep r (.submitAttestation req)
        { r with
          outstanding := r.outstanding + amount
          usage := Function.update r.usage (usageIndex env config.routeID ctx.blockTime)
            (r.usage (usageIndex env config.routeID ctx.blockTime) + written)
          settled := Function.update r.settled
            (env.sha256 (Bytes.utf8 (req.attestation.idText env))) true }
  | burn (req : MsgInitiateOutboundTransfer) (config : RouteConfig) (amount written : Nat)
      (found : r.config = some config) (enabled : config.enabled = true) (running : r.paused = false)
      (detected : BigInt.setString req.amount 0 = some (amount : Int))
      (ten : BigInt.setString req.amount 10 = some (written : Int))
      (within : amount ≤ r.outstanding) :
      RouteStep r (.initiateOutboundTransfer req)
        { r with
          outstanding := r.outstanding - amount
          nonce := r.nonce + 1
          usage := Function.update r.usage (usageIndex env config.routeID ctx.blockTime)
            (r.usage (usageIndex env config.routeID ctx.blockTime) + written) }

end Step

section Refinement

variable {Bank : Type} {env : Env Bank} {keeper : Keeper} {ctx : Context}

theorem Attestation.id_ok {a : Attestation} {id : Hash} (h : a.id env = .ok id) :
    id = env.sha256 (Bytes.utf8 (a.idText env)) := by
  simp only [Attestation.id, Check.bind_eq_ok, Check.pure_eq_ok] at h
  obtain ⟨⟨⟩, -, rfl⟩ := h
  rfl

theorem RouteConfig.maxOutstandingAmount_ok {c : RouteConfig} (h : c.validate env = .ok ()) :
    ∃ limit, BigInt.setString c.maxOutstandingAmount 10 = some limit ∧ 0 < limit := by
  simp only [RouteConfig.validate, Check.bind_eq_ok, failIf_eq_ok, exists_const] at h
  obtain ⟨-, _, -, -, -, -, -, hpositive⟩ := h
  simp only [positiveAmount, Bool.not_eq_false'] at hpositive
  split at hpositive
  case h_1 limit heq => exact ⟨limit, heq, by simpa using hpositive⟩
  case h_2 => cases hpositive

-- The byte store of the keeper refines the machine on routes.
theorem Accepted.routeStep {s t : State Bank} {msg : Msg} {response : Response}
    (h : Accepted env keeper ctx s msg response t) :
    RouteStep env ctx (route env s.store) msg (route env t.store) := by
  cases h with
  | initialized req authorised valid absent =>
    rw [route_setState, route_setConfig env _ _ valid]
    exact .configure req (config_of_found env absent)
  | paused req config id found checked =>
    rw [route_markPause, route_setState]
    exact .pause req config id (config_of_found env found) (paused_of_read env checked.running)
      checked.fresh
  | resumed req config id found checked suspended =>
    rw [route_markControl, route_setState]
    exact .resume req config id (config_of_found env found) (paused_of_read env suspended)
      checked.fresh
  | updated req current id found checked valid same =>
    rw [route_markControl, route_setConfig env _ _ valid]
    exact .update req current id (config_of_found env found) same checked.fresh
  | settled req config id written w found inbound admitted holds =>
    have hbefore := outstanding_of_read env holds.before_eq
    have hafter := holds.after_eq
    have hamount := holds.amount_pos
    have hwritten := admitted.limited.amount_pos
    have htotal : w.after.value.toNat = (route env s.store).outstanding + w.amount.value.toNat := by
      omega
    obtain rfl := Attestation.id_ok admitted.id_eq
    rw [route_settledStore ctx holds _ written, htotal]
    refine .settle req config w.amount.value.toNat written.toNat (config_of_found env found)
      admitted.limited.available.enabled (paused_of_read env admitted.limited.available.running)
      ?_ ?_ admitted.fresh ?_
    · rw [Int.toNat_of_nonneg hamount.le]
      exact (SdkInt.newIntFromString_eq_some _ _).mp holds.amount_eq
    · rw [Int.toNat_of_nonneg hwritten.le]
      exact admitted.limited.amount_eq
    · obtain ⟨limit, hlimit, -⟩ :=
        RouteConfig.maxOutstandingAmount_ok admitted.limited.available.valid
      have hbelow := holds.after_le
      have hle := BigInt.setString_le _ _ _ hlimit
        ((SdkInt.newIntFromString_eq_some _ _).mp holds.limit_eq) (by omega)
      exact ⟨limit, hlimit, by omega⟩
  | burned req config sender id w found same sender_eq holds id_eq =>
    have hbefore := outstanding_of_read env holds.before_eq
    have hafter := holds.after_eq
    have hamount := holds.amount_pos
    have hwithin := holds.amount_le
    have hwritten := holds.limited.amount_pos
    have htotal : w.after.value.toNat = (route env s.store).outstanding - w.amount.value.toNat := by
      omega
    rw [route_outboundStore holds, htotal]
    refine .burn req config w.amount.value.toNat w.written.toNat (config_of_found env found)
      holds.limited.available.enabled (paused_of_read env holds.limited.available.running)
      ?_ ?_ (by omega)
    · rw [Int.toNat_of_nonneg hamount.le]
      exact (SdkInt.newIntFromString_eq_some _ _).mp holds.amount_eq
    · rw [Int.toNat_of_nonneg hwritten.le]
      exact holds.limited.amount_eq

theorem deliver_routeStep {s t : State Bank} {call : Call} {response : Response}
    (h : deliver env keeper s call = some (response, t)) :
    RouteStep env call.ctx (route env s.store) call.msg (route env t.store) :=
  (deliver_accepted h).routeStep

end Refinement

end PosChain.Bridge
