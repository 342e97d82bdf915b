import PosChain.Bridge.Keeper.Success
import PosChain.Bridge.MsgServer

namespace PosChain.Bridge

section Accepted

variable {Bank : Type} (env : Env Bank) (keeper : Keeper) (ctx : Context)

-- The payload hashes that the two control handlers put into the action.
def resumePayload (config : RouteConfig) : Hash :=
  env.sha256 (Json.marshal (.obj [("config", config.toJson), ("state", RouteState.toJson ⟨false⟩)]))

def updatePayload (next : RouteConfig) : Hash :=
  env.sha256 next.encode

def settledStore (config : RouteConfig) (id : Hash) (written : Int) (after : SdkInt)
    (store : KVStore) : KVStore :=
  putOutstandingAmount after ((recordUsage env ctx config written store).set (processedKey id) [1])

-- Everything an accepted message has checked and changed, one constructor for
-- each handler.
inductive Accepted (s : State Bank) : Msg → Response → State Bank → Prop
  | initialized (req : MsgInitializeRouteConfig)
      (authorised : env.validateAuthority ctx keeper.authority req.authority = .ok ())
      (valid : req.routeConfig.validate env = .ok ())
      (absent : getRouteConfig env s.store = .ok none) :
      Accepted s (.initializeRouteConfig req) .done
        { s with
          store := (s.store.set routeConfigKey req.routeConfig.encode).set routeStateKey
            (RouteState.encode ⟨true⟩)
          events := s.events ++ [⟨"bridge_route_initialized",
            [("route_id", req.routeConfig.routeID), ("enabled", "false"), ("paused", "true")]⟩] }
  | paused (req : MsgEmergencyPauseRoute) (config : RouteConfig) (id : Hash)
      (found : getRouteConfig env s.store = .ok (some config))
      (checked : Paused env ctx s.store config req.action req.guardianSignature id) :
      Accepted s (.emergencyPauseRoute req) .done
        { s with
          store := (s.store.set routeStateKey (RouteState.encode ⟨true⟩)).set (processedPauseKey id) [1]
          events := s.events ++ [⟨"bridge_route_paused",
            [("route_id", config.routeID), ("nonce", toString req.nonce.toNat)]⟩] }
  | resumed (req : MsgResumeRoute) (config : RouteConfig) (id : Hash)
      (found : getRouteConfig env s.store = .ok (some config))
      (checked : Controlled env ctx s.store config
        (req.action (Ethereum.hashHex (resumePayload env config))) req.signatures id)
      (suspended : getRouteState s.store = .ok ⟨true⟩) :
      Accepted s (.resumeRoute req) .done
        { s with
          store := (s.store.set routeStateKey (RouteState.encode ⟨false⟩)).set (processedControlKey id) [1]
          events := s.events ++ [⟨"bridge_route_resumed",
            [("route_id", config.routeID), ("nonce", toString req.nonce.toNat)]⟩] }
  | updated (req : MsgUpdateRouteConfig) (current : RouteConfig) (id : Hash)
      (found : getRouteConfig env s.store = .ok (some current))
      (checked : Controlled env ctx s.store current
        (req.action (Ethereum.hashHex (updatePayload env req.routeConfig))) req.signatures id)
      (valid : req.routeConfig.validate env = .ok ())
      (route : req.routeConfig.routeID = current.routeID) :
      Accepted s (.updateRouteConfig req) .done
        { s with
          store := (s.store.set routeConfigKey req.routeConfig.encode).set (processedControlKey id) [1]
          events := s.events ++ [⟨"bridge_route_config_updated",
            [("route_id", req.routeConfig.routeID), ("enabled", toString req.routeConfig.enabled),
              ("nonce", toString req.nonce.toNat)]⟩] }
  | settled (req : MsgSubmitAttestation) (config : RouteConfig) (id : Hash) (written : Int)
      (w : Settling Bank)
      (found : getRouteConfig env s.store = .ok (some config))
      (inbound : req.attestation.direction = directionCronosToXitcoin)
      (admitted : Admitted env ctx s.store config req.attestation req.signatures id written)
      (holds : w.Holds env keeper s config req.attestation) :
      Accepted s (.submitAttestation req) (.attestation (Bytes.hexEncode id.bytes))
        { store := settledStore env ctx config id written w.after s.store
          bank := w.paid
          events := s.events ++ [⟨"bridge_inbound_settled",
            [("attestation_id", Bytes.hexEncode id.bytes), ("route_id", config.routeID),
              ("destination", req.destination), ("amount", req.amount)]⟩] }
  | burned (req : MsgInitiateOutboundTransfer) (config : RouteConfig) (sender : AccAddress)
      (id : Hash) (w : Burning Bank)
      (found : getRouteConfig env s.store = .ok (some config))
      (route : req.routeId = config.routeID)
      (sender_eq : env.accAddressFromBech32 req.sender = .ok sender)
      (holds : w.Holds env keeper ctx s config sender req.destination req.amount)
      (id_eq : id = env.sha256 (Bytes.utf8 (requestText env config sender
        (Text.trimSpace req.destination) w.amount (outboundNonce s.store + 1)))) :
      Accepted s (.initiateOutboundTransfer req)
        (.outbound (Bytes.hexEncode id.bytes) (outboundNonce s.store + 1))
        { store := outboundStore env ctx config w s.store
          bank := w.burned
          events := s.events ++ [⟨"bridge_outbound_burned",
            [("request_id", Bytes.hexEncode id.bytes), ("route_id", config.routeID),
              ("sender", env.accAddressText sender), ("destination", req.destination),
              ("amount", req.amount), ("nonce", toString (outboundNonce s.store + 1).toNat)]⟩] }

variable {env keeper ctx}

theorem requireRouteConfig_eq_ok (store : KVStore) (config : RouteConfig) :
    requireRouteConfig env store = .ok config ↔ getRouteConfig env store = .ok (some config) := by
  simp [requireRouteConfig, Check.bind_eq_ok]

theorem withRouteConfig_eq_ok {α : Type} (basic : Check Unit)
    (rest : RouteConfig → Action (State Bank) α) (s t : State Bank) (a : α) :
    (withRouteConfig env basic rest).run s = .ok a t ↔
      basic = .ok () ∧ ∃ config, getRouteConfig env s.store = .ok (some config) ∧
        (rest config).run s = .ok a t := by
  simp only [withRouteConfig, run_lift_bind, run_get_bind, requireRouteConfig_eq_ok,
    Unique.exists_iff]

theorem withRouteConfig_run {α : Type} {basic : Check Unit} {s : State Bank} {config : RouteConfig}
    (hb : basic = .ok ()) (hf : getRouteConfig env s.store = .ok (some config))
    (rest : RouteConfig → Action (State Bank) α) :
    (withRouteConfig env basic rest).run s = (rest config).run s := by
  have hr : requireRouteConfig env s.store = .ok config := (requireRouteConfig_eq_ok _ _).mpr hf
  subst hb
  simp only [withRouteConfig, EStateM.run_bind, EStateM.run_get]
  simp [liftM, monadLift, MonadLift.monadLift, EStateM.run, hr]

theorem serveInitializeRouteConfig_ok {req : MsgInitializeRouteConfig} {s t : State Bank}
    (h : (serveInitializeRouteConfig env keeper ctx req).run s = .ok () t) :
    Accepted env keeper ctx s (.initializeRouteConfig req) .done t := by
  simp only [serveInitializeRouteConfig, MsgInitializeRouteConfig.validateBasic, setRouteConfig,
    writeStore, emitEvent, run_get_bind, run_lift_bind, bind_assoc, run_modify_bind, run_modify_eq_ok,
    Check.bind_eq_ok, failIf_eq_ok, passOn_eq_ok, exists_const] at h
  obtain ⟨⟨⟩, hauthority, ⟨⟩, ⟨-, -, hvalid⟩, found, hfound, hnone, ⟨⟩, -, rfl⟩ := h
  obtain rfl : found = none := by simpa using hnone
  exact .initialized req hauthority hvalid hfound

theorem serveEmergencyPauseRoute_ok {req : MsgEmergencyPauseRoute} {s t : State Bank}
    (h : (serveEmergencyPauseRoute env ctx req).run s = .ok () t) :
    Accepted env keeper ctx s (.emergencyPauseRoute req) .done t := by
  simp only [serveEmergencyPauseRoute, withRouteConfig_eq_ok, pauseUnder, emitEvent, run_bind_eq_ok,
    run_modify_eq_ok] at h
  obtain ⟨-, config, hfound, ⟨⟩, r, hpause, rfl⟩ := h
  obtain ⟨id, hchecked, rfl⟩ := pauseRoute_ok env ctx config _ _ s r hpause
  exact .paused req config id hfound hchecked

theorem serveResumeRoute_ok {req : MsgResumeRoute} {s t : State Bank}
    (h : (serveResumeRoute env ctx req).run s = .ok () t) :
    Accepted env keeper ctx s (.resumeRoute req) .done t := by
  simp only [serveResumeRoute, withRouteConfig_eq_ok, resumeUnder, routeStatePayloadHash, emitEvent,
    run_lift_bind, run_bind_eq_ok (resumeRoute _ _ _ _ _), run_modify_eq_ok, Check.bind_eq_ok, Check.pure_eq_ok] at h
  obtain ⟨-, config, hfound, _, ⟨⟨⟩, -, rfl⟩, ⟨⟩, r, hresume, rfl⟩ := h
  obtain ⟨id, hchecked, hpaused, rfl⟩ := resumeRoute_ok env ctx config _ _ s r hresume
  exact .resumed req config id hfound hchecked hpaused

theorem serveUpdateRouteConfig_ok {req : MsgUpdateRouteConfig} {s t : State Bank}
    (h : (serveUpdateRouteConfig env ctx req).run s = .ok () t) :
    Accepted env keeper ctx s (.updateRouteConfig req) .done t := by
  simp only [serveUpdateRouteConfig, withRouteConfig_eq_ok, updateUnder, routeConfigPayloadHash, emitEvent,
    run_lift_bind, run_bind_eq_ok (applyRouteConfigUpdate _ _ _ _ _ _), run_modify_eq_ok, Check.bind_eq_ok,
    Check.pure_eq_ok] at h
  obtain ⟨-, current, hfound, _, ⟨⟨⟩, -, rfl⟩, ⟨⟩, r, hupdate, rfl⟩ := h
  obtain ⟨id, hchecked, hvalid, hroute, rfl⟩ := applyRouteConfigUpdate_ok env ctx current _ _ _ s r hupdate
  exact .updated req current id hfound hchecked hvalid hroute

-- Admission leaves the outstanding amount alone, so settlement reads it as it
-- was before the message.
theorem outstandingAmount_admitted (config : RouteConfig) (id : Hash) (written : Int) (store : KVStore) :
    outstandingAmount ((recordUsage env ctx config written store).set (processedKey id) [1]) =
      outstandingAmount store := by
  simp [outstandingAmount, recordUsage, dailyUsageKey, keyOutstandingAmount, processedKey]

theorem serveSubmitAttestation_ok {req : MsgSubmitAttestation} {s t : State Bank} {text : String}
    (h : (serveSubmitAttestation env keeper ctx req).run s = .ok text t) :
    Accepted env keeper ctx s (.submitAttestation req) (.attestation text) t := by
  simp only [serveSubmitAttestation, withRouteConfig_eq_ok, submitUnder, emitEvent, run_lift_bind,
    run_bind_eq_ok (admitAttestation _ _ _ _ _), run_bind_eq_ok (settleInbound _ _ _ _),
    run_modify_bind, run_pure_eq_ok, failIf_eq_ok, bne_eq_false_iff_eq, exists_const] at h
  obtain ⟨-, config, hfound, hinbound, id, r, hadmit, ⟨⟩, r', hsettle, rfl, rfl⟩ := h
  obtain ⟨written, hadmitted, rfl⟩ := admitAttestation_ok env ctx config _ _ s r id hadmit
  obtain ⟨w, hholds, rfl⟩ := settleInbound_ok env keeper config _ _ r' hsettle
  have hbefore := hholds.before_eq
  rw [outstandingAmount_admitted] at hbefore
  exact .settled req config id written w hfound hinbound hadmitted
    { hholds with before_eq := hbefore }

theorem serveInitiateOutboundTransfer_ok {req : MsgInitiateOutboundTransfer} {s t : State Bank}
    {text : String} {nonce : UInt64}
    (h : (serveInitiateOutboundTransfer env keeper ctx req).run s = .ok (text, nonce) t) :
    Accepted env keeper ctx s (.initiateOutboundTransfer req) (.outbound text nonce) t := by
  simp only [serveInitiateOutboundTransfer, withRouteConfig_eq_ok, transferUnder, emitEvent, run_lift_bind,
    run_bind_eq_ok (initiateOutboundTransfer _ _ _ _ _ _ _), run_modify_bind, run_pure_eq_ok,
    failIf_eq_ok, passOn_eq_ok, bne_eq_false_iff_eq, exists_const, Prod.mk.injEq] at h
  obtain ⟨-, config, hfound, hroute, sender, hsender, ⟨id, number⟩, r, htransfer, ⟨rfl, rfl⟩, rfl⟩ := h
  obtain ⟨w, hholds, rfl, rfl, rfl⟩ :=
    initiateOutboundTransfer_ok env keeper ctx config sender _ _ s r id number htransfer
  exact .burned req config sender _ w hfound hroute hsender hholds rfl

theorem deliver_accepted {s t : State Bank} {call : Call} {response : Response}
    (h : deliver env keeper s call = some (response, t)) :
    Accepted env keeper call.ctx s call.msg response t := by
  have hrun : (serve env keeper call.ctx call.msg).run s = .ok response t := by
    simpa only [deliver, kept_eq_some] using h
  obtain ⟨ctx, msg⟩ := call
  cases msg with
  | initializeRouteConfig req =>
    simp only [serve, run_bind_eq_ok, run_pure_eq_ok] at hrun
    obtain ⟨⟨⟩, _, hserve, rfl, rfl⟩ := hrun
    exact serveInitializeRouteConfig_ok hserve
  | emergencyPauseRoute req =>
    simp only [serve, run_bind_eq_ok, run_pure_eq_ok] at hrun
    obtain ⟨⟨⟩, _, hserve, rfl, rfl⟩ := hrun
    exact serveEmergencyPauseRoute_ok hserve
  | resumeRoute req =>
    simp only [serve, run_bind_eq_ok, run_pure_eq_ok] at hrun
    obtain ⟨⟨⟩, _, hserve, rfl, rfl⟩ := hrun
    exact serveResumeRoute_ok hserve
  | updateRouteConfig req =>
    simp only [serve, run_bind_eq_ok, run_pure_eq_ok] at hrun
    obtain ⟨⟨⟩, _, hserve, rfl, rfl⟩ := hrun
    exact serveUpdateRouteConfig_ok hserve
  | submitAttestation req =>
    simp only [serve, run_bind_eq_ok, run_pure_eq_ok] at hrun
    obtain ⟨id, _, hserve, rfl, rfl⟩ := hrun
    exact serveSubmitAttestation_ok hserve
  | initiateOutboundTransfer req =>
    simp only [serve, run_bind_eq_ok, run_pure_eq_ok] at hrun
    obtain ⟨⟨id, nonce⟩, _, hserve, rfl, rfl⟩ := hrun
    exact serveInitiateOutboundTransfer_ok hserve

end Accepted

section Run

variable {Bank : Type} {env : Env Bank} {keeper : Keeper} {ctx : Context} {s : State Bank}
variable {config : RouteConfig}

theorem deliver_submit {req : MsgSubmitAttestation} (hb : req.validateBasic env = .ok ())
    (hf : getRouteConfig env s.store = .ok (some config)) {id : String} {t : State Bank}
    (hk : kept ((submitUnder env keeper ctx req config).run s) = some (id, t)) :
    deliver env keeper s ⟨ctx, .submitAttestation req⟩ = some (.attestation id, t) := by
  rw [kept_eq_some] at hk
  simp only [deliver, serve, serveSubmitAttestation, EStateM.run_bind, withRouteConfig_run hb hf, hk]
  rfl

theorem deliver_outbound {req : MsgInitiateOutboundTransfer} (hb : req.validateBasic env = .ok ())
    (hf : getRouteConfig env s.store = .ok (some config)) {id : String} {nonce : UInt64} {t : State Bank}
    (hk : kept ((transferUnder env keeper ctx req config).run s) = some ((id, nonce), t)) :
    deliver env keeper s ⟨ctx, .initiateOutboundTransfer req⟩ = some (.outbound id nonce, t) := by
  rw [kept_eq_some] at hk
  simp only [deliver, serve, serveInitiateOutboundTransfer, EStateM.run_bind, withRouteConfig_run hb hf,
    hk]
  rfl

theorem deliver_update {req : MsgUpdateRouteConfig} (hb : req.validateBasic env = .ok ())
    (hf : getRouteConfig env s.store = .ok (some config)) {t : State Bank}
    (hk : kept ((updateUnder env ctx req config).run s) = some ((), t)) :
    deliver env keeper s ⟨ctx, .updateRouteConfig req⟩ = some (.done, t) := by
  rw [kept_eq_some] at hk
  simp only [deliver, serve, serveUpdateRouteConfig, EStateM.run_bind, withRouteConfig_run hb hf, hk]
  rfl

end Run

section Transfers

variable {Bank : Type} {env : Env Bank} {keeper : Keeper} {ctx : Context}

theorem Settling.Holds.after_nonneg {w : Settling Bank} {s : State Bank} {config : RouteConfig}
    {attestation : Attestation} (h : w.Holds env keeper s config attestation) :
    0 ≤ w.after.value := by
  have hbefore := outstanding_of_read env h.before_eq
  have hafter := h.after_eq
  have hpos := h.amount_pos
  omega

theorem Burning.Holds.after_nonneg {w : Burning Bank} {s : State Bank} {config : RouteConfig}
    {sender : AccAddress} {destination amountText : String}
    (h : w.Holds env keeper ctx s config sender destination amountText) : 0 ≤ w.after.value := by
  have hle := h.amount_le
  have hafter := h.after_eq
  omega

theorem route_settledStore (ctx : Context) {w : Settling Bank} {s : State Bank} {config : RouteConfig}
    {attestation : Attestation} (h : w.Holds env keeper s config attestation) (id : Hash) (written : Int) :
    route env (settledStore env ctx config id written w.after s.store) =
      { route env s.store with
        outstanding := w.after.value.toNat
        usage := Function.update (route env s.store).usage
          (usageIndex env config.routeID ctx.blockTime)
          (dailyUsage env ctx s.store config.routeID + written.toNat)
        settled := Function.update (route env s.store).settled id true } := by
  rw [settledStore, route_putOutstandingAmount env _ _ h.after_nonneg, route_markSettled,
    route_recordUsage]

theorem route_outboundStore {w : Burning Bank} {s : State Bank} {config : RouteConfig}
    {sender : AccAddress} {destination amountText : String}
    (h : w.Holds env keeper ctx s config sender destination amountText) :
    route env (outboundStore env ctx config w s.store) =
      { route env s.store with
        outstanding := w.after.value.toNat
        nonce := outboundNonce s.store + 1
        usage := Function.update (route env s.store).usage
          (usageIndex env config.routeID ctx.blockTime)
          (dailyUsage env ctx s.store config.routeID + w.written.toNat) } := by
  rw [outboundStore, route_putOutstandingAmount env _ _ h.after_nonneg, route_setNonce,
    route_recordUsage]

end Transfers

end PosChain.Bridge
