import PosChain.Admission.Keeper.Theorems

namespace PosChain.Admission

section Served

variable {World : Type} (env : Env World) (ctx : Context)

-- What an accepted message has checked, and the store it leaves behind.
inductive Served (store : KVStore) : AdmissionMsg → KVStore → Prop
  | already (req : MsgApproveValidator) (operator : ValAddress)
      (authorised : env.validateAuthority ctx (getAuthority store) req.authority = .ok ())
      (decoded : env.valAddressFromBech32 req.validatorAddress = .ok operator)
      (approved : isApprovedValidator store req.validatorAddress = true) :
      Served store (.approveValidator req) store
  | approved (req : MsgApproveValidator) (operator : ValAddress)
      (authorised : env.validateAuthority ctx (getAuthority store) req.authority = .ok ())
      (decoded : env.valAddressFromBech32 req.validatorAddress = .ok operator)
      (fresh : isApprovedValidator store req.validatorAddress = false)
      (room : approvedValidatorCount store < getMaxApprovedValidators store) :
      Served store (.approveValidator req) (setApprovedValidator req.validatorAddress true store)
  | revoked (req : MsgRevokeValidator) (operator : ValAddress)
      (authorised : env.validateAuthority ctx (getAuthority store) req.authority = .ok ())
      (decoded : env.valAddressFromBech32 req.validatorAddress = .ok operator) :
      Served store (.revokeValidator req) (setApprovedValidator req.validatorAddress false store)
  | updated (req : MsgUpdateParams)
      (authorised : env.validateAuthority ctx (getAuthority store) req.authority = .ok ())
      (policy : validatePolicy env req.maxApprovedValidators req.minimumSelfDelegation = .ok ())
      (room : approvedValidatorCount store ≤ req.maxApprovedValidators) :
      Served store (.updateParams req) (setMinimumSelfDelegation req.minimumSelfDelegation
        (setMaxApprovedValidators req.maxApprovedValidators store))

variable {env ctx}

theorem validateAuthority_eq_ok (store : KVStore) (authority : String) :
    validateAuthority env ctx store authority = .ok () ↔
      env.validateAuthority ctx (getAuthority store) authority = .ok () :=
  passOn_eq_ok _ _

theorem validateAuthorityAndValidator_ok {authority validatorAddress : String}
    (h : validateAuthorityAndValidator env authority validatorAddress = .ok ()) :
    ∃ operator, env.valAddressFromBech32 validatorAddress = .ok operator := by
  simp only [validateAuthorityAndValidator, Check.bind_eq_ok, annotate_eq_ok, passOn_eq_ok] at h
  obtain ⟨_, -, operator, hoperator, -⟩ := h
  exact ⟨operator, hoperator⟩

theorem withWorld_ok {α : Type} {action : Action World α} {s t : State World} {a : α}
    (h : (withWorld action).run s = .ok a t) :
    ∃ world, action.run s.world = .ok a world ∧ t = { s with world } :=
  (run_onPart_eq_ok _ _ action s t a).mp h

-- Jailing does not touch the module's own store, and nothing else touches the
-- other modules.
theorem jailRevoked_ok {operator : ValAddress} {s t : State World}
    (h : (jailRevoked env operator).run s = .ok () t) : t.store = s.store ∧
      (t.world = s.world ∨ ∃ address, (env.staking.jail address).run s.world = .ok () t.world) := by
  rw [jailRevoked, run_get_bind] at h
  split at h
  · rw [run_pure_eq_ok] at h
    rw [h.2]
    exact ⟨rfl, Or.inl rfl⟩
  · cases h
  · split at h
    · rw [run_pure_eq_ok] at h
      rw [h.2]
      exact ⟨rfl, Or.inl rfl⟩
    · rw [run_lift_bind] at h
      obtain ⟨address, -, hjail⟩ := h
      obtain ⟨world, hworld, rfl⟩ := withWorld_ok hjail
      exact ⟨rfl, Or.inr ⟨address, hworld⟩⟩

theorem approveValidator_ok {req : MsgApproveValidator} {s t : State World}
    (h : (approveValidator env ctx req).run s = .ok () t) :
    Served env ctx s.store (.approveValidator req) t.store := by
  rw [approveValidator, run_get_bind, run_lift_bind] at h
  obtain ⟨⟨⟩, hauthority, h⟩ := h
  rw [run_lift_bind] at h
  obtain ⟨⟨⟩, hbasic, h⟩ := h
  rw [validateAuthority_eq_ok] at hauthority
  obtain ⟨operator, hoperator⟩ := validateAuthorityAndValidator_ok hbasic
  split at h
  case isTrue happroved =>
    rw [run_pure_eq_ok] at h
    rw [← h.2]
    exact .already req operator hauthority hoperator happroved
  case isFalse hfresh =>
    simp only [run_lift_bind, failIf_eq_ok, exists_const, writeStore, run_modify_eq_ok,
      decide_eq_false_iff_not, ge_iff_le, UInt32.not_le] at h
    obtain ⟨hroom, rfl⟩ := h
    exact .approved req operator hauthority hoperator (by simpa using hfresh) hroom

theorem revokeValidator_ok {req : MsgRevokeValidator} {s t : State World}
    (h : (revokeValidator env ctx req).run s = .ok () t) :
    Served env ctx s.store (.revokeValidator req) t.store := by
  simp only [revokeValidator, run_get_bind, run_lift_bind, writeStore, run_modify_bind,
    passOn_eq_ok] at h
  obtain ⟨⟨⟩, hauthority, ⟨⟩, -, operator, hoperator, hjail⟩ := h
  rw [(jailRevoked_ok hjail).1]
  exact .revoked req operator ((validateAuthority_eq_ok _ _).mp hauthority) hoperator

theorem updateParams_ok {req : MsgUpdateParams} {s t : State World}
    (h : (updateParams env ctx req).run s = .ok () t) :
    Served env ctx s.store (.updateParams req) t.store := by
  simp only [updateParams, MsgUpdateParams.validateBasic, run_get_bind, run_lift_bind, writeStore,
    run_modify_bind, run_modify_eq_ok, Check.bind_eq_ok, failIf_eq_ok,
    exists_const, decide_eq_false_iff_not, UInt32.not_lt] at h
  obtain ⟨⟨⟩, hauthority, ⟨⟩, ⟨_, -, hpolicy⟩, hroom, rfl⟩ := h
  exact .updated req ((validateAuthority_eq_ok _ _).mp hauthority) hpolicy hroom

theorem serve_ok {msg : AdmissionMsg} {s t : State World}
    (h : (serve env ctx msg).run s = .ok () t) : Served env ctx s.store msg t.store := by
  cases msg with
  | approveValidator req => exact approveValidator_ok h
  | revokeValidator req => exact revokeValidator_ok h
  | updateParams req => exact updateParams_ok h

theorem serve_world {msg : AdmissionMsg} {s t : State World} (h : (serve env ctx msg).run s = .ok () t) :
    t.world = s.world ∨ ∃ address, (env.staking.jail address).run s.world = .ok () t.world := by
  cases msg with
  | approveValidator req =>
    simp only [serve, approveValidator, run_get_bind, run_lift_bind] at h
    obtain ⟨⟨⟩, -, ⟨⟩, -, h⟩ := h
    split at h
    · rw [run_pure_eq_ok] at h
      exact Or.inl (congrArg State.world h.2.symm)
    · simp only [run_lift_bind, writeStore, run_modify_eq_ok] at h
      obtain ⟨⟨⟩, -, rfl⟩ := h
      exact Or.inl rfl
  | revokeValidator req =>
    simp only [serve, revokeValidator, run_get_bind, run_lift_bind, writeStore, run_modify_bind] at h
    obtain ⟨⟨⟩, -, ⟨⟩, -, _, -, hjail⟩ := h
    exact (jailRevoked_ok hjail).2
  | updateParams req =>
    simp only [serve, updateParams, run_get_bind, run_lift_bind, writeStore, run_modify_bind,
      run_modify_eq_ok] at h
    obtain ⟨⟨⟩, -, ⟨⟩, -, ⟨⟩, -, rfl⟩ := h
    exact Or.inl rfl

theorem deliver_served {s t : State World} {call : Call} {answer : Unit}
    (h : deliver env s call = some (answer, t)) : Served env call.ctx s.store call.msg t.store := by
  rw [deliver, kept_eq_some] at h
  exact serve_ok h

end Served

section Approved

variable {World : Type} {env : Env World} {ctx : Context} {store next : KVStore} {msg : AdmissionMsg}

theorem Served.named (h : Served env ctx store msg next) (hn : Named store) : Named next := by
  cases h with
  | already req operator authorised decoded approved => exact hn
  | approved req operator authorised decoded fresh room => exact hn.set _
  | revoked req operator authorised decoded => exact hn.unset _
  | updated req authorised policy room => exact hn.policy _ _

theorem Served.kept (h : Served env ctx store msg next) {text : String}
    (hkeep : ∀ req, msg = .revokeValidator req → req.validatorAddress ≠ text)
    (hhas : store.has (approvedKey text) = true) : next.has (approvedKey text) = true := by
  cases h with
  | already req operator authorised decoded approved => exact hhas
  | approved req operator authorised decoded fresh room => exact (approved_set _ _ _).mpr (Or.inr hhas)
  | revoked req operator authorised decoded =>
    exact (approved_unset _ _ _).mpr ⟨hkeep req rfl, hhas⟩
  | updated req authorised policy room => rwa [approvedKey, has_policy]

theorem Served.origin (h : Served env ctx store msg next) {text : String}
    (hhas : next.has (approvedKey text) = true) :
    store.has (approvedKey text) = true ∨
      ∃ req, msg = .approveValidator req ∧ req.validatorAddress = text := by
  cases h with
  | already req operator authorised decoded approved => exact Or.inl hhas
  | approved req operator authorised decoded fresh room =>
    rcases (approved_set _ _ _).mp hhas with htext | hhas
    · exact Or.inr ⟨req, rfl, htext⟩
    · exact Or.inl hhas
  | revoked req operator authorised decoded => exact Or.inl ((approved_unset _ _ _).mp hhas).2
  | updated req authorised policy room =>
    rw [approvedKey, has_policy] at hhas
    exact Or.inl hhas

end Approved

end PosChain.Admission
