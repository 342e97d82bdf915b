import PosChain.Bridge.Replay

namespace PosChain.Bridge

open Run (run trace)

-- What the signers and the guardian sign for, by its identifier. Each kind has
-- a set of its own in the store.
inductive Authorisation where
  | attestation (id : Hash)
  | control (id : Hash)
  | pause (id : Hash)
  deriving DecidableEq

def Authorisation.key : Authorisation → Bytes
  | .attestation id => processedKey id
  | .control id => processedControlKey id
  | .pause id => processedPauseKey id

theorem Authorisation.key_injective : Function.Injective Authorisation.key := by
  intro left right h
  cases left with
  | attestation id =>
    cases right with
    | attestation other => rw [tagged_injective _ h]
    | control other => simp [key, processedKey, processedControlKey] at h
    | pause other => simp [key, processedKey, processedPauseKey] at h
  | control id =>
    cases right with
    | attestation other => simp [key, processedKey, processedControlKey] at h
    | control other => rw [tagged_injective _ h]
    | pause other => simp [key, processedControlKey, processedPauseKey] at h
  | pause id =>
    cases right with
    | attestation other => simp [key, processedKey, processedPauseKey] at h
    | control other => simp [key, processedControlKey, processedPauseKey] at h
    | pause other => rw [tagged_injective _ h]

section Authorisation

variable {Bank : Type} (env : Env Bank)

-- The identifier that a message is executed under. That of a resumption covers
-- the configuration that is stored at the time.
def authorisation (store : KVStore) : Msg → Option Authorisation
  | .submitAttestation req => (req.attestation.id env).toOption.map .attestation
  | .emergencyPauseRoute req => (req.action.id env).toOption.map .pause
  | .updateRouteConfig req =>
    ((req.action (Ethereum.hashHex (updatePayload env req.routeConfig))).id env).toOption.map .control
  | .resumeRoute req =>
    match getRouteConfig env store with
    | .ok (some config) =>
      ((req.action (Ethereum.hashHex (resumePayload env config))).id env).toOption.map .control
    | _ => none
  | .initializeRouteConfig _ => none
  | .initiateOutboundTransfer _ => none

def Msg.signed : Msg → Bool
  | .initializeRouteConfig _ => false
  | .initiateOutboundTransfer _ => false
  | _ => true

def executed (keeper : Keeper) (s : State Bank) (calls : List Call) : List Authorisation :=
  trace (deliver env keeper) (fun s call => authorisation env s.store call.msg) s calls

variable {env}

theorem has_putOutstandingAmount (amount : SdkInt) (store : KVStore) (a : Authorisation) :
    (putOutstandingAmount amount store).has a.key = store.has a.key := by
  have hne : keyOutstandingAmount ≠ a.key := by
    cases a <;> simp [Authorisation.key, keyOutstandingAmount, processedKey, processedControlKey,
      processedPauseKey]
  unfold putOutstandingAmount
  split <;> simp [hne]

theorem has_set_other (store : KVStore) {key : Bytes} (value : Bytes) (a : Authorisation)
    (h1 : key.head? ≠ some 0x01) (h4 : key.head? ≠ some 0x04) (h6 : key.head? ≠ some 0x06) :
    (store.set key value).has a.key = store.has a.key := by
  have hne : key ≠ a.key := by
    rintro rfl
    cases a with
    | attestation id => exact h1 rfl
    | control id => exact h4 rfl
    | pause id => exact h6 rfl
  simp [hne]

theorem has_mark (store : KVStore) (a other : Authorisation) :
    (store.set a.key [1]).has other.key = true ↔ store.has other.key = true ∨ a = other := by
  rw [KVStore.has_set, Bool.or_eq_true, decide_eq_true_eq, Authorisation.key_injective.eq_iff,
    or_comm]

-- An accepted signed message is executed under an identifier that has not been
-- used, and adds exactly that one to the three sets.
structure Marks (env : Env Bank) (store : KVStore) (msg : Msg) (next : KVStore) : Prop where
  some : msg.signed = true → (authorisation env store msg).isSome = true
  fresh : ∀ a, authorisation env store msg = .some a → store.has a.key = false
  exact : ∀ a, next.has a.key = true ↔ store.has a.key = true ∨ authorisation env store msg = .some a

theorem Marks.of_id {store before next : KVStore} {msg : Msg} {a : Authorisation}
    (ha : authorisation env store msg = .some a) (hfresh : store.has a.key = false)
    (hbefore : ∀ other : Authorisation, before.has other.key = store.has other.key)
    (hnext : ∀ other : Authorisation, next.has other.key = (before.set a.key [1]).has other.key) :
    Marks env store msg next where
  some _ := by
    rw [ha]
    rfl
  fresh other hother := by
    obtain rfl := Option.some.inj (ha.symm.trans hother)
    exact hfresh
  exact other := by
    rw [hnext, has_mark, hbefore, ha, Option.some.injEq]

theorem Marks.of_unsigned {store next : KVStore} {msg : Msg} (hsigned : msg.signed = false)
    (hnext : ∀ a : Authorisation, next.has a.key = store.has a.key) : Marks env store msg next := by
  have hnone : authorisation env store msg = none := by
    cases msg with
    | initializeRouteConfig req => rfl
    | initiateOutboundTransfer req => rfl
    | _ => cases hsigned
  exact ⟨by simp [hsigned], by simp [hnone], by simp [hnone, hnext]⟩

theorem Accepted.marks {keeper : Keeper} {ctx : Context} {s t : State Bank} {msg : Msg}
    {response : Response} (h : Accepted env keeper ctx s msg response t) :
    Marks env s.store msg t.store := by
  have hconfig (store : KVStore) (config : RouteConfig) (a : Authorisation) :
      (store.set routeConfigKey config.encode).has a.key = store.has a.key :=
    has_set_other _ _ a (by decide) (by decide) (by decide)
  have hstate (store : KVStore) (state : RouteState) (a : Authorisation) :
      (store.set routeStateKey state.encode).has a.key = store.has a.key :=
    has_set_other _ _ a (by decide) (by decide) (by decide)
  have husage (config : RouteConfig) (amount : Int) (a : Authorisation) :
      (recordUsage env ctx config amount s.store).has a.key = s.store.has a.key :=
    has_set_other _ _ a (by simp [dailyUsageKey]) (by simp [dailyUsageKey]) (by simp [dailyUsageKey])
  cases h with
  | initialized req authorised valid absent =>
    exact .of_unsigned rfl fun a => (hstate _ _ a).trans (hconfig _ _ a)
  | paused req config id found checked =>
    have ha : authorisation env s.store (.emergencyPauseRoute req) = some (.pause id) := by
      simp [authorisation, checked.id_eq, Except.toOption]
    exact .of_id ha checked.fresh (hstate s.store ⟨true⟩) fun _ => rfl
  | resumed req config id found checked suspended =>
    have ha : authorisation env s.store (.resumeRoute req) = some (.control id) := by
      simp [authorisation, found, checked.id_eq, Except.toOption]
    exact .of_id ha checked.fresh (hstate s.store ⟨false⟩) fun _ => rfl
  | updated req current id found checked valid route =>
    have ha : authorisation env s.store (.updateRouteConfig req) = some (.control id) := by
      simp [authorisation, checked.id_eq, Except.toOption]
    exact .of_id ha checked.fresh (hconfig s.store req.routeConfig) fun _ => rfl
  | settled req config id written w found inbound admitted holds =>
    have ha : authorisation env s.store (.submitAttestation req) = some (.attestation id) := by
      simp [authorisation, admitted.id_eq, Except.toOption]
    exact .of_id ha admitted.fresh (husage config written) (has_putOutstandingAmount w.after _)
  | burned req config sender id w found route sender_eq holds id_eq =>
    refine .of_unsigned rfl fun a => ?_
    rw [outboundStore, has_putOutstandingAmount,
      has_set_other _ _ a (by decide) (by decide) (by decide), husage]

end Authorisation

-- Along every run no authorisation takes effect twice, and each message adds what it is
-- executed under and nothing else.
theorem authorisations_executed_once {Bank : Type} (env : Env Bank) (keeper : Keeper)
    (s : State Bank) (calls : List Call) :
    (executed env keeper s calls).Nodup ∧
      (∀ a : Authorisation, s.store.has a.key = true →
        (run (deliver env keeper) s calls).store.has a.key = true) ∧
      ∀ call response t, deliver env keeper (run (deliver env keeper) s calls) call = some (response, t) →
        Marks env (run (deliver env keeper) s calls).store call.msg t.store := by
  refine ⟨?_, ?_, fun call response t h => (deliver_accepted h).marks⟩
  · refine (Run.trace_nodup _ (fun s a => s.store.has (Authorisation.key a) = true) ?_ ?_ s calls).1
    · intro s call response t a h ha
      exact ((deliver_accepted h).marks.exact a).mpr (Or.inl ha)
    · intro s call response t a h ha
      have hmarks := (deliver_accepted h).marks
      exact ⟨by simp [hmarks.fresh a ha], (hmarks.exact a).mpr (Or.inr ha)⟩
  · intro a ha
    refine Run.run_invariant (fun s : State Bank => s.store.has a.key = true) ?_ s calls ha
    intro s call response t h hs
    exact ((deliver_accepted h).marks.exact a).mpr (Or.inl hs)

end PosChain.Bridge
