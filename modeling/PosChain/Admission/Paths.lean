import PosChain.Admission.Application
import PosChain.Admission.MsgServer.Theorems

namespace PosChain.Admission

section Policy

variable {World : Type} (env : Env World) (store : KVStore)

def OperatorApproved (operator : ValAddress) : Prop :=
  ∃ text, store.has (approvedKey text) = true ∧ env.valAddressFromBech32 text = .ok operator

def MeetsMinimum (value : Coin) : Prop :=
  ∃ minimum, env.parseCoinNormalized (getMinimumSelfDelegation store) = .ok minimum ∧
    value.denom = minimum.denom ∧ minimum.amount.value ≤ value.amount.value

def Operation.validatorAddress : Operation → String
  | .createValidator validatorAddress _ => validatorAddress
  | .unjail validatorAddress => validatorAddress

def Operation.Admitted (operation : Operation) : Prop :=
  (∃ operator, env.valAddressFromBech32 operation.validatorAddress = .ok operator ∧
    OperatorApproved env store operator) ∧
  match operation with
  | .createValidator _ value => MeetsMinimum env store value
  | .unjail _ => True

end Policy

-- What an operation meets: the admission store and the bond denomination of the
-- staking module.
structure Moment where
  store : KVStore
  bondDenom : String

-- What a transaction does to admission, in order: operations, each with whether
-- it is a message at the top of the transaction, creations by the precompile in the
-- bond denomination, and changes of the two.
inductive Effect where
  | operation (checked : Bool) (operation : Operation)
  | creation (validatorAddress : String) (amount : SdkInt)
  | change (msg : AdmissionMsg)
  | bond (denom : String)

def AdmissionMsg.change (store : KVStore) : AdmissionMsg → KVStore
  | .approveValidator req =>
    if isApprovedValidator store req.validatorAddress then store
    else setApprovedValidator req.validatorAddress true store
  | .revokeValidator req => setApprovedValidator req.validatorAddress false store
  | .updateParams req => setMinimumSelfDelegation req.minimumSelfDelegation
      (setMaxApprovedValidators req.maxApprovedValidators store)

-- An approval takes nothing away from what the ante handler has seen.
def AdmissionMsg.isApproval : AdmissionMsg → Bool
  | .approveValidator _ => true
  | _ => false

namespace Effect

def performed (bondDenom : String) : Effect → Option Operation
  | .operation _ made => some made
  | .creation validatorAddress amount => some (.createValidator validatorAddress ⟨bondDenom, amount⟩)
  | _ => none

def next (moment : Moment) : Effect → Moment
  | .change msg => { moment with store := msg.change moment.store }
  | .bond denom => { moment with bondDenom := denom }
  | _ => moment

def isChecked : Effect → Bool
  | .operation checked _ => checked
  | _ => false

-- A revocation or an update of the policy comes after the check.
def keepsChecks : Effect → Bool
  | .change msg => msg.isApproval
  | _ => true

end Effect

section Effects

variable {World : Type} (app : Application World)

def callEffects : PrecompileCall → List Effect
  | .createValidator _ args =>
    match SdkInt.ofInt? args.value with
    | some amount => [.creation (app.valAddressText args.validatorAddress.bytes) amount]
    | none => []
  | .unjail _ validatorAddress =>
    match app.valAddressToText validatorAddress.bytes with
    | .ok text => [.operation false (.unjail text)]
    | .error _ => []
  | .other _ => []

mutual
def effects (checked : Bool) : Msg → List Effect
  | .createValidator msg => [.operation checked (.createValidator msg.validatorAddress msg.value)]
  | .unjail msg => [.operation checked (.unjail msg.validatorAddr)]
  | .admission msg => [.change msg]
  | .stakingUpdateParams bondDenom _ => [.bond bondDenom]
  | .exec _ msgs => nestedEffects msgs
  | .ethereumTx calls => calls.flatMap (callEffects app)
  | .other _ _ calls => calls.flatMap (callEffects app)
  | _ => []

def nestedEffects : List Msg → List Effect
  | [] => []
  | msg :: rest => effects false msg ++ nestedEffects rest
end

def txEffects (msgs : List Msg) : List Effect :=
  msgs.flatMap (effects app true)

end Effects

-- The operations of a list of effects, each in the store that it meets.
def replay (moment : Moment) : List Effect → List Execution
  | [] => []
  | effect :: rest =>
    ((effect.performed moment.bondDenom).map (⟨·, moment.store⟩)).toList ++ replay (effect.next moment) rest

-- The operations that the ante handler does not check against the store they
-- meet are admitted all the same: those below a MsgExec, those of precompiles,
-- and those after a revocation or an update of the policy.
def UncheckedAdmitted {World : Type} (env : Env World) : Bool → Moment → List Effect → Prop
  | _, _, [] => True
  | fresh, moment, effect :: rest =>
    (∀ operation, effect.performed moment.bondDenom = some operation →
      fresh = true ∧ effect.isChecked = true ∨ operation.Admitted env moment.store) ∧
      UncheckedAdmitted env (fresh && effect.keepsChecks) (effect.next moment) rest

theorem replay_append (moment : Moment) (first later : List Effect) :
    replay moment (first ++ later) = replay moment first ++ replay (first.foldl Effect.next moment) later := by
  induction first generalizing moment with
  | nil => rfl
  | cons effect rest ih =>
    rw [List.cons_append, replay, ih, replay, List.append_assoc, List.foldl_cons]

section Checked

variable {World : Type} {env : Env World}

theorem Served.change_eq {ctx : Context} {store next : KVStore} {msg : AdmissionMsg}
    (h : Served env ctx store msg next) : next = msg.change store := by
  cases h with
  | already req operator authorised decoded approved => simp [AdmissionMsg.change, approved]
  | approved req operator authorised decoded fresh room => simp [AdmissionMsg.change, fresh]
  | revoked req operator authorised decoded => rfl
  | updated req authorised policy room => rfl

structure Extends (old new : KVStore) : Prop where
  approved : ∀ text, old.has (approvedKey text) = true → new.has (approvedKey text) = true
  minimum : getMinimumSelfDelegation new = getMinimumSelfDelegation old

theorem Extends.approval {old new : KVStore} (h : Extends old new) (msg : AdmissionMsg)
    (ha : msg.isApproval = true) : Extends old (msg.change new) := by
  cases msg with
  | approveValidator req =>
    simp only [AdmissionMsg.change]
    split
    · exact h
    · refine ⟨?_, ?_⟩
      · intro text htext
        simp [setApprovedValidator, h.approved text htext]
      · rw [← h.minimum]
        simp [getMinimumSelfDelegation, setApprovedValidator, approvedKey, keyMinimumSelfDelegation]
  | revokeValidator req => cases ha
  | updateParams req => cases ha

-- What the ante handler has established for a checked operation.
def Operation.Passed (env : Env World) (store : KVStore) (operation : Operation) : Prop :=
  isApprovedValidator store operation.validatorAddress = true ∧
  match operation with
  | .createValidator _ value => MeetsMinimum env store value
  | .unjail _ => True

theorem Operation.Passed.admitted {old new : KVStore} {operation : Operation}
    (htrim : ∀ text operator, env.valAddressFromBech32 text = .ok operator → Text.trimSpace text = text)
    (h : operation.Passed env old) (hn : Extends old new)
    (hd : ∃ operator, env.valAddressFromBech32 operation.validatorAddress = .ok operator) :
    operation.Admitted env new := by
  obtain ⟨operator, hoperator⟩ := hd
  refine ⟨⟨operator, hoperator, operation.validatorAddress, ?_, hoperator⟩, ?_⟩
  · apply hn.approved
    have happroved := h.1
    rwa [isApprovedValidator, htrim _ _ hoperator] at happroved
  · cases operation with
    | createValidator text value =>
      obtain ⟨minimum, hminimum, hvalue⟩ := h.2
      exact ⟨minimum, by rw [hn.minimum]; exact hminimum, hvalue⟩
    | unjail text => trivial

theorem Extends.next {old : KVStore} {moment : Moment} (h : Extends old moment.store) (effect : Effect)
    (hkeeps : effect.keepsChecks = true) : Extends old (effect.next moment).store := by
  cases effect with
  | change msg => exact h.approval msg hkeeps
  | _ => exact h

-- Along the effects of a transaction, checked operations stay admitted as long
-- as the store has only been extended.
theorem replay_admitted_iff (start : KVStore)
    (htrim : ∀ text operator, env.valAddressFromBech32 text = .ok operator → Text.trimSpace text = text)
    (list : List Effect) (fresh : Bool) (moment : Moment) (hfresh : fresh = true → Extends start moment.store)
    (hchecked : ∀ operation, .operation true operation ∈ list → operation.Passed env start)
    (hdecoded : ∀ e ∈ replay moment list, ∃ operator,
      env.valAddressFromBech32 e.operation.validatorAddress = .ok operator) :
    (∀ e ∈ replay moment list, e.operation.Admitted env e.store) ↔
      UncheckedAdmitted env fresh moment list := by
  induction list generalizing fresh moment with
  | nil => simp [replay, UncheckedAdmitted]
  | cons effect rest ih =>
    simp only [replay, List.mem_append, or_imp, forall_and, Option.mem_toList,
      Option.map_eq_some_iff, forall_exists_index, and_imp, forall_apply_eq_imp_iff₂] at hdecoded ⊢
    rw [UncheckedAdmitted, ih _ _ (fun hf => ?_) (fun operation hmem => ?_) hdecoded.2]
    · refine and_congr_left fun _ => forall₂_congr fun operation hperformed => ?_
      constructor
      · exact Or.inr
      · rintro (⟨hf, hmark⟩ | h)
        · have hpassed : operation.Passed env start := by
            cases effect with
            | operation checked other =>
              obtain rfl := Option.some.inj hperformed
              obtain rfl : checked = true := hmark
              exact hchecked other List.mem_cons_self
            | creation | change | bond => cases hmark
          exact hpassed.admitted htrim (hfresh hf) (hdecoded.1 operation hperformed)
        · exact h
    · rw [Bool.and_eq_true] at hf
      exact (hfresh hf.1).next effect hf.2
    · exact hchecked operation (List.mem_cons_of_mem _ hmem)

end Checked

-- The staking module changes its bond denomination where its parameters are
-- updated, and nowhere else.
section Denomination

variable {World : Type} (app : Application World)

def Keeps (action : Action World Unit) : Prop :=
  ∀ world next, action.run world = .ok () next → app.bondDenom next = app.bondDenom world

def Msg.newBondDenom : Msg → Option String
  | .stakingUpdateParams bondDenom _ => some bondDenom
  | _ => none

structure KeepsDenom : Prop where
  cosmosDecorators : ∀ tx, Keeps app (app.cosmosDecorators tx)
  evmDecorators : ∀ tx, Keeps app (app.evmDecorators tx)
  authorize : ∀ grantee msg, Keeps app (app.authorize grantee msg)
  createValidator : ∀ msg, Keeps app (app.createValidator msg)
  unjail : ∀ msg, Keeps app (app.unjail msg)
  jail : ∀ address, Keeps app (app.env.staking.jail address)
  runOther : ∀ input, Keeps app (app.runOther input)
  serveOther : ∀ msg world next, (app.serveOther msg).run world = .ok () next →
    app.bondDenom next = (msg.newBondDenom.map .ok).getD (app.bondDenom world)

def moment (s : State World) : Moment where
  store := s.store
  bondDenom := (app.bondDenom s.world).toOption.getD ""

variable {app}

theorem moment_congr {s t : State World} (hstore : t.store = s.store)
    (hdenom : app.bondDenom t.world = app.bondDenom s.world) : moment app t = moment app s := by
  rw [moment, hstore, hdenom, moment]

theorem moment_withWorld {action : Action World Unit} {s t : State World} (hkeeps : Keeps app action)
    (h : (withWorld action).run s = .ok () t) : moment app t = moment app s := by
  obtain ⟨world, hworld, rfl⟩ := withWorld_ok h
  exact moment_congr rfl (hkeeps _ _ hworld)

end Denomination

section Runs

variable {World : Type} (app : Application World)

structure Runs (s t : State World) (log : List Execution) (list : List Effect) : Prop where
  log_eq : log = replay (moment app s) list
  moment_eq : moment app t = list.foldl Effect.next (moment app s)
  decoded : ∀ e ∈ log, ∃ operator,
    app.env.valAddressFromBech32 e.operation.validatorAddress = .ok operator

variable {app}

theorem Runs.of_moment {s t : State World} (h : moment app t = moment app s) : Runs app s t [] [] :=
  ⟨rfl, h, by simp⟩

theorem Runs.append {s r t : State World} {first later : List Execution} {list list' : List Effect}
    (hf : Runs app s r first list) (hl : Runs app r t later list') :
    Runs app s t (first ++ later) (list ++ list') := by
  refine ⟨?_, ?_, ?_⟩
  · rw [replay_append, ← hf.moment_eq, ← hf.log_eq, ← hl.log_eq]
  · rw [List.foldl_append, ← hf.moment_eq, hl.moment_eq]
  · intro e he
    rcases List.mem_append.mp he with he | he
    · exact hf.decoded e he
    · exact hl.decoded e he

theorem Runs.single {s t : State World} {operation : Operation} {effect : Effect}
    (hperformed : effect.performed (moment app s).bondDenom = some operation) (h : moment app t = moment app s)
    (hd : ∃ operator, app.env.valAddressFromBech32 operation.validatorAddress = .ok operator) :
    Runs app s t [⟨operation, s.store⟩] [effect] := by
  refine ⟨?_, ?_, by simpa using hd⟩
  · rw [replay, hperformed]
    rfl
  · cases effect with
    | operation | creation => exact h
    | change | bond => cases hperformed

theorem callCreateValidator_runs (hk : KeepsDenom app) {msg : MsgCreateValidator} {s t : State World}
    {log : List Execution} (h : (callCreateValidator app msg).run s = .ok log t) {effect : Effect}
    (hperformed : effect.performed (moment app s).bondDenom =
      some (.createValidator msg.validatorAddress msg.value)) : Runs app s t log [effect] := by
  simp only [callCreateValidator, run_get_bind, run_lift_bind, passOn_eq_ok,
    run_bind_eq_ok (withWorld _), run_pure_eq_ok] at h
  obtain ⟨operator, hoperator, ⟨⟩, r, hcall, rfl, rfl⟩ := h
  exact Runs.single hperformed (moment_withWorld (hk.createValidator msg) hcall) ⟨operator, hoperator⟩

theorem callUnjail_runs (hk : KeepsDenom app) {msg : MsgUnjail} {s t : State World} {log : List Execution}
    (h : (callUnjail app msg).run s = .ok log t) (checked : Bool) :
    Runs app s t log [.operation checked (.unjail msg.validatorAddr)] := by
  simp only [callUnjail, run_get_bind, run_lift_bind, passOn_eq_ok, run_bind_eq_ok (withWorld _),
    run_pure_eq_ok] at h
  obtain ⟨operator, hoperator, ⟨⟩, r, hcall, rfl, rfl⟩ := h
  exact Runs.single rfl (moment_withWorld (hk.unjail msg) hcall) ⟨operator, hoperator⟩

theorem newMsgCreateValidator_ok {args : CreateValidatorArgs} {denom : String}
    {msg : MsgCreateValidator} (h : newMsgCreateValidator app args denom = .ok msg) :
    msg.validatorAddress = app.valAddressText args.validatorAddress.bytes ∧
      msg.value.denom = denom ∧ SdkInt.ofInt? args.value = some msg.value.amount := by
  simp only [newMsgCreateValidator, Check.bind_eq_ok, failIf_eq_ok, exists_const, Check.pure_eq_ok,
    SdkInt.newIntFromBigInt_eq_ok] at h
  obtain ⟨-, _, -, -, _, -, _, -, amount, hamount, rfl⟩ := h
  exact ⟨rfl, rfl, (SdkInt.ofInt?_eq_some _ _).mpr hamount⟩

theorem runPrecompile_runs (hk : KeepsDenom app) (call : PrecompileCall) (s t : State World)
    (log : List Execution) (h : (runPrecompile app call).run s = .ok log t) :
    Runs app s t log (callEffects app call) := by
  cases call with
  | createValidator caller args =>
    simp only [runPrecompile, run_get_bind, run_lift_bind, passOn_eq_ok, failIf_eq_ok,
      exists_const] at h
    obtain ⟨denom, hdenom, msg, hmsg, -, -, hcall⟩ := h
    obtain ⟨haddress, hvalue, hamount⟩ := newMsgCreateValidator_ok hmsg
    have hmoment : (moment app s).bondDenom = denom := by
      rw [moment, hdenom]
      rfl
    rw [callEffects, hamount]
    refine callCreateValidator_runs hk hcall ?_
    rw [Effect.performed, hmoment, haddress, ← hvalue]
  | unjail caller validatorAddress =>
    simp only [runPrecompile, run_lift_bind, passOn_eq_ok, mapError_eq_ok, failIf_eq_ok,
      exists_const] at h
    obtain ⟨-, text, htext, hcall⟩ := h
    rw [callEffects, htext]
    exact callUnjail_runs hk hcall false
  | other input =>
    simp only [runPrecompile, run_bind_eq_ok (withWorld _), run_pure_eq_ok] at h
    obtain ⟨⟨⟩, r, hcall, rfl, rfl⟩ := h
    exact Runs.of_moment (moment_withWorld (hk.runOther input) hcall)

theorem runPrecompiles_runs (hk : KeepsDenom app) (calls : List PrecompileCall) (s t : State World)
    (log : List Execution) (h : (runPrecompiles app calls).run s = .ok log t) :
    Runs app s t log (calls.flatMap (callEffects app)) := by
  induction calls generalizing s log with
  | nil =>
    simp only [runPrecompiles, run_pure_eq_ok] at h
    obtain ⟨rfl, rfl⟩ := h
    exact Runs.of_moment rfl
  | cons call rest ih =>
    simp only [runPrecompiles, run_bind_eq_ok (runPrecompile _ _),
      run_bind_eq_ok (runPrecompiles _ _), run_pure_eq_ok] at h
    obtain ⟨first, r, hfirst, later, t', hlater, rfl, rfl⟩ := h
    exact (runPrecompile_runs hk call s r first hfirst).append (ih r later hlater)

theorem serve_runs (hk : KeepsDenom app) {ctx : Context} {msg : AdmissionMsg} {s t : State World}
    (h : (serve app.env ctx msg).run s = .ok () t) : Runs app s t [] [.change msg] := by
  have hdenom : app.bondDenom t.world = app.bondDenom s.world := by
    rcases serve_world h with hworld | ⟨address, hjail⟩
    · rw [hworld]
    · exact hk.jail address _ _ hjail
  refine ⟨rfl, ?_, by simp⟩
  rw [moment, (serve_ok h).change_eq, hdenom]
  rfl

theorem serveOther_runs (hk : KeepsDenom app) {msg : Msg} {s t : State World}
    (h : (withWorld (app.serveOther msg)).run s = .ok () t) :
    Runs app s t [] (msg.newBondDenom.map Effect.bond).toList := by
  obtain ⟨world, hworld, rfl⟩ := withWorld_ok h
  have hdenom := hk.serveOther msg _ _ hworld
  cases hnew : msg.newBondDenom with
  | none =>
    rw [hnew] at hdenom
    exact Runs.of_moment (moment_congr rfl hdenom)
  | some denom =>
    rw [hnew] at hdenom
    refine ⟨rfl, ?_, by simp⟩
    rw [moment, hdenom]
    rfl

theorem serveOther_pure_runs (hk : KeepsDenom app) {msg : Msg} {s t : State World} {log : List Execution}
    (h : (do withWorld (app.serveOther msg); return []).run s = .ok log t) :
    Runs app s t log (msg.newBondDenom.map Effect.bond).toList := by
  simp only [run_bind_eq_ok (withWorld _), run_pure_eq_ok] at h
  obtain ⟨⟨⟩, r, hcall, rfl, rfl⟩ := h
  exact serveOther_runs hk hcall

mutual
theorem runMsg_runs (hk : KeepsDenom app) (ctx : Context) (msg : Msg) (checked : Bool)
    (s t : State World) (log : List Execution) (h : (runMsg app ctx msg).run s = .ok log t) :
    Runs app s t log (effects app checked msg) := by
  cases msg with
  | createValidator msg => exact callCreateValidator_runs hk h rfl
  | unjail msg => exact callUnjail_runs hk h checked
  | admission msg =>
    simp only [runMsg, run_bind_eq_ok (serve _ _ _), run_pure_eq_ok] at h
    obtain ⟨⟨⟩, r, hserve, rfl, rfl⟩ := h
    exact serve_runs hk hserve
  | exec grantee msgs => exact dispatchActions_runs hk ctx grantee msgs s t log (by simpa [runMsg] using h)
  | ethereumTx calls => exact runPrecompiles_runs hk calls s t log h
  | other typeURL value calls =>
    simp only [runMsg, run_bind_eq_ok (withWorld _)] at h
    obtain ⟨⟨⟩, r, hcall, hcalls⟩ := h
    exact (serveOther_runs hk hcall).append (runPrecompiles_runs hk calls _ _ _ hcalls)
  | mintUpdateParams | stakingUpdateParams | submitProposal | grant => exact serveOther_pure_runs hk h

theorem dispatchActions_runs (hk : KeepsDenom app) (ctx : Context) (grantee : String) (msgs : List Msg)
    (s t : State World) (log : List Execution) (h : (dispatchActions app ctx grantee msgs).run s = .ok log t) :
    Runs app s t log (nestedEffects app msgs) := by
  cases msgs with
  | nil =>
    simp only [dispatchActions, run_pure_eq_ok] at h
    obtain ⟨rfl, rfl⟩ := h
    exact Runs.of_moment rfl
  | cons msg rest =>
    simp only [dispatchActions, run_bind_eq_ok (withWorld _), run_bind_eq_ok (runMsg _ _ _),
      run_bind_eq_ok (dispatchActions _ _ _ _), run_pure_eq_ok] at h
    obtain ⟨⟨⟩, r, hcall, first, r', hfirst, later, t', hlater, rfl, rfl⟩ := h
    have hauthorized := Runs.of_moment (moment_withWorld (hk.authorize grantee msg) hcall)
    exact (hauthorized.append (runMsg_runs hk ctx msg false _ _ _ hfirst)).append
      (dispatchActions_runs hk ctx grantee rest _ _ _ hlater)
end

theorem runMsgs_runs (hk : KeepsDenom app) (ctx : Context) (msgs : List Msg) (s t : State World)
    (log : List Execution) (h : (runMsgs app ctx msgs).run s = .ok log t) :
    Runs app s t log (txEffects app msgs) := by
  induction msgs generalizing s log with
  | nil =>
    simp only [runMsgs, run_pure_eq_ok] at h
    obtain ⟨rfl, rfl⟩ := h
    exact Runs.of_moment rfl
  | cons msg rest ih =>
    simp only [runMsgs, run_bind_eq_ok (runMsg _ _ _), run_bind_eq_ok (runMsgs _ _ _),
      run_pure_eq_ok] at h
    obtain ⟨first, r, hfirst, later, t', hlater, rfl, rfl⟩ := h
    exact (runMsg_runs hk ctx msg true _ _ _ hfirst).append (ih _ _ hlater)

end Runs

section Ante

variable {World : Type} {app : Application World}

theorem callEffects_unchecked (calls : List PrecompileCall) (operation : Operation) :
    .operation true operation ∉ calls.flatMap (callEffects app) := by
  rw [List.mem_flatMap]
  rintro ⟨call, -, hcall⟩
  revert hcall
  cases call with
  | createValidator caller args => cases h : SdkInt.ofInt? args.value <;> simp [callEffects, h]
  | unjail caller validatorAddress =>
    cases h : app.valAddressToText validatorAddress.bytes <;> simp [callEffects, h]
  | other input => simp [callEffects]

-- Nothing below a MsgExec counts as checked.
mutual
theorem effects_unchecked (msg : Msg) (operation : Operation) :
    .operation true operation ∉ effects app false msg := by
  cases msg with
  | exec grantee msgs =>
    rw [effects]
    exact nestedEffects_unchecked msgs operation
  | ethereumTx calls => exact callEffects_unchecked calls operation
  | other typeURL value calls => exact callEffects_unchecked calls operation
  | createValidator | unjail | admission | mintUpdateParams | stakingUpdateParams | submitProposal | grant =>
    simp [effects]

theorem nestedEffects_unchecked (msgs : List Msg) (operation : Operation) :
    .operation true operation ∉ nestedEffects app msgs := by
  cases msgs with
  | nil => simp [nestedEffects]
  | cons msg rest =>
    rw [nestedEffects, List.mem_append]
    rintro (h | h)
    · exact effects_unchecked msg operation h
    · exact nestedEffects_unchecked rest operation h
end

theorem admissionCheck_passed {store : KVStore} {msg : Msg}
    (h : admissionCheck app store msg = .ok ()) {operation : Operation}
    (hm : .operation true operation ∈ effects app true msg) :
    operation.Passed app.env store := by
  cases msg with
  | createValidator msg =>
    obtain rfl : operation = .createValidator msg.validatorAddress msg.value := by
      simpa [effects] using hm
    simp only [admissionCheck, Check.bind_eq_ok, failIf_eq_ok, exists_const, passOn_eq_ok,
      mapError_eq_ok, Bool.not_eq_false', Bool.or_eq_false_iff, bne_eq_false_iff_eq, SdkInt.lt,
      decide_eq_false_iff_not, not_lt] at h
    obtain ⟨happroved, minimum, hminimum, hdenom, hamount⟩ := h
    exact ⟨happroved, minimum, hminimum, hdenom, hamount⟩
  | unjail msg =>
    obtain rfl : operation = .unjail msg.validatorAddr := by simpa [effects] using hm
    simp only [admissionCheck, failIf_eq_ok, Bool.not_eq_false'] at h
    exact ⟨h, trivial⟩
  | exec grantee msgs =>
    rw [effects] at hm
    exact absurd hm (nestedEffects_unchecked msgs operation)
  | ethereumTx calls => exact absurd hm (callEffects_unchecked calls operation)
  | other typeURL value calls => exact absurd hm (callEffects_unchecked calls operation)
  | admission | mintUpdateParams | stakingUpdateParams | submitProposal | grant => simp [effects] at hm

theorem admissionAnte_passed {store : KVStore} {msgs : List Msg}
    (h : admissionAnte app store msgs = .ok ()) {operation : Operation}
    (hm : .operation true operation ∈ txEffects app msgs) :
    operation.Passed app.env store := by
  induction msgs with
  | nil => simp [txEffects] at hm
  | cons msg rest ih =>
    simp only [admissionAnte, Check.bind_eq_ok] at h
    obtain ⟨⟨⟩, hmsg, hrest⟩ := h
    rw [txEffects, List.flatMap_cons, List.mem_append] at hm
    rcases hm with hm | hm
    · exact admissionCheck_passed hmsg hm
    · exact ih hrest hm

theorem anteHandler_ok (hk : KeepsDenom app) {tx : Tx} {s t : State World}
    (h : (anteHandler app tx).run s = .ok () t) :
    admissionAnte app s.store tx.msgs = .ok () ∧ moment app t = moment app s := by
  rw [anteHandler, run_get_bind, run_lift_bind] at h
  obtain ⟨⟨⟩, hchecked, hbase⟩ := h
  refine ⟨hchecked, ?_⟩
  have hcosmos (hrun : (cosmosAnte app tx).run s = .ok () t) : moment app t = moment app s := by
    simp only [cosmosAnte, run_lift_bind] at hrun
    obtain ⟨⟨⟩, -, ⟨⟩, -, hworld⟩ := hrun
    exact moment_withWorld (hk.cosmosDecorators tx) hworld
  split at hbase
  · simp only [evmAnte, run_lift_bind] at hbase
    obtain ⟨⟨⟩, -, ⟨⟩, -, hworld⟩ := hbase
    exact moment_withWorld (hk.evmDecorators tx) hworld
  · exact hcosmos hbase
  · cases hbase
  · exact hcosmos hbase

theorem deliverTx_runs (hk : KeepsDenom app) {tx : Tx} {s t : State World} {log : List Execution}
    (h : deliverTx app s tx = some (log, t)) :
    admissionAnte app s.store tx.msgs = .ok () ∧ Runs app s t log (txEffects app tx.msgs) := by
  rw [deliverTx, kept_eq_some, run_bind_eq_ok] at h
  obtain ⟨⟨⟩, r, hante, hmsgs⟩ := h
  obtain ⟨hchecked, hmoment⟩ := anteHandler_ok hk hante
  exact ⟨hchecked, (Runs.of_moment hmoment).append (runMsgs_runs hk tx.ctx tx.msgs r t log hmsgs)⟩

end Ante

-- For every accepted transaction, all operations that were carried out are
-- admitted exactly when those are that the ante handler does not check.
theorem executed_admitted_iff {World : Type} (app : Application World)
    (htrim : ∀ text operator, app.env.valAddressFromBech32 text = .ok operator →
      Text.trimSpace text = text)
    (hk : KeepsDenom app) (s t : State World) (tx : Tx) (log : List Execution)
    (h : deliverTx app s tx = some (log, t)) :
    (∀ e ∈ log, e.operation.Admitted app.env e.store) ↔
      UncheckedAdmitted app.env true (moment app s) (txEffects app tx.msgs) := by
  obtain ⟨hante, hruns⟩ := deliverTx_runs hk h
  rw [hruns.log_eq]
  apply replay_admitted_iff s.store htrim
  · intro _
    exact ⟨fun _ h => h, rfl⟩
  · intro operation hm
    exact admissionAnte_passed hante hm
  · rw [← hruns.log_eq]
    exact hruns.decoded

-- Two operators with their address texts, and a staking module that knows its
-- validators. An inner message needs no grant when its signer is the grantee.
def firstOperator : ValAddress :=
  List.replicate 20 21

def secondOperator : ValAddress :=
  (Ethereum.hexToAddress "0xe1ab8145f7e55dc933d51a18c793f901a3a0b276").bytes

-- Bech32 texts are written in one case throughout; both cases decode.
def firstText : String :=
  "xtcvaloper1z52329g4z52329g4z52329g4z52329g4dn27e4"

def firstTextUpper : String :=
  "XTCVALOPER1Z52329G4Z52329G4Z52329G4Z52329G4DN27E4"

def secondText : String :=
  "xtcvaloper1ux4cz30hu4wujv74rgvv0yleqx36pvnknkzffm"

def authorityText : String :=
  "xtc1qurswpc8qurswpc8qurswpc8qurswpc8cda56t"

def secondAccount : String :=
  "xtc1ux4cz30hu4wujv74rgvv0yleqx36pvnk9jym5p"

def decodeText (table : List (String × Bytes)) (text : String) : Except String Bytes :=
  match table.lookup text with
  | some bytes => .ok bytes
  | none => .error "decoding bech32 failed"

def encodeText (table : List (String × Bytes)) (bytes : Bytes) : String :=
  ((table.find? fun entry => entry.2 == bytes).map Prod.fst).getD ""

def validatorTexts : List (String × Bytes) :=
  [(firstText, firstOperator), (firstTextUpper, firstOperator), (secondText, secondOperator)]

def accountTexts : List (String × Bytes) :=
  [(authorityText, List.replicate 20 7), (secondAccount, secondOperator)]

structure Validators where
  known : List ValAddress
  jailed : List ValAddress
  deriving DecidableEq

def sampleEnv : Env Validators where
  accAddressFromBech32 := decodeText accountTexts
  valAddressFromBech32 := decodeText validatorTexts
  parseCoinNormalized text :=
    if text = defaultMinimumSelfDelegation then .ok ⟨"axtc", ⟨5000000000000000000000000, by decide⟩⟩
    else .error "invalid decimal coin expression"
  validateAuthority _ expected given :=
    if expected = given then .ok () else .error "invalid authority"
  staking :=
    { getValidator := fun world operator =>
        if world.known.contains operator then .ok ⟨world.jailed.contains operator, .ok operator⟩
        else .error .noValidatorFound
      jail := fun operator => modify fun world => { world with jailed := operator :: world.jailed } }

def sampleApplication : Application Validators where
  env := sampleEnv
  allowGovernance := false
  addressText address := "0x" ++ Bytes.hexEncode address.bytes
  accAddressToText bytes := .ok (encodeText accountTexts bytes)
  valAddressToText bytes := .ok (encodeText validatorTexts bytes)
  valAddressText := encodeText validatorTexts
  createValidator msg := do
    let operator ← passOn (decodeText validatorTexts msg.validatorAddress)
    failIf ((← get).known.contains operator) "validator already exist for this operator address"
    failIf (msg.value.denom != "axtc") "invalid coin denomination"
    modify fun world => { world with known := operator :: world.known }
  unjail msg := do
    let operator ← passOn (decodeText validatorTexts msg.validatorAddr)
    failIf (!(← get).jailed.contains operator) "validator not jailed; cannot be unjailed"
    modify fun world => { world with jailed := world.jailed.erase operator }
  bondDenom _ := .ok "axtc"
  getCode _ _ := []
  authorize grantee msg :=
    match msg with
    | .createValidator inner => do
      let granter ← passOn (decodeText validatorTexts inner.validatorAddress)
      let account ← passOn (decodeText accountTexts grantee)
      failIf (granter != account) "authorization not found"
    | _ => throw (.error "authorization not found")
  serveOther msg :=
    match msg with
    | .stakingUpdateParams _ _ => throw (.error "invalid authority")
    | _ => pure ()
  runOther _ := pure ()
  cosmosDecorators _ := pure ()
  evmDecorators _ := pure ()

-- The chain with one approved operator, and a new validator of either operator.
def sampleGenesis : GenesisState :=
  ⟨authorityText, [firstText], 258, defaultMinimumSelfDelegation⟩

def sampleState : State Validators :=
  ⟨initGenesis sampleGenesis KVStore.empty, ⟨[], []⟩⟩

def newValidator (text account : String) : MsgCreateValidator where
  description := ⟨"node", "", "", "", ""⟩
  commission := ⟨100000000000000000, 200000000000000000, 10000000000000000⟩
  minSelfDelegation := ⟨1, by decide⟩
  delegatorAddress := account
  validatorAddress := text
  pubkey := List.replicate 32 3
  value := ⟨"axtc", ⟨5000000000000000000000000, by decide⟩⟩

-- A token whose code calls the staking precompile for the first operator while it is
-- converted.
def convertTx : Tx :=
  ⟨⟨""⟩, none, [.other "/cosmos.evm.erc20.v1.MsgConvertERC20" []
    [.createValidator (Ethereum.bytesToAddress firstOperator)
      { description := ⟨"node", "", "", "", ""⟩
        commission := ⟨100000000000000000, 200000000000000000, 10000000000000000⟩
        minSelfDelegation := 1
        validatorAddress := Ethereum.bytesToAddress firstOperator
        pubkey := "AwMDAwMDAwMDAwMDAwMDAwMDAwMDAwMDAwMDAwMDAwM="
        value := 5000000000000000000000000 }]]⟩

def nestedTx : Tx :=
  ⟨⟨""⟩, none, [.exec secondAccount [.createValidator (newValidator secondText secondAccount)]]⟩

theorem decodeText_mem {table : List (String × Bytes)} {text : String} {bytes : Bytes}
    (h : decodeText table text = .ok bytes) : (text, bytes) ∈ table := by
  rw [decodeText] at h
  split at h
  case h_1 found hfound =>
    obtain rfl : found = bytes := by simpa using h
    obtain ⟨before, after, rfl, -⟩ := List.lookup_eq_some_iff.mp hfound
    simp
  case h_2 => cases h

theorem sample_texts_trimmed (text : String) (operator : ValAddress)
    (h : sampleApplication.env.valAddressFromBech32 text = .ok operator) :
    Text.trimSpace text = text := by
  have hmem := decodeText_mem h
  simp only [validatorTexts, List.mem_cons, Prod.mk.injEq, List.not_mem_nil, or_false] at hmem
  rcases hmem with ⟨rfl, -⟩ | ⟨rfl, -⟩ | ⟨rfl, -⟩
  · decide +kernel
  · decide +kernel
  · decide +kernel

theorem sample_keeps (action : Action Validators Unit) : Keeps sampleApplication action :=
  fun _ _ _ => rfl

theorem sample_keepsDenom : KeepsDenom sampleApplication where
  cosmosDecorators _ := sample_keeps _
  evmDecorators _ := sample_keeps _
  authorize _ _ := sample_keeps _
  createValidator _ := sample_keeps _
  unjail _ := sample_keeps _
  jail _ := sample_keeps _
  runOther _ := sample_keeps _
  serveOther msg world next h := by
    cases msg <;> first | rfl | cases h

theorem sample_accepts :
    (deliverTx sampleApplication sampleState convertTx).isSome = true ∧
      (deliverTx sampleApplication sampleState nestedTx).isSome = true := by
  decide +kernel

theorem approved_creation_admitted :
    ∃ log t, deliverTx sampleApplication sampleState convertTx = some (log, t) ∧ log ≠ [] ∧
      ∀ e ∈ log, e.operation.Admitted sampleEnv e.store := by
  obtain ⟨⟨log, t⟩, h⟩ := Option.isSome_iff_exists.mp sample_accepts.1
  have hdecoded : decodeText validatorTexts firstText = .ok firstOperator := by decide +kernel
  have heffects : txEffects sampleApplication convertTx.msgs =
      [.creation firstText ⟨5000000000000000000000000, by decide⟩] := by rfl
  refine ⟨log, t, h, ?_, ?_⟩
  · rw [(deliverTx_runs sample_keepsDenom h).2.log_eq, heffects]
    exact List.cons_ne_nil _ _
  · refine (executed_admitted_iff sampleApplication sample_texts_trimmed sample_keepsDenom
      sampleState t convertTx log h).mpr ?_
    rw [heffects]
    refine ⟨fun operation hperformed => Or.inr ?_, trivial⟩
    cases hperformed
    exact ⟨⟨firstOperator, hdecoded, firstText, by decide +kernel, hdecoded⟩,
      ⟨"axtc", ⟨5000000000000000000000000, by decide⟩⟩, by decide +kernel, rfl, le_refl _⟩

-- The second operator is not approved, and creates its validator by sending the
-- message inside a MsgExec of its own account.
theorem nested_creation_not_admitted :
    ∃ log t, deliverTx sampleApplication sampleState nestedTx = some (log, t) ∧
      ∃ e ∈ log, ¬ e.operation.Admitted sampleEnv e.store := by
  obtain ⟨⟨log, t⟩, h⟩ := Option.isSome_iff_exists.mp sample_accepts.2
  refine ⟨log, t, h, ?_⟩
  rw [(deliverTx_runs sample_keepsDenom h).2.log_eq]
  refine ⟨_, List.mem_cons_self, ?_⟩
  rintro ⟨⟨operator, hoperator, text, happroved, htext⟩, -⟩
  obtain rfl : secondOperator = operator := by
    have hdecoded : decodeText validatorTexts secondText = .ok secondOperator := by decide +kernel
    exact Except.ok.inj (hdecoded.symm.trans hoperator)
  have hmem := decodeText_mem htext
  have hfirst : secondOperator ≠ firstOperator := by decide +kernel
  obtain rfl : text = secondText := by simpa [validatorTexts, hfirst] using hmem
  have hnot : sampleState.store.has (approvedKey secondText) = false := by decide +kernel
  exact Bool.false_ne_true (hnot.symm.trans happroved)

end PosChain.Admission
