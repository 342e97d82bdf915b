import PosChain.Admission.Paths
import PosChain.Base.Run

namespace PosChain.Admission

open Run (run accepted Along)

section Statement

variable {World : Type} (app : Application World)

def slots (store : KVStore) (operator : ValAddress) : List Bytes :=
  (store.keysUnder 0x02).filter fun key =>
    match app.env.valAddressFromBech32 (Bytes.toText (key.drop 1)) with
    | .ok decoded => decoded == operator
    | .error _ => false

def ActsFor (operator : ValAddress) : Msg → Prop
  | .createValidator msg => app.env.valAddressFromBech32 msg.validatorAddress = .ok operator
  | .unjail msg => app.env.valAddressFromBech32 msg.validatorAddr = .ok operator
  | _ => False

def Rejects (store : KVStore) (operator : ValAddress) : Prop :=
  ∀ msgs, (∃ msg ∈ msgs, ActsFor app operator msg) → admissionAnte app store msgs ≠ .ok ()

def Approves (operator : ValAddress) (call : Call) : Prop :=
  ∃ req, call.msg = .approveValidator req ∧
    app.env.valAddressFromBech32 req.validatorAddress = .ok operator

def Revokes (operator : ValAddress) (call : Call) : Prop :=
  ∃ req, call.msg = .revokeValidator req ∧
    app.env.valAddressFromBech32 req.validatorAddress = .ok operator

-- A revoked operator stays out until it is approved again, and no operator has
-- two slots, at every point of a run.
structure RevokesByOperator (s : State World) (calls : List Call) : Prop where
  stayOut : ∀ earlier call middle later operator next, calls = earlier ++ call :: (middle ++ later) →
    deliver app.env (run (deliver app.env) s earlier) call = some ((), next) →
    Revokes app operator call →
    (∀ entry ∈ accepted (deliver app.env) next middle, ¬ Approves app operator entry.1) →
    Rejects app (run (deliver app.env) next middle).store operator
  oneSlot : ∀ earlier later, calls = earlier ++ later → ∀ operator,
    (slots app (run (deliver app.env) s earlier).store operator).length ≤ 1

def SoleSpelling (store : KVStore) (text : String) : Prop :=
  ∀ operator other, app.env.valAddressFromBech32 text = .ok operator →
    app.env.valAddressFromBech32 other = .ok operator →
    store.has (approvedKey other) = true → other = text

def AdmissionMsg.SoleSpelling (store : KVStore) : AdmissionMsg → Prop
  | .approveValidator req => Admission.SoleSpelling app store req.validatorAddress
  | .revokeValidator req => Admission.SoleSpelling app store req.validatorAddress
  | .updateParams _ => True

def GenesisState.OneSpelling (g : GenesisState) : Prop :=
  ∀ operator, ∀ text ∈ g.approvedValidators, ∀ other ∈ g.approvedValidators,
    app.env.valAddressFromBech32 text = .ok operator →
    app.env.valAddressFromBech32 other = .ok operator → other = text

end Statement

section Slots

variable {World : Type} {app : Application World} {store : KVStore}

def OneSpelling (app : Application World) (store : KVStore) : Prop :=
  ∀ operator text other, app.env.valAddressFromBech32 text = .ok operator →
    app.env.valAddressFromBech32 other = .ok operator →
    store.has (approvedKey text) = true → store.has (approvedKey other) = true → other = text

theorem mem_slots (hn : Named store) (operator : ValAddress) (key : Bytes) :
    key ∈ slots app store operator ↔ ∃ text, key = approvedKey text ∧
      store.has (approvedKey text) = true ∧ app.env.valAddressFromBech32 text = .ok operator := by
  have hmatch (text : String) :
      (match app.env.valAddressFromBech32 text with
        | .ok decoded => decoded == operator
        | .error _ => false) = true ↔ app.env.valAddressFromBech32 text = .ok operator := by
    cases app.env.valAddressFromBech32 text <;> simp
  rw [slots, List.mem_filter, KVStore.mem_keysUnder, hmatch]
  constructor
  · rintro ⟨⟨hhas, rest, rfl⟩, hdecoded⟩
    obtain ⟨text, htext⟩ := hn rest hhas
    rw [htext] at hhas hdecoded ⊢
    exact ⟨text, rfl, hhas, by simpa [approvedKey] using hdecoded⟩
  · rintro ⟨text, rfl, hhas, hdecoded⟩
    exact ⟨⟨hhas, _, rfl⟩, by simpa [approvedKey] using hdecoded⟩

theorem slots_le_one_iff (hn : Named store) :
    (∀ operator, (slots app store operator).length ≤ 1) ↔ OneSpelling app store := by
  have hone (operator : ValAddress) : (slots app store operator).length ≤ 1 ↔
      ∀ key ∈ slots app store operator, ∀ key' ∈ slots app store operator, key = key' := by
    have hnodup : (slots app store operator).Nodup := (KVStore.nodup_keysUnder store 0x02).filter _
    rw [← List.toFinset_card_of_nodup hnodup, Finset.card_le_one]
    simp only [List.mem_toFinset]
  simp only [hone, mem_slots hn]
  constructor
  · intro h operator text other htext hother happroved happroved'
    exact (approvedKey_inj _ _).mp (h operator _ ⟨other, rfl, happroved', hother⟩
      _ ⟨text, rfl, happroved, htext⟩)
  · rintro h operator _ ⟨text, rfl, happroved, htext⟩ _ ⟨other, rfl, happroved', hother⟩
    rw [h operator other text hother htext happroved' happroved]

end Slots

section Steps

variable {World : Type} {app : Application World} {ctx : Context} {store next : KVStore}
variable {msg : AdmissionMsg}

theorem Served.oneSpelling (h : Served app.env ctx store msg next) (hs : msg.SoleSpelling app store)
    (ho : OneSpelling app store) : OneSpelling app next := by
  intro operator text other htext hother happroved happroved'
  rcases h.origin happroved with hold | ⟨req, rfl, rfl⟩
  · rcases h.origin happroved' with hold' | ⟨req, rfl, rfl⟩
    · exact ho operator text other htext hother hold hold'
    · exact (hs operator text hother htext hold).symm
  · rcases h.origin happroved' with hold' | ⟨req', heq, rfl⟩
    · exact hs operator other htext hother hold'
    · cases heq
      rfl

theorem Served.revoked_out {req : MsgRevokeValidator} {operator : ValAddress}
    (h : Served app.env ctx store (.revokeValidator req) next)
    (hs : SoleSpelling app store req.validatorAddress)
    (hd : app.env.valAddressFromBech32 req.validatorAddress = .ok operator) :
    ¬ OperatorApproved app.env next operator := by
  cases h with
  | revoked _ _ authorised decoded =>
    rintro ⟨text, hhas, htext⟩
    obtain ⟨hne, hhas⟩ := (approved_unset _ _ _).mp hhas
    exact hne (hs operator text hd htext hhas).symm

theorem Served.stays_out {operator : ValAddress} (h : Served app.env ctx store msg next)
    (hn : ∀ req, msg = .approveValidator req →
      app.env.valAddressFromBech32 req.validatorAddress ≠ .ok operator)
    (hout : ¬ OperatorApproved app.env store operator) : ¬ OperatorApproved app.env next operator := by
  rintro ⟨text, hhas, htext⟩
  rcases h.origin hhas with hhas | ⟨req, rfl, rfl⟩
  · exact hout ⟨text, hhas, htext⟩
  · exact hn req rfl htext

theorem rejects_iff
    (htrim : ∀ text operator, app.env.valAddressFromBech32 text = .ok operator →
      Text.trimSpace text = text) (operator : ValAddress) :
    Rejects app store operator ↔ ¬ OperatorApproved app.env store operator := by
  constructor
  · rintro h ⟨text, hhas, htext⟩
    refine h [.unjail ⟨text⟩] ⟨_, List.mem_singleton_self _, htext⟩ ?_
    have happroved : isApprovedValidator store text = true := by
      rw [isApprovedValidator, htrim text operator htext]
      exact hhas
    simp [admissionAnte, admissionCheck, happroved]
  · rintro hout msgs ⟨msg, hmem, hacts⟩ hante
    have hin (operation : Operation) (he : .operation true operation ∈ effects app true msg)
        (hd : app.env.valAddressFromBech32 operation.validatorAddress = .ok operator) : False := by
      have hpassed := admissionAnte_passed hante (List.mem_flatMap.mpr ⟨msg, hmem, he⟩)
      obtain ⟨⟨decoded, hdecoded, happroved⟩, -⟩ :=
        hpassed.admitted htrim ⟨fun _ h => h, rfl⟩ ⟨operator, hd⟩
      obtain rfl : operator = decoded := Except.ok.inj (hd.symm.trans hdecoded)
      exact hout happroved
    cases msg with
    | createValidator msg => exact hin (.createValidator _ msg.value) (by simp [effects]) hacts
    | unjail msg => exact hin (.unjail _) (by simp [effects]) hacts
    | _ => exact hacts

end Steps

section Runs

variable {World : Type} {app : Application World}

theorem deliver_oneSpelling {s next : State World} {call : Call} {answer : Unit}
    (h : deliver app.env s call = some (answer, next)) (hs : call.msg.SoleSpelling app s.store)
    (hi : Named s.store ∧ OneSpelling app s.store) :
    Named next.store ∧ OneSpelling app next.store :=
  ⟨(deliver_served h).named hi.1, (deliver_served h).oneSpelling hs hi.2⟩

theorem run_named (s : State World) (calls : List Call) (hn : Named s.store) :
    Named (run (deliver app.env) s calls).store :=
  Run.run_invariant (fun s => Named s.store) (fun _ _ _ _ h => (deliver_served h).named) s calls hn

theorem run_stays_out {operator : ValAddress} (s : State World) (calls : List Call)
    (hn : ∀ entry ∈ accepted (deliver app.env) s calls, ¬ Approves app operator entry.1)
    (hout : ¬ OperatorApproved app.env s.store operator) :
    ¬ OperatorApproved app.env (run (deliver app.env) s calls).store operator := by
  have halong := Run.along_of_accepted (fun call => ¬ Approves app operator call) s calls hn
  refine halong.invariant (fun s => ¬ OperatorApproved app.env s.store operator) ?_ hout
  intro s call answer next h hcall hs
  exact (deliver_served h).stays_out (fun req hreq hd => hcall ⟨req, hreq, hd⟩) hs

theorem oneSpelling_initGenesis (g : GenesisState) :
    OneSpelling app (initGenesis g KVStore.empty) ↔ g.OneSpelling app := by
  simp only [OneSpelling, approved_initGenesis, GenesisState.OneSpelling]
  constructor
  · intro h operator text hmem other hmem' htext hother
    exact h operator text other htext hother hmem hmem'
  · intro h operator text other htext hother hmem hmem'
    exact h operator text hmem other hmem' htext hother

theorem soleSpelling_of_step
    (htrim : ∀ text operator, app.env.valAddressFromBech32 text = .ok operator →
      Text.trimSpace text = text)
    {s next : State World} {call : Call} (h : deliver app.env s call = some ((), next))
    (hone : OneSpelling app next.store)
    (hout : ∀ operator, Revokes app operator call → ¬ OperatorApproved app.env next.store operator) :
    call.msg.SoleSpelling app s.store := by
  obtain ⟨ctx, msg⟩ := call
  have hserved := deliver_served h
  cases msg with
  | approveValidator req =>
    intro operator other htext hother hhas
    have hkept : next.store.has (approvedKey other) = true :=
      hserved.kept (fun _ he => AdmissionMsg.noConfusion he) hhas
    have hnamed : next.store.has (approvedKey req.validatorAddress) = true := by
      generalize hn : next.store = after at hserved
      cases hserved with
      | already _ _ authorised decoded approved =>
        rwa [isApprovedValidator, htrim _ _ decoded] at approved
      | approved _ _ authorised decoded fresh room => exact (approved_set _ _ _).mpr (Or.inl rfl)
    exact hone operator _ other htext hother hnamed hkept
  | revokeValidator req =>
    intro operator other htext hother hhas
    by_contra hne
    refine hout operator ⟨req, rfl, htext⟩ ⟨other, hserved.kept ?_ hhas, hother⟩
    rintro req' he rfl
    cases he
    exact hne rfl
  | updateParams req => trivial

end Runs

-- Along every run from a genesis, operators are revoked whatever the spelling
-- exactly when no accepted message meets a second spelling of its operator.
theorem revokes_by_operator_iff {World : Type} (app : Application World)
    (htrim : ∀ text operator, app.env.valAddressFromBech32 text = .ok operator →
      Text.trimSpace text = text)
    (g : GenesisState) (world : World) (calls : List Call) :
    RevokesByOperator app ⟨initGenesis g KVStore.empty, world⟩ calls ↔
      g.OneSpelling app ∧ Along (deliver app.env)
        (fun s call => call.msg.SoleSpelling app s.store) ⟨initGenesis g KVStore.empty, world⟩ calls := by
  have hnamed := named_initGenesis g
  constructor
  · intro h
    have hone (earlier later : List Call) (hcalls : calls = earlier ++ later) :
        OneSpelling app (run (deliver app.env) ⟨initGenesis g KVStore.empty, world⟩ earlier).store :=
      (slots_le_one_iff (run_named _ earlier hnamed)).mp (h.oneSlot earlier later hcalls)
    refine ⟨(oneSpelling_initGenesis g).mp (hone [] calls rfl), ?_⟩
    rw [Run.along_iff_split]
    rintro earlier call later ⟨⟩ next rfl hdeliver
    have hnext := hone (earlier ++ [call]) later (by simp)
    rw [Run.run_append, Run.run_cons, Run.run_nil, Run.after_of_some hdeliver] at hnext
    refine soleSpelling_of_step htrim hdeliver hnext fun operator hrevokes => ?_
    rw [← rejects_iff htrim]
    exact h.stayOut earlier call [] later operator next rfl hdeliver hrevokes (by simp [accepted])
  · rintro ⟨hgenesis, halong⟩
    have hinv (earlier later : List Call) (hcalls : calls = earlier ++ later) :=
      ((Run.along_append _ _ earlier later).mp (hcalls ▸ halong)).1.invariant
        (fun s => Named s.store ∧ OneSpelling app s.store) (fun _ _ _ _ => deliver_oneSpelling)
        ⟨hnamed, (oneSpelling_initGenesis g).mpr hgenesis⟩
    refine ⟨?_, ?_⟩
    · rintro earlier ⟨ctx, msg⟩ middle later operator next rfl hdeliver ⟨req, rfl, hd⟩ hnone
      rw [rejects_iff htrim]
      refine run_stays_out next middle hnone ?_
      have hsole := (Run.along_iff_split _ _ _).mp halong _ _ _ _ _ rfl hdeliver
      exact (deliver_served hdeliver).revoked_out hsole hd
    · intro earlier later hcalls
      obtain ⟨hn, ho⟩ := hinv earlier later hcalls
      exact (slots_le_one_iff hn).mpr ho

def approveCall (text : String) : Call :=
  ⟨⟨""⟩, .approveValidator ⟨authorityText, text⟩⟩

def revokeCall (text : String) : Call :=
  ⟨⟨""⟩, .revokeValidator ⟨authorityText, text⟩⟩

theorem second_spelling (text : String)
    (h : sampleApplication.env.valAddressFromBech32 text = .ok secondOperator) : text = secondText := by
  have hmem := decodeText_mem h
  have hfirst : secondOperator ≠ firstOperator := by decide +kernel
  simpa [validatorTexts, hfirst] using hmem

theorem second_soleSpelling (store : KVStore) : SoleSpelling sampleApplication store secondText := by
  intro operator other htext hother _
  have hdecoded : sampleApplication.env.valAddressFromBech32 secondText = .ok secondOperator := by
    decide +kernel
  obtain rfl : secondOperator = operator := Except.ok.inj (hdecoded.symm.trans htext)
  exact second_spelling other hother

theorem second_operator_revoked :
    sampleGenesis.validate sampleEnv = .ok () ∧
      (accepted (deliver sampleEnv) sampleState [approveCall secondText, revokeCall secondText]).length
        = 2 ∧
      RevokesByOperator sampleApplication sampleState
        [approveCall secondText, revokeCall secondText] := by
  refine ⟨by decide +kernel, by decide +kernel, ?_⟩
  refine (revokes_by_operator_iff sampleApplication sample_texts_trimmed sampleGenesis ⟨[], []⟩ _).mpr
    ⟨?_, fun _ _ _ => second_soleSpelling _, fun _ _ _ => second_soleSpelling _, trivial⟩
  intro operator text htext other hother _ _
  rw [List.mem_singleton.mp htext, List.mem_singleton.mp hother]

def afterCall (s : State Validators) (call : Call) : State Validators :=
  endState ((serve sampleEnv call.ctx call.msg).run s)

theorem deliver_afterCall {s : State Validators} {call : Call} (h : (deliver sampleEnv s call).isSome = true) :
    deliver sampleEnv s call = some ((), afterCall s call) := by
  obtain ⟨⟨⟩, hkept⟩ := kept_of_isSome h
  exact hkept

-- The first operator is approved in lower case by the genesis and in upper case
-- by a message. It has two slots, and still unjails after its revocation.
theorem respelled_operator_not_revoked :
    sampleGenesis.validate sampleEnv = .ok () ∧
      ¬ RevokesByOperator sampleApplication sampleState
        [approveCall firstTextUpper, revokeCall firstText] ∧
      ∃ s next, deliver sampleEnv sampleState (approveCall firstTextUpper) = some ((), s) ∧
        (slots sampleApplication s.store firstOperator).length = 2 ∧
        deliver sampleEnv s (revokeCall firstText) = some ((), next) ∧
        admissionAnte sampleApplication next.store [.unjail ⟨firstTextUpper⟩] = .ok () := by
  have hfirst : deliver sampleEnv sampleState (approveCall firstTextUpper) =
      some ((), afterCall sampleState (approveCall firstTextUpper)) :=
    deliver_afterCall (by decide +kernel)
  have hslots : (slots sampleApplication (afterCall sampleState (approveCall firstTextUpper)).store
      firstOperator).length = 2 := by decide +kernel
  refine ⟨by decide +kernel, ?_, _, _, hfirst, hslots, deliver_afterCall (by decide +kernel),
    by decide +kernel⟩
  intro h
  have hone := h.oneSlot [approveCall firstTextUpper] [revokeCall firstText] rfl firstOperator
  have hafter : run (deliver sampleEnv) sampleState [approveCall firstTextUpper] =
      afterCall sampleState (approveCall firstTextUpper) := Run.after_of_some hfirst
  rw [show sampleApplication.env = sampleEnv from rfl, hafter, hslots] at hone
  omega

end PosChain.Admission
