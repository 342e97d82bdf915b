import PosChain.Admission.Capacity

namespace PosChain.Admission

open Run (run)

section Export

variable {World : Type} {env : Env World} {store : KVStore}

theorem exported_perm (store : KVStore) :
    (exportGenesis store).approvedValidators.Perm (approvedTexts store) :=
  List.mergeSort_perm _ _

theorem exported_policy {authority : String} (hc : Configured env authority store) :
    (exportGenesis store).policy =
      (getMaxApprovedValidators store, getMinimumSelfDelegation store) := by
  obtain ⟨coin, hcoin⟩ := hc.policy
  have hmax := ((validatePolicyAmount_eq_ok _ _ _).mp hcoin).1
  have hminimum := getMinimumSelfDelegation_ne store
  simp [GenesisState.policy, exportGenesis, hmax, hminimum]

def AllListable (env : Env World) (store : KVStore) : Prop :=
  ∀ text, store.has (approvedKey text) = true → Listable env text

-- The address decoder wants a text without spaces around it.
structure DecodesTrimmed (env : Env World) : Prop where
  filled : ∀ operator, env.valAddressFromBech32 "" ≠ .ok operator
  trimmed : ∀ text operator, env.valAddressFromBech32 text = .ok operator → Text.trimSpace text = text

theorem DecodesTrimmed.listable (hd : DecodesTrimmed env) {text : String} {operator : ValAddress}
    (h : env.valAddressFromBech32 text = .ok operator) : Listable env text where
  filled := by
    rintro rfl
    exact hd.filled operator h
  trimmed := hd.trimmed text operator h
  decodes := ⟨operator, h⟩

theorem Served.allListable (hd : DecodesTrimmed env) {ctx : Context} {msg : AdmissionMsg}
    {next : KVStore} (h : Served env ctx store msg next) (hl : AllListable env store) :
    AllListable env next := by
  intro text hhas
  rcases h.origin hhas with hold | ⟨req, rfl, rfl⟩
  · exact hl text hold
  · cases h with
    | already _ operator authorised decoded approved => exact hd.listable decoded
    | approved _ operator authorised decoded fresh room => exact hd.listable decoded

theorem allListable_initGenesis {g : GenesisState} (hg : g.validate env = .ok ()) :
    AllListable env (initGenesis g KVStore.empty) := by
  intro text hhas
  rw [approved_initGenesis] at hhas
  rcases ((GenesisState.validate_eq_ok g).mp hg).2 with ⟨-, hnone⟩ | ⟨-, he⟩
  · rw [hnone] at hhas
    cases hhas
  · exact he.listable text hhas

theorem run_allListable (hd : DecodesTrimmed env) {g : GenesisState} (hg : g.validate env = .ok ())
    (world : World) (calls : List Call) :
    AllListable env (run (deliver env) ⟨initGenesis g KVStore.empty, world⟩ calls).store := by
  refine Run.run_invariant (fun s : State World => AllListable env s.store) ?_ _ calls
    (allListable_initGenesis hg)
  intro s call answer next h
  exact (deliver_served h).allListable hd

end Export

section Statement

variable {World : Type}

-- The module can be started again from its own export.
structure Restarts (env : Env World) (store : KVStore) : Prop where
  valid : (exportGenesis store).validate env = .ok ()
  authority : getAuthority (initGenesis (exportGenesis store) KVStore.empty) = getAuthority store
  governed : governed (initGenesis (exportGenesis store) KVStore.empty) = governed store

-- There are approvals exactly when there is an authority, and they fit the
-- capacity as a genesis counts them.
structure Restartable (store : KVStore) : Prop where
  disabled : Text.trimSpace (getAuthority store) = "" → approvedTexts store = []
  enabled : Text.trimSpace (getAuthority store) ≠ "" → approvedTexts store ≠ [] ∧
    approvedValidatorCount store ≤ getMaxApprovedValidators store

end Statement

section Restart

variable {World : Type} {env : Env World} {store : KVStore} {g : GenesisState}

-- The import brings back what was exported, valid or not.
theorem governed_restarted (hc : Configured env g.authority store) :
    governed (initGenesis (exportGenesis store) KVStore.empty) = governed store := by
  have hpolicy := exported_policy hc
  simp only [governed, getMaxApprovedValidators_initGenesis, getMinimumSelfDelegation_initGenesis,
    hpolicy, Governed.mk.injEq, and_true]
  funext text
  rw [Bool.eq_iff_iff, approved_initGenesis, (exported_perm store).mem_iff, mem_approvedTexts hc.named]

theorem exported_valid_iff (hg : g.validate env = .ok ()) (hc : Configured env g.authority store)
    (hl : AllListable env store) :
    (exportGenesis store).validate env = .ok () ↔ Restartable store := by
  have hperm := exported_perm store
  have hempty : (exportGenesis store).approvedValidators = [] ↔ approvedTexts store = [] := by
    rw [← List.length_eq_zero_iff, hperm.length_eq, List.length_eq_zero_iff]
  have hauthority : (exportGenesis store).authority = getAuthority store := rfl
  rw [GenesisState.validate_eq_ok, exported_policy hc, hauthority, hempty]
  constructor
  · rintro ⟨-, ⟨hblank, hnone⟩ | ⟨hfilled, he⟩⟩
    · exact ⟨fun _ => hnone, fun hfilled => absurd hblank hfilled⟩
    · refine ⟨fun hblank => absurd hblank hfilled, fun _ => ⟨fun h => he.listed (hempty.mpr h), ?_⟩⟩
      have hfits := he.fits
      rwa [exported_policy hc, hperm.length_eq, ← approvedValidatorCount_eq] at hfits
  · intro h
    refine ⟨hc.policy, ?_⟩
    by_cases hblank : Text.trimSpace (getAuthority store) = ""
    · exact Or.inl ⟨hblank, h.disabled hblank⟩
    · obtain ⟨hlisted, hfits⟩ := h.enabled hblank
      -- The authority is still that of the genesis, which has passed its check.
      have hgenesis : g.Enabled env := by
        rw [hc.authority] at hblank
        rcases ((GenesisState.validate_eq_ok g).mp hg).2 with ⟨h, -⟩ | ⟨-, he⟩
        · exact absurd h hblank
        · exact he
      refine Or.inr ⟨hblank, ?_, ?_, ?_, fun h => hlisted (hempty.mp h), ?_, ?_⟩
      · rw [hauthority, hc.authority]
        exact hgenesis.trimmed
      · rw [hauthority, hc.authority]
        exact hgenesis.authority
      · rwa [exported_policy hc, hperm.length_eq, ← approvedValidatorCount_eq]
      · intro text hmem
        rw [hperm.mem_iff, mem_approvedTexts hc.named] at hmem
        exact hl text hmem
      · exact hperm.nodup_iff.mpr (nodup_approvedTexts hc.named)

end Restart

-- At every point of every run from a valid genesis.
theorem admission_restarts_iff {World : Type} (env : Env World) (hparse : NeedsText env)
    (hd : DecodesTrimmed env) (g : GenesisState) (hg : g.validate env = .ok ()) (world : World)
    (calls : List Call) :
    Restarts env (run (deliver env) ⟨initGenesis g KVStore.empty, world⟩ calls).store ↔
      Restartable (run (deliver env) ⟨initGenesis g KVStore.empty, world⟩ calls).store := by
  have hc := run_configured hparse hg world calls
  have hl := run_allListable hd hg world calls
  rw [← exported_valid_iff hg hc hl]
  constructor
  · exact Restarts.valid
  · intro hvalid
    exact ⟨hvalid, getAuthority_initGenesis _, governed_restarted hc⟩

theorem sample_decodesTrimmed : DecodesTrimmed sampleEnv where
  filled := by
    intro operator h
    cases h
  trimmed := sample_texts_trimmed

theorem sample_needsText : NeedsText sampleEnv := by
  intro coin h
  cases h

theorem second_approval_restarts :
    Restarts sampleEnv (run (deliver sampleEnv) sampleState [approveCall secondText]).store := by
  refine (admission_restarts_iff sampleEnv sample_needsText sample_decodesTrimmed sampleGenesis
    (by decide +kernel) ⟨[], []⟩ _).mpr ⟨?_, ?_⟩
  · decide +kernel
  · decide +kernel

-- The only approved operator is revoked; the export is then refused.
theorem emptied_approvals_not_restartable :
    sampleGenesis.validate sampleEnv = .ok () ∧
      ∃ s, deliver sampleEnv sampleState (revokeCall firstText) = some ((), s) ∧
        (exportGenesis s.store).validate sampleEnv =
          .error (.error "at least one approved validator is required") ∧
        ¬ Restarts sampleEnv s.store := by
  have hrefused : (exportGenesis (afterCall sampleState (revokeCall firstText)).store).validate
      sampleEnv = .error (.error "at least one approved validator is required") := by
    decide +kernel
  refine ⟨by decide +kernel, _, deliver_afterCall (by decide +kernel), hrefused, ?_⟩
  intro h
  rw [h.valid] at hrefused
  cases hrefused

end PosChain.Admission
