import PosChain.Admission.Keeper

namespace PosChain.Admission

section Approved

variable (store : KVStore)

@[simp] theorem approvedKey_inj (text other : String) :
    approvedKey text = approvedKey other ↔ text = other := by
  constructor
  · intro h
    exact Bytes.utf8_injective (List.cons.inj h).2
  · rintro rfl
    rfl

theorem approved_set (text other : String) :
    (setApprovedValidator text true store).has (approvedKey other) = true ↔
      text = other ∨ store.has (approvedKey other) = true := by
  simp [setApprovedValidator]

theorem approved_unset (text other : String) :
    (setApprovedValidator text false store).has (approvedKey other) = true ↔
      text ≠ other ∧ store.has (approvedKey other) = true := by
  simp [setApprovedValidator]

theorem has_policy (maximum : UInt32) (minimum : String) (rest : Bytes) :
    (setMinimumSelfDelegation minimum (setMaxApprovedValidators maximum store)).has (0x02 :: rest) =
      store.has (0x02 :: rest) := by
  simp [setMinimumSelfDelegation, setMaxApprovedValidators, keyMinimumSelfDelegation,
    keyMaxApprovedValidators]

-- All entries under the approvals' first byte are those of address texts.
def Named : Prop :=
  ∀ rest, store.has (0x02 :: rest) = true → ∃ text, 0x02 :: rest = approvedKey text

variable {store}

theorem Named.set (hn : Named store) (text : String) :
    Named (setApprovedValidator text true store) := by
  intro rest h
  simp only [setApprovedValidator, if_true, KVStore.has_set, Bool.or_eq_true,
    decide_eq_true_eq] at h
  rcases h with h | h
  · exact ⟨text, h.symm⟩
  · exact hn rest h

theorem Named.unset (hn : Named store) (text : String) :
    Named (setApprovedValidator text false store) := by
  intro rest h
  simp only [setApprovedValidator, Bool.false_eq_true, if_false, KVStore.has_delete,
    Bool.and_eq_true] at h
  exact hn rest h.2

theorem Named.policy (hn : Named store) (maximum : UInt32) (minimum : String) :
    Named (setMinimumSelfDelegation minimum (setMaxApprovedValidators maximum store)) := by
  intro rest h
  rw [has_policy] at h
  exact hn rest h

theorem Named.setAll (texts : List String) (hn : Named store) :
    Named (texts.foldl (fun store text => setApprovedValidator text true store) store) := by
  induction texts generalizing store with
  | nil => exact hn
  | cons text rest ih => exact ih (hn.set text)

theorem approved_setAll (texts : List String) (other : String) :
    (texts.foldl (fun store text => setApprovedValidator text true store) store).has
        (approvedKey other) = true ↔ other ∈ texts ∨ store.has (approvedKey other) = true := by
  induction texts generalizing store with
  | nil => simp
  | cons text rest ih =>
    rw [List.foldl_cons, ih, approved_set, List.mem_cons, eq_comm, or_left_comm, or_assoc]

end Approved

-- The texts that are approved, in the order of their keys.
section Texts

def approvedTexts (store : KVStore) : List String :=
  (store.keysUnder 0x02).map fun key => Bytes.toText (key.drop 1)

variable {store : KVStore}

theorem approvedTexts_eq (hn : Named store) :
    store.keysUnder 0x02 = (approvedTexts store).map approvedKey := by
  rw [approvedTexts, List.map_map]
  refine (List.map_id _).symm.trans (List.map_congr_left ?_)
  intro key hkey
  obtain ⟨hhas, rest, rfl⟩ := (KVStore.mem_keysUnder store 0x02 key).mp hkey
  obtain ⟨text, htext⟩ := hn rest hhas
  rw [htext]
  simp [approvedKey]

theorem mem_approvedTexts (hn : Named store) (text : String) :
    text ∈ approvedTexts store ↔ store.has (approvedKey text) = true := by
  have hmem : text ∈ approvedTexts store ↔ approvedKey text ∈ store.keysUnder 0x02 := by
    rw [approvedTexts_eq hn, List.mem_map_of_injective fun _ _ h => (approvedKey_inj _ _).mp h]
  rw [hmem, KVStore.mem_keysUnder]
  exact and_iff_left ⟨_, rfl⟩

theorem nodup_approvedTexts (hn : Named store) : (approvedTexts store).Nodup := by
  have hkeys := KVStore.nodup_keysUnder store 0x02
  rw [approvedTexts_eq hn] at hkeys
  exact List.Nodup.of_map _ hkeys

theorem approvedValidatorCount_eq (store : KVStore) :
    approvedValidatorCount store = UInt32.ofNat (approvedTexts store).length := by
  rw [approvedValidatorCount, approvedTexts, List.length_map]

end Texts

section Settings

variable (store : KVStore)

@[simp] theorem getMaxApprovedValidators_set (value : UInt32) :
    getMaxApprovedValidators (setMaxApprovedValidators value store) = value := by
  simp [getMaxApprovedValidators, setMaxApprovedValidators, Bytes.toNat_fixed]

@[simp] theorem getMinimumSelfDelegation_set {value : String} (h : value ≠ "") :
    getMinimumSelfDelegation (setMinimumSelfDelegation value store) = value := by
  simp [getMinimumSelfDelegation, setMinimumSelfDelegation, h]

theorem getMinimumSelfDelegation_ne : getMinimumSelfDelegation store ≠ "" := by
  rw [getMinimumSelfDelegation]
  split
  · decide
  case isFalse h => simpa using h

@[simp] theorem getAuthority_set (authority : String) :
    getAuthority (setAuthority authority store) = authority := by
  simp [getAuthority, setAuthority]

variable {store} {next : KVStore}

theorem getAuthority_congr (h : next.get keyAuthority = store.get keyAuthority) :
    getAuthority next = getAuthority store := by
  rw [getAuthority, getAuthority, h]

theorem getMaxApprovedValidators_congr
    (h : next.get keyMaxApprovedValidators = store.get keyMaxApprovedValidators) :
    getMaxApprovedValidators next = getMaxApprovedValidators store := by
  rw [getMaxApprovedValidators, getMaxApprovedValidators, h]

theorem getMinimumSelfDelegation_congr
    (h : next.get keyMinimumSelfDelegation = store.get keyMinimumSelfDelegation) :
    getMinimumSelfDelegation next = getMinimumSelfDelegation store := by
  rw [getMinimumSelfDelegation, getMinimumSelfDelegation, h]

@[simp] theorem getMaxApprovedValidators_policy (maximum : UInt32) (minimum : String) :
    getMaxApprovedValidators (setMinimumSelfDelegation minimum
      (setMaxApprovedValidators maximum store)) = maximum := by
  refine Eq.trans (getMaxApprovedValidators_congr ?_) (getMaxApprovedValidators_set store maximum)
  simp [setMinimumSelfDelegation, keyMinimumSelfDelegation, keyMaxApprovedValidators]

-- An approval or revocation is written below its own first byte only.
theorem get_setApprovedValidator (text : String) (approved : Bool) {key : Bytes}
    (hkey : ∀ rest, key ≠ 0x02 :: rest) :
    (setApprovedValidator text approved store).get key = store.get key := by
  have hne : approvedKey text ≠ key := fun h => hkey _ h.symm
  cases approved <;> simp [setApprovedValidator, hne]

theorem get_setAll (texts : List String) {key : Bytes} (hkey : ∀ rest, key ≠ 0x02 :: rest) :
    (texts.foldl (fun store text => setApprovedValidator text true store) store).get key =
      store.get key := by
  induction texts generalizing store with
  | nil => rfl
  | cons text rest ih => rw [List.foldl_cons, ih, get_setApprovedValidator text true hkey]

end Settings

section Genesis

variable (g : GenesisState)

theorem has_configured (rest : Bytes) :
    (setMinimumSelfDelegation g.policy.2 (setMaxApprovedValidators g.policy.1
      (setAuthority g.authority KVStore.empty))).has (0x02 :: rest) = false := by
  simp [has_policy, setAuthority, keyAuthority]

theorem approved_initGenesis (text : String) :
    (initGenesis g KVStore.empty).has (approvedKey text) = true ↔ text ∈ g.approvedValidators := by
  rw [initGenesis, approved_setAll, approvedKey, has_configured]
  simp

theorem named_initGenesis : Named (initGenesis g KVStore.empty) := by
  refine Named.setAll g.approvedValidators ?_
  intro rest h
  rw [has_configured] at h
  cases h

theorem policy_ne : g.policy.2 ≠ "" := by
  rw [GenesisState.policy]
  dsimp only
  split
  · decide
  case isFalse h => simpa using h

theorem getAuthority_initGenesis : getAuthority (initGenesis g KVStore.empty) = g.authority := by
  refine (getAuthority_congr (get_setAll _ (by simp [keyAuthority]))).trans ?_
  refine Eq.trans (getAuthority_congr ?_) (getAuthority_set KVStore.empty g.authority)
  simp [setMinimumSelfDelegation, setMaxApprovedValidators, keyMinimumSelfDelegation,
    keyMaxApprovedValidators, keyAuthority]

theorem getMaxApprovedValidators_initGenesis :
    getMaxApprovedValidators (initGenesis g KVStore.empty) = g.policy.1 := by
  refine (getMaxApprovedValidators_congr (get_setAll _ (by simp [keyMaxApprovedValidators]))).trans ?_
  exact getMaxApprovedValidators_policy g.policy.1 g.policy.2

theorem getMinimumSelfDelegation_initGenesis :
    getMinimumSelfDelegation (initGenesis g KVStore.empty) = g.policy.2 := by
  refine (getMinimumSelfDelegation_congr (get_setAll _ (by simp [keyMinimumSelfDelegation]))).trans ?_
  exact getMinimumSelfDelegation_set _ (policy_ne g)

theorem length_approvedTexts_initGenesis (hd : g.approvedValidators.Nodup) :
    (approvedTexts (initGenesis g KVStore.empty)).length = g.approvedValidators.length := by
  have hn := named_initGenesis g
  refine ((List.perm_ext_iff_of_nodup (nodup_approvedTexts hn) hd).mpr fun text => ?_).length_eq
  rw [mem_approvedTexts hn, approved_initGenesis]

end Genesis

end PosChain.Admission
