import PosChain.Base.Snapshots
import PosChain.Evm.Store.SnapshotKV

namespace PosChain.Evm

-- A loop over the keys of a table that replaces each entry.
section ForEach

variable {κ α : Type} [DecidableEq κ]

def forEach (keys : List κ) (f : α → α) (table : κ → α) : κ → α :=
  keys.foldl (fun acc key => Function.update acc key (f (acc key))) table

def forEachM (keys : List κ) (f : α → Check α) (table : κ → α) : Check (κ → α) :=
  keys.foldlM (fun acc key => do return Function.update acc key (← f (acc key))) table

theorem forEach_apply {keys : List κ} (hnodup : keys.Nodup) (f : α → α) (table : κ → α) (key : κ) :
    forEach keys f table key = if key ∈ keys then f (table key) else table key := by
  induction keys generalizing table with
  | nil => rfl
  | cons first rest ih =>
    rw [List.nodup_cons] at hnodup
    have hstep := ih hnodup.2 (Function.update table first (f (table first)))
    rw [forEach, List.foldl_cons]
    refine hstep.trans ?_
    by_cases hfirst : key = first
    · subst hfirst
      simp [hnodup.1]
    · simp [hfirst]

theorem forEachM_eq_ok {keys : List κ} (hnodup : keys.Nodup) (f : α → Check α) (table final : κ → α) :
    forEachM keys f table = .ok final ↔
      ∀ key, if key ∈ keys then f (table key) = .ok (final key) else table key = final key := by
  induction keys generalizing table with
  | nil => simp [forEachM, funext_iff, pure, Except.pure]
  | cons first rest ih =>
    rw [List.nodup_cons] at hnodup
    rw [forEachM, List.foldlM_cons, Check.bind_eq_ok]
    simp only [Check.bind_eq_ok, Check.pure_eq_ok]
    constructor
    · rintro ⟨next, ⟨value, hvalue, rfl⟩, hrest⟩ key
      have hkey := (ih hnodup.2 _).mp hrest key
      by_cases hfirst : key = first
      · subst hfirst
        simp only [hnodup.1, if_false, Function.update_self] at hkey
        simpa [← hkey] using hvalue
      · simpa [hfirst] using hkey
    · intro h
      have hfirst : f (table first) = .ok (final first) := by simpa using h first
      refine ⟨_, ⟨final first, hfirst, rfl⟩, (ih hnodup.2 _).mpr ?_⟩
      intro key
      have hkey := h key
      by_cases heq : key = first
      · subst heq
        simp [hnodup.1]
      · simpa [heq] using hkey

end ForEach

-- The stores of all modules under one stack of snapshots. The head counts the
-- snapshots, and every store has as many buffers.
structure SnapshotMulti (κ : Type) where
  stores : κ → SnapshotKV
  storeKeys : List κ
  head : Nat
  nodup : storeKeys.Nodup
  registered : ∀ key, key ∈ storeKeys
  aligned : ∀ key, (stores key).cacheStores.length = head

namespace SnapshotMulti

variable {κ : Type}

def newStore (storeKeys : List κ) (nodup : storeKeys.Nodup) (registered : ∀ key, key ∈ storeKeys)
    (parent : κ → KVStore) : SnapshotMulti κ where
  stores key := .newStore (parent key)
  storeKeys := storeKeys
  head := 0
  nodup := nodup
  registered := registered
  aligned _ := rfl

def view (s : SnapshotMulti κ) : κ → KVStore :=
  fun key => (s.stores key).view

def published (s : SnapshotMulti κ) : κ → KVStore :=
  fun key => (s.stores key).parent

-- The stack of views that the buffers stand for.
def snapshots (s : SnapshotMulti κ) : Snapshots (κ → KVStore) where
  published := s.published
  current := s.view
  saved := (List.range s.head).map fun index key => (s.stores key).viewAt index

@[simp] theorem length_saved (s : SnapshotMulti κ) : s.snapshots.saved.length = s.head := by
  simp [snapshots]

theorem snapshots_newStore (storeKeys : List κ) (nodup : storeKeys.Nodup)
    (registered : ∀ key, key ∈ storeKeys) (parent : κ → KVStore) :
    (newStore storeKeys nodup registered parent).snapshots = .new parent := by
  have hview : (newStore storeKeys nodup registered parent).view = parent := by
    funext key
    exact SnapshotKV.view_newStore (parent key)
  exact congr (congrArg₂ Snapshots.mk rfl hview) rfl

variable [DecidableEq κ]

def snapshot (s : SnapshotMulti κ) : Nat × SnapshotMulti κ :=
  (s.head,
    { s with
      stores := forEach s.storeKeys (fun store => store.snapshot.2) s.stores
      head := s.head + 1
      aligned := by
        intro key
        rw [forEach_apply s.nodup, if_pos (s.registered key)]
        simp [SnapshotKV.snapshot, s.aligned key] })

def revertToSnapshot (s : SnapshotMulti κ) (target : Nat) : Check (SnapshotMulti κ) :=
  match h : forEachM s.storeKeys (fun store => store.revertToSnapshot target) s.stores with
  | .error fault => .error fault
  | .ok stores =>
    .ok { s with
      stores := stores
      head := target
      aligned := by
        intro key
        have hkey := (forEachM_eq_ok s.nodup _ _ _).mp h key
        rw [if_pos (s.registered key), SnapshotKV.revertToSnapshot_eq_ok] at hkey
        rw [← hkey.2]
        simp [hkey.1.le] }

-- A branch is a snapshot, and the branch that is returned is the store itself.
def cacheMultiStore (s : SnapshotMulti κ) : SnapshotMulti κ :=
  s.snapshot.2

def write (s : SnapshotMulti κ) : SnapshotMulti κ :=
  { s with
    stores := forEach s.storeKeys SnapshotKV.commit s.stores
    head := 0
    aligned := by
      intro key
      rw [forEach_apply s.nodup, if_pos (s.registered key)]
      rfl }

def put (s : SnapshotMulti κ) (key : κ) (entry : Bytes) (value : Option Bytes) : SnapshotMulti κ :=
  { s with
    stores := Function.update s.stores key ((s.stores key).put entry value)
    aligned := by
      intro other
      by_cases h : other = key
      · subst h
        simp [s.aligned other]
      · simp [h, s.aligned other] }

def putView (view : κ → KVStore) (key : κ) (entry : Bytes) (value : Option Bytes) : κ → KVStore :=
  Function.update view key (CacheKV.putKV (view key) entry value)

-- Every operation acts on the stack of views as on a stack of copies.
section Refinement

variable (s : SnapshotMulti κ)

theorem snapshots_put (key : κ) (entry : Bytes) (value : Option Bytes) :
    (s.put key entry value).snapshots =
      s.snapshots.modify fun view => putView view key entry value := by
  have hpublished : (s.put key entry value).published = s.published := by
    funext other
    by_cases h : other = key
    · subst h
      simp [published, put]
    · simp [published, put, h]
  have hview : (s.put key entry value).view = putView s.view key entry value := by
    funext other
    by_cases h : other = key
    · subst h
      simp [view, put, putView]
    · simp [view, put, putView, h]
  have hsaved : (s.put key entry value).snapshots.saved = s.snapshots.saved := by
    refine List.map_congr_left fun index hindex => ?_
    funext other
    by_cases h : other = key
    · subst h
      have hlt : index < (s.stores other).cacheStores.length := by
        rw [s.aligned other]
        exact List.mem_range.mp hindex
      simp [put, SnapshotKV.viewAt_put _ _ _ hlt]
    · simp [put, h]
  rw [Snapshots.modify]
  exact congr (congr (congrArg Snapshots.mk hpublished) hview) hsaved

theorem stores_snapshot (key : κ) : s.snapshot.2.stores key = (s.stores key).snapshot.2 := by
  simp [snapshot, forEach_apply s.nodup, s.registered key]

theorem index_snapshot : s.snapshot.1 = s.snapshots.snapshot.1 :=
  s.length_saved.symm

theorem snapshots_snapshot : s.snapshot.2.snapshots = s.snapshots.snapshot.2 := by
  have hpublished : s.snapshot.2.published = s.published := by
    funext key
    rw [published, stores_snapshot]
    rfl
  have hview : s.snapshot.2.view = s.view := by
    funext key
    rw [view, stores_snapshot, SnapshotKV.view_snapshot]
    rfl
  have hsaved : s.snapshot.2.snapshots.saved = s.snapshots.saved ++ [s.view] := by
    have hhead : s.snapshot.2.head = s.head + 1 := rfl
    simp only [snapshots, hhead, List.range_succ, List.map_append, List.map_singleton]
    congr 1
    · refine List.map_congr_left fun index hindex => ?_
      funext key
      have hle : index ≤ (s.stores key).cacheStores.length := by
        rw [s.aligned key]
        exact (List.mem_range.mp hindex).le
      rw [stores_snapshot, SnapshotKV.viewAt_snapshot _ hle]
    · congr 1
      funext key
      rw [stores_snapshot, SnapshotKV.viewAt_snapshot _ (s.aligned key).ge, ← s.aligned key]
      exact SnapshotKV.viewAt_length _
  exact congr (congr (congrArg Snapshots.mk hpublished) hview) hsaved

theorem snapshots_write : s.write.snapshots = s.snapshots.write := by
  have hstores : ∀ key, s.write.stores key = (s.stores key).commit := by
    intro key
    simp [write, forEach_apply s.nodup, s.registered key]
  have hpublished : s.write.published = s.view := by
    funext key
    rw [published, hstores, SnapshotKV.parent_commit]
    rfl
  have hview : s.write.view = s.view := by
    funext key
    rw [view, hstores, SnapshotKV.view_commit]
    rfl
  exact congr (congrArg₂ Snapshots.mk hpublished hview) rfl

theorem revertToSnapshot_eq_ok (t : SnapshotMulti κ) (target : Nat) (h : s.revertToSnapshot target = .ok t) :
    t.head = target ∧
      ∀ key, (s.stores key).revertToSnapshot target = .ok (t.stores key) := by
  unfold revertToSnapshot at h
  split at h
  · cases h
  · rename_i stores hstores
    cases h
    refine ⟨rfl, fun key => ?_⟩
    have hkey := (forEachM_eq_ok s.nodup _ _ _).mp hstores key
    rwa [if_pos (s.registered key)] at hkey

theorem revertToSnapshot_isOk {target : Nat} (h : target < s.head) :
    ∃ t, s.revertToSnapshot target = .ok t := by
  have hstores : forEachM s.storeKeys (fun store => store.revertToSnapshot target) s.stores =
      .ok fun key => { s.stores key with cacheStores := (s.stores key).cacheStores.take target } := by
    rw [forEachM_eq_ok s.nodup]
    intro key
    rw [if_pos (s.registered key)]
    exact SnapshotKV.revertToSnapshot_eq _ (by rw [s.aligned key]; exact h)
  unfold revertToSnapshot
  split
  · rename_i fault hfault
    rw [hstores] at hfault
    cases hfault
  · exact ⟨_, rfl⟩

theorem snapshots_revert (target : Nat) (h : target < s.head) :
    ∃ t, s.revertToSnapshot target = .ok t ∧ s.snapshots.revert target = some t.snapshots := by
  obtain ⟨t, ht⟩ := s.revertToSnapshot_isOk h
  obtain ⟨hhead, hkeys⟩ := s.revertToSnapshot_eq_ok t target ht
  have hstores : ∀ key, t.stores key =
      { s.stores key with cacheStores := (s.stores key).cacheStores.take target } := by
    intro key
    exact ((SnapshotKV.revertToSnapshot_eq_ok _ _ _).mp (hkeys key)).2.symm
  have hpublished : t.published = s.published := by
    funext key
    simp [published, hstores]
  have hview : t.view = fun key => (s.stores key).viewAt target := by
    funext key
    simp [view, hstores, SnapshotKV.view, SnapshotKV.viewAt]
  have hsaved : t.snapshots.saved = s.snapshots.saved.take target := by
    simp only [snapshots, hhead, ← List.map_take, List.take_range, Nat.min_eq_left h.le]
    refine List.map_congr_left fun index hindex => ?_
    funext key
    simp only [hstores, SnapshotKV.viewAt, List.take_take,
      Nat.min_eq_left (List.mem_range.mp hindex).le]
  refine ⟨t, ht, ?_⟩
  have hfound : s.snapshots.saved[target]? = some fun key => (s.stores key).viewAt target := by
    simp [snapshots, h]
  rw [Snapshots.revert, hfound, Option.map_some, Option.some_inj]
  exact (congr (congr (congrArg Snapshots.mk hpublished) hview) hsaved).symm

end Refinement

end SnapshotMulti

end PosChain.Evm
