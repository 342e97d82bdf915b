import PosChain.Evm.Store.SnapshotMulti

namespace PosChain.Evm.SnapshotMulti

variable {κ : Type} [DecidableEq κ]

-- A write that code makes through a context: a value or a deletion.
structure Write (κ : Type) where
  store : κ
  key : Bytes
  value : Option Bytes

def putAll (s : SnapshotMulti κ) (writes : List (Write κ)) : SnapshotMulti κ :=
  writes.foldl (fun acc w => acc.put w.store w.key w.value) s

def putViewAll (view : κ → KVStore) (writes : List (Write κ)) : κ → KVStore :=
  writes.foldl (fun acc w => putView acc w.store w.key w.value) view

-- A context is branched by CacheMultiStore, and the write function of the branch
-- calls Write on what that returned. Code that tries something in a branch
-- either drops the branch or calls its write function.
inductive Fate where
  | dropped
  | written
  deriving DecidableEq

def endBranch (s : SnapshotMulti κ) : Fate → SnapshotMulti κ
  | .dropped => s
  | .written => s.write

def branch (s : SnapshotMulti κ) (writes : List (Write κ)) (fate : Fate) : SnapshotMulti κ :=
  (s.cacheMultiStore.putAll writes).endBranch fate

-- What a branch is for: the parent sees its writes only if they are written.
def isolatedView (view : κ → KVStore) (writes : List (Write κ)) : Fate → κ → KVStore
  | .dropped => view
  | .written => putViewAll view writes

def restored (s : SnapshotMulti κ) (target : Nat) : Option (κ → KVStore) :=
  (s.revertToSnapshot target).toOption.map view

structure Isolated (s : SnapshotMulti κ) (writes : List (Write κ)) (fate : Fate) : Prop where
  parent : (s.branch writes fate).view = isolatedView s.view writes fate
  commit : (s.branch writes fate).write.published = isolatedView s.view writes fate
  reverts : ∀ target, target < s.head → (s.branch writes fate).restored target = s.restored target

theorem snapshots_putAll (s : SnapshotMulti κ) (writes : List (Write κ)) :
    (s.putAll writes).snapshots = s.snapshots.modify fun view => putViewAll view writes := by
  induction writes generalizing s with
  | nil => rfl
  | cons w rest ih =>
    have hrest := ih (s.put w.store w.key w.value)
    rw [snapshots_put] at hrest
    exact hrest

theorem snapshots_branch_dropped (s : SnapshotMulti κ) (writes : List (Write κ)) :
    (s.branch writes .dropped).snapshots =
      s.snapshots.snapshot.2.modify fun view => putViewAll view writes := by
  rw [branch, endBranch, snapshots_putAll, cacheMultiStore, snapshots_snapshot]

theorem snapshots_branch_written (s : SnapshotMulti κ) (writes : List (Write κ)) :
    (s.branch writes .written).snapshots = .new (putViewAll s.view writes) := by
  have hdropped := s.snapshots_branch_dropped writes
  rw [branch, endBranch, snapshots_write]
  exact congrArg Snapshots.write hdropped

theorem view_branch (s : SnapshotMulti κ) (writes : List (Write κ)) (fate : Fate) :
    (s.branch writes fate).view = putViewAll s.view writes := by
  cases fate with
  | dropped => exact congrArg Snapshots.current (s.snapshots_branch_dropped writes)
  | written => exact congrArg Snapshots.current (s.snapshots_branch_written writes)

theorem published_write (s : SnapshotMulti κ) : s.write.published = s.view :=
  congrArg Snapshots.published s.snapshots_write

theorem restored_eq (s : SnapshotMulti κ) {target : Nat} (h : target < s.head) :
    s.restored target = (s.snapshots.revert target).map Snapshots.current := by
  obtain ⟨t, ht, hrevert⟩ := s.snapshots_revert target h
  rw [restored, ht, hrevert]
  rfl

theorem head_branch_dropped (s : SnapshotMulti κ) (writes : List (Write κ)) :
    (s.branch writes .dropped).head = s.head + 1 := by
  have hlength := congrArg (fun v => v.saved.length) (s.snapshots_branch_dropped writes)
  simpa [Snapshots.snapshot, Snapshots.modify] using hlength

theorem restored_branch_dropped (s : SnapshotMulti κ) (writes : List (Write κ)) {target : Nat}
    (h : target < s.head) : (s.branch writes .dropped).restored target = s.restored target := by
  have hbranch : target < (s.branch writes .dropped).head := by
    rw [head_branch_dropped]
    omega
  have hsaved : target < s.snapshots.saved.length := by
    rw [length_saved]
    exact h
  rw [restored_eq _ hbranch, restored_eq _ h, snapshots_branch_dropped,
    Snapshots.revert_snapshot _ _ target hsaved]

-- After Write the stack is empty, and every index of a snapshot is out of bound.
theorem restored_branch_written [Inhabited κ] (s : SnapshotMulti κ) (writes : List (Write κ))
    (target : Nat) : (s.branch writes .written).restored target = none := by
  cases hrevert : (s.branch writes .written).revertToSnapshot target with
  | error fault =>
    rw [restored, hrevert]
    rfl
  | ok t =>
    have hkey := ((s.branch writes .written).revertToSnapshot_eq_ok t target hrevert).2 default
    rw [SnapshotKV.revertToSnapshot_eq_ok, aligned] at hkey
    exact absurd hkey.1 (Nat.not_lt_zero target)

theorem restored_isSome (s : SnapshotMulti κ) {target : Nat} (h : target < s.head) :
    s.restored target ≠ none := by
  obtain ⟨t, ht⟩ := s.revertToSnapshot_isOk h
  rw [restored, ht]
  exact Option.some_ne_none _

-- A dropped branch is isolated only when its writes change nothing, and a written
-- one only when no snapshot was on the stack.
theorem isolated_iff [Inhabited κ] (s : SnapshotMulti κ) (writes : List (Write κ)) (fate : Fate) :
    s.Isolated writes fate ↔
      match fate with
      | .dropped => putViewAll s.view writes = s.view
      | .written => s.head = 0 := by
  cases fate with
  | dropped =>
    constructor
    · intro h
      rw [← s.view_branch writes .dropped]
      exact h.parent
    · intro h
      have hview : (s.branch writes .dropped).view = s.view := by
        rw [view_branch, h]
      refine ⟨hview, ?_, fun target ht => s.restored_branch_dropped writes ht⟩
      rw [published_write, hview]
      rfl
  | written =>
    constructor
    · intro h
      by_contra hhead
      have hzero := h.reverts 0 (Nat.pos_of_ne_zero hhead)
      rw [restored_branch_written] at hzero
      exact s.restored_isSome (Nat.pos_of_ne_zero hhead) hzero.symm
    · intro h
      refine ⟨s.view_branch writes .written, ?_, ?_⟩
      · rw [published_write, view_branch]
        rfl
      · intro target ht
        omega

-- One module store with the snapshot that a precompile call takes before its
-- action runs.
def inPrecompile : SnapshotMulti Unit :=
  (newStore [()] (by decide) (by decide) fun _ => .empty).snapshot.2

theorem branch_in_precompile_leaks :
    ¬ inPrecompile.Isolated [⟨(), [1], some [2]⟩] .dropped ∧
      ¬ inPrecompile.Isolated [⟨(), [1], some [2]⟩] .written := by
  constructor
  · intro h
    have hfound := congrArg (fun view => (view ()).find? [1]) h.parent
    rw [view_branch] at hfound
    have hnone : (inPrecompile.view ()).find? [1] = none := by decide +kernel
    simp [putViewAll, putView, isolatedView, hnone] at hfound
  · intro h
    have hzero := h.reverts 0 (by decide)
    rw [restored_branch_written] at hzero
    exact inPrecompile.restored_isSome (by decide) hzero.symm

end PosChain.Evm.SnapshotMulti
