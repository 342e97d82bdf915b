import PosChain.Evm.Store.SnapshotMulti

namespace PosChain.Evm

-- What code does with the stores of a transaction. A read or a write goes to the
-- store that GetKVStore returns at that moment.
inductive StoreOp (κ : Type) where
  | get (store : κ) (key : Bytes)
  | set (store : κ) (key value : Bytes)
  | delete (store : κ) (key : Bytes)
  | snapshot
  | revertToSnapshot (target : Nat)
  | write

inductive StoreAnswer where
  | none
  | value (found : Option Bytes)
  | index (i : Nat)
  deriving DecidableEq

section Runs

variable {κ : Type}

theorem SnapshotMulti.find?_stores (s : SnapshotMulti κ) (store : κ) (key : Bytes) :
    (s.stores store).find? key = (s.snapshots.current store).find? key := by
  rw [SnapshotKV.find?_eq_view]
  rfl

variable [DecidableEq κ]

namespace SnapshotMulti

def perform (s : SnapshotMulti κ) : StoreOp κ → Check (StoreAnswer × SnapshotMulti κ)
  | .get store key => .ok (.value ((s.stores store).find? key), s)
  | .set store key value => .ok (.none, s.put store key (some value))
  | .delete store key => .ok (.none, s.put store key .none)
  | .snapshot => .ok (.index s.snapshot.1, s.snapshot.2)
  | .revertToSnapshot target => do return (.none, ← s.revertToSnapshot target)
  | .write => .ok (.none, s.write)

def performAll (s : SnapshotMulti κ) : List (StoreOp κ) → Check (List StoreAnswer × SnapshotMulti κ)
  | [] => .ok ([], s)
  | op :: rest => do
    let (answer, next) ← s.perform op
    let (answers, last) ← next.performAll rest
    return (answer :: answers, last)

end SnapshotMulti

-- The same operations on one map for each store and a stack of copies of all of
-- them. Only a revert to an index that is not on the stack has no meaning.
namespace StackOfMaps

abbrev State (κ : Type) : Type := Snapshots (κ → KVStore)

def perform (s : State κ) : StoreOp κ → Option (StoreAnswer × State κ)
  | .get store key => some (.value ((s.current store).find? key), s)
  | .set store key value =>
    some (.none, s.modify fun view => Function.update view store ((view store).set key value))
  | .delete store key =>
    some (.none, s.modify fun view => Function.update view store ((view store).delete key))
  | .snapshot => some (.index s.snapshot.1, s.snapshot.2)
  | .revertToSnapshot target => (s.revert target).map fun next => (.none, next)
  | .write => some (.none, s.write)

def performAll (s : State κ) : List (StoreOp κ) → Option (List StoreAnswer × State κ)
  | [] => some ([], s)
  | op :: rest => do
    let (answer, next) ← perform s op
    let (answers, last) ← performAll next rest
    return (answer :: answers, last)

end StackOfMaps

namespace SnapshotMulti

theorem perform_refines (s : SnapshotMulti κ) (op : StoreOp κ) {answer : StoreAnswer}
    {v : StackOfMaps.State κ} (h : StackOfMaps.perform s.snapshots op = some (answer, v)) :
    ∃ t, s.perform op = .ok (answer, t) ∧ t.snapshots = v := by
  cases op with
  | get store key =>
    cases h
    exact ⟨s, by rw [perform, find?_stores], rfl⟩
  | set store key value =>
    cases h
    exact ⟨_, rfl, s.snapshots_put store key (some value)⟩
  | delete store key =>
    cases h
    exact ⟨_, rfl, s.snapshots_put store key none⟩
  | snapshot =>
    cases h
    exact ⟨_, by rw [perform, index_snapshot], s.snapshots_snapshot⟩
  | revertToSnapshot target =>
    obtain ⟨next, hnext, hpair⟩ := Option.map_eq_some_iff.mp h
    cases hpair
    have htarget : target < s.head := by
      rw [← s.length_saved, ← Snapshots.revert_isSome, hnext]
      rfl
    obtain ⟨t, ht, hrevert⟩ := s.snapshots_revert target htarget
    refine ⟨t, by rw [perform, ht]; rfl, ?_⟩
    exact Option.some.inj (hrevert.symm.trans hnext)
  | write =>
    cases h
    exact ⟨_, rfl, s.snapshots_write⟩

theorem performAll_refines (s : SnapshotMulti κ) (ops : List (StoreOp κ)) {answers : List StoreAnswer}
    {v : StackOfMaps.State κ} (h : StackOfMaps.performAll s.snapshots ops = some (answers, v)) :
    ∃ t, s.performAll ops = .ok (answers, t) ∧ t.snapshots = v := by
  induction ops generalizing s answers with
  | nil =>
    cases h
    exact ⟨s, rfl, rfl⟩
  | cons op rest ih =>
    simp only [StackOfMaps.performAll, Option.bind_eq_bind, Option.bind_eq_some_iff] at h
    obtain ⟨⟨answer, middle⟩, hop, ⟨later, last⟩, hrest, hpair⟩ := h
    cases hpair
    obtain ⟨t, ht, rfl⟩ := s.perform_refines op hop
    obtain ⟨u, hu, hlast⟩ := ih t hrest
    refine ⟨u, ?_, hlast⟩
    rw [performAll, ht]
    change (t.performAll rest >>= fun p => pure (answer :: p.1, p.2)) = _
    rw [hu]
    rfl

theorem index_stores (s : SnapshotMulti κ) (store : κ) : (s.stores store).snapshot.1 = s.snapshot.1 :=
  s.aligned store

theorem stores_are_stack_of_maps (storeKeys : List κ) (nodup : storeKeys.Nodup)
    (registered : ∀ key, key ∈ storeKeys) (parent : κ → KVStore) (ops : List (StoreOp κ))
    (answers : List StoreAnswer) (v : StackOfMaps.State κ)
    (h : StackOfMaps.performAll (.new parent) ops = some (answers, v)) :
    ∃ t, (newStore storeKeys nodup registered parent).performAll ops = .ok (answers, t) ∧
      t.view = v.current ∧ t.published = v.published ∧ t.snapshots.saved = v.saved ∧
      (∀ store, (t.stores store).snapshot.1 = t.snapshot.1) ∧
      ∀ target < t.snapshot.1, ∃ u, t.revertToSnapshot target = .ok u := by
  rw [← snapshots_newStore storeKeys nodup registered parent] at h
  obtain ⟨t, ht, rfl⟩ := performAll_refines _ ops h
  exact ⟨t, ht, rfl, rfl, rfl, t.index_stores, fun target htarget => t.revertToSnapshot_isOk htarget⟩

-- A value written above a snapshot, seen there and in no other store, undone by the revert
-- together with one of another store, and one written after it that reaches the store below.
def revertThenWrite : List (StoreOp Bool) :=
  [.set true [1] [5], .snapshot, .set false [1] [7], .delete true [1], .get false [1], .get true [1],
    .revertToSnapshot 0, .get false [1], .get true [1], .set false [2] [9], .write, .snapshot, .get false [2],
    .get true [2]]

theorem revertThenWrite_answers :
    ∃ answers v, StackOfMaps.performAll (.new fun _ => KVStore.empty) revertThenWrite = some (answers, v) ∧
      answers = [.none, .index 0, .none, .none, .value (some [7]), .value none, .none, .value none,
        .value (some [5]), .none, .none, .index 0, .value (some [9]), .value none] ∧
      ∃ t, (newStore [false, true] (by decide) (by decide) fun _ => KVStore.empty).performAll revertThenWrite =
        .ok (answers, t) ∧ t.view = v.current := by
  refine ⟨_, _, rfl, ?_, ?_⟩
  · simp [Snapshots.snapshot, Snapshots.modify, Snapshots.new, Snapshots.write]
  · obtain ⟨t, ht, hview, -⟩ := stores_are_stack_of_maps [false, true] (by decide) (by decide)
      (fun _ => KVStore.empty) revertThenWrite _ _ rfl
    exact ⟨t, ht, hview⟩

end SnapshotMulti

end Runs

end PosChain.Evm
