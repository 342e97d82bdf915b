import PosChain.Base.Action
import PosChain.Base.CacheKV

namespace PosChain.Evm

-- The store of one module during a transaction: a buffer over the store of the
-- context, and a stack of buffers on it, the newest one last.
structure SnapshotKV where
  parent : KVStore
  initialStore : CacheKV
  cacheStores : List CacheKV

namespace SnapshotKV

def newStore (parent : KVStore) : SnapshotKV :=
  ⟨parent, .empty, []⟩

-- A read goes through the buffers from the newest one down.
def find? (s : SnapshotKV) : Bytes → Option Bytes :=
  s.cacheStores.foldl (fun below cache => cache.find? below) (s.initialStore.find? s.parent.find?)

-- A write goes to the current store: the newest buffer, or the initial one.
def put (s : SnapshotKV) (key : Bytes) (value : Option Bytes) : SnapshotKV :=
  match s.cacheStores.getLast? with
  | none => { s with initialStore := s.initialStore.put key value }
  | some top => { s with cacheStores := s.cacheStores.dropLast ++ [top.put key value] }

-- The buffers are written from top to bottom, each one into the one below it.
def flush : List CacheKV → CacheKV → CacheKV
  | [], base => base
  | cache :: above, base => (flush above cache).writeInto base

def commit (s : SnapshotKV) : SnapshotKV :=
  newStore ((flush s.cacheStores s.initialStore).writeTo s.parent)

def snapshot (s : SnapshotKV) : Nat × SnapshotKV :=
  (s.cacheStores.length, { s with cacheStores := s.cacheStores ++ [.empty] })

def revertToSnapshot (s : SnapshotKV) (target : Nat) : Check SnapshotKV :=
  if target ≥ s.cacheStores.length then
    .error (.panic s!"snapshot index {target} out of bound [0..{s.cacheStores.length})")
  else .ok { s with cacheStores := s.cacheStores.take target }

def layered (base : KVStore) (caches : List CacheKV) : KVStore :=
  caches.foldl (fun store cache => cache.writeTo store) base

def view (s : SnapshotKV) : KVStore :=
  layered (s.initialStore.writeTo s.parent) s.cacheStores

def viewAt (s : SnapshotKV) (index : Nat) : KVStore :=
  layered (s.initialStore.writeTo s.parent) (s.cacheStores.take index)

theorem find?_eq_view (s : SnapshotKV) : s.find? = s.view.find? := by
  have hlayers : ∀ (caches : List CacheKV) (read : Bytes → Option Bytes) (store : KVStore),
      read = store.find? →
        caches.foldl (fun below cache => cache.find? below) read = (layered store caches).find? := by
    intro caches
    induction caches with
    | nil => intro read store h; exact h
    | cons cache above ih =>
      rintro _ store rfl
      refine ih _ (cache.writeTo store) ?_
      funext key
      exact (cache.find?_writeTo store key).symm
  refine hlayers s.cacheStores _ _ ?_
  funext key
  exact (s.initialStore.find?_writeTo s.parent key).symm

theorem layered_concat (base : KVStore) (caches : List CacheKV) (cache : CacheKV) :
    layered base (caches ++ [cache]) = cache.writeTo (layered base caches) := by
  simp [layered]

theorem flush_writeTo (caches : List CacheKV) (base : CacheKV) (store : KVStore) :
    (flush caches base).writeTo store = layered (base.writeTo store) caches := by
  induction caches generalizing base store with
  | nil => rfl
  | cons cache above ih =>
    rw [flush, CacheKV.writeTo_writeInto, ih]
    rfl

@[simp] theorem view_newStore (parent : KVStore) : (newStore parent).view = parent := by
  simp [newStore, view, layered]

theorem put_concat (parent : KVStore) (initialStore : CacheKV) (below : List CacheKV) (top : CacheKV)
    (key : Bytes) (value : Option Bytes) :
    put ⟨parent, initialStore, below ++ [top]⟩ key value =
      ⟨parent, initialStore, below ++ [top.put key value]⟩ := by
  simp [put]

@[simp] theorem view_put (s : SnapshotKV) (key : Bytes) (value : Option Bytes) :
    (s.put key value).view = CacheKV.putKV s.view key value := by
  obtain ⟨parent, initialStore, cacheStores⟩ := s
  rcases List.eq_nil_or_concat cacheStores with rfl | ⟨below, top, rfl⟩
  · simp [put, view, layered]
  · rw [List.concat_eq_append, put_concat]
    simp [view, layered_concat]

@[simp] theorem view_commit (s : SnapshotKV) : s.commit.view = s.view := by
  rw [commit, view_newStore, flush_writeTo]
  rfl

@[simp] theorem parent_commit (s : SnapshotKV) : s.commit.parent = s.view :=
  flush_writeTo s.cacheStores s.initialStore s.parent

@[simp] theorem view_snapshot (s : SnapshotKV) : s.snapshot.2.view = s.view := by
  simp [snapshot, view, layered_concat]

@[simp] theorem parent_put (s : SnapshotKV) (key : Bytes) (value : Option Bytes) :
    (s.put key value).parent = s.parent := by
  unfold put
  split <;> rfl

@[simp] theorem length_put (s : SnapshotKV) (key : Bytes) (value : Option Bytes) :
    (s.put key value).cacheStores.length = s.cacheStores.length := by
  obtain ⟨parent, initialStore, cacheStores⟩ := s
  rcases List.eq_nil_or_concat cacheStores with rfl | ⟨below, top, rfl⟩
  · rfl
  · rw [List.concat_eq_append, put_concat]
    simp

theorem viewAt_put (s : SnapshotKV) (key : Bytes) (value : Option Bytes) {index : Nat}
    (h : index < s.cacheStores.length) : (s.put key value).viewAt index = s.viewAt index := by
  obtain ⟨parent, initialStore, cacheStores⟩ := s
  rcases List.eq_nil_or_concat cacheStores with rfl | ⟨below, top, rfl⟩
  · exact absurd h (Nat.not_lt_zero index)
  · rw [List.concat_eq_append] at h ⊢
    have hbelow : index ≤ below.length := by
      simp only [List.length_append, List.length_singleton] at h
      omega
    simp only [put_concat, viewAt, List.take_append_of_le_length hbelow]

theorem viewAt_snapshot (s : SnapshotKV) {index : Nat} (h : index ≤ s.cacheStores.length) :
    s.snapshot.2.viewAt index = s.viewAt index := by
  simp only [snapshot, viewAt, List.take_append_of_le_length h]

@[simp] theorem viewAt_length (s : SnapshotKV) : s.viewAt s.cacheStores.length = s.view := by
  simp [viewAt, view]

theorem revertToSnapshot_eq (s : SnapshotKV) {target : Nat} (h : target < s.cacheStores.length) :
    s.revertToSnapshot target = .ok { s with cacheStores := s.cacheStores.take target } := by
  simp [revertToSnapshot, h]

theorem revertToSnapshot_eq_ok (s t : SnapshotKV) (target : Nat) :
    s.revertToSnapshot target = .ok t ↔
      target < s.cacheStores.length ∧ { s with cacheStores := s.cacheStores.take target } = t := by
  unfold revertToSnapshot
  split
  · rename_i hge
    constructor
    · intro h
      cases h
    · rintro ⟨hlt, -⟩
      omega
  · rename_i hlt
    rw [Except.ok.injEq]
    exact ⟨fun h => ⟨by omega, h⟩, fun h => h.2⟩

end SnapshotKV

end PosChain.Evm
