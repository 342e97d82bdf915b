import PosChain.Base.KVStore

namespace PosChain

-- Writing the entries of a map one after the other into a target. A target is
-- anything that can be read at a key and of which a write changes one key only.
section Overwrite

variable {κ ν ρ σ : Type} (put : σ → κ → ν → σ) (read : σ → κ → ρ) (written : ν → ρ)

theorem read_foldl_of_notMem (hother : ∀ target key value other, key ≠ other →
      read (put target key value) other = read target other)
    (entries : List (κ × ν)) (target : σ) (key : κ) (h : ∀ entry ∈ entries, entry.1 ≠ key) :
    read (entries.foldl (fun acc entry => put acc entry.1 entry.2) target) key =
      read target key := by
  induction entries generalizing target with
  | nil => rfl
  | cons entry rest ih =>
    rw [List.foldl_cons, ih _ fun later hlater => h later (List.mem_cons_of_mem _ hlater)]
    exact hother target entry.1 entry.2 key (h entry List.mem_cons_self)

theorem read_foldl_of_mem (hsame : ∀ target key value, read (put target key value) key = written value)
    (hother : ∀ target key value other, key ≠ other →
      read (put target key value) other = read target other)
    (entries : List (κ × ν)) (target : σ) (key : κ) (value : ν) (hmem : (key, value) ∈ entries)
    (hdistinct : entries.Pairwise fun a b => a.1 ≠ b.1) :
    read (entries.foldl (fun acc entry => put acc entry.1 entry.2) target) key = written value := by
  induction entries generalizing target with
  | nil => cases hmem
  | cons entry rest ih =>
    rw [List.pairwise_cons] at hdistinct
    rw [List.foldl_cons]
    rcases List.mem_cons.mp hmem with rfl | hlater
    · rw [read_foldl_of_notMem put read hother rest _ key fun later hlater =>
        (hdistinct.1 later hlater).symm]
      exact hsame target key value
    · exact ih _ hlater hdistinct.2

variable [Ord κ] [Std.TransOrd κ] [Std.LawfulEqOrd κ]

theorem read_foldl_toList (hsame : ∀ target key value, read (put target key value) key = written value)
    (hother : ∀ target key value other, key ≠ other →
      read (put target key value) other = read target other)
    (entries : Std.ExtTreeMap κ ν) (target : σ) (key : κ) :
    read (entries.toList.foldl (fun acc entry => put acc entry.1 entry.2) target) key =
      (entries[key]?).elim (read target key) written := by
  cases hfound : entries[key]? with
  | none =>
    apply read_foldl_of_notMem put read hother
    rintro ⟨other, value⟩ hmem rfl
    rw [Std.ExtTreeMap.mem_toList_iff_getElem?_eq_some, hfound] at hmem
    cases hmem
  | some value =>
    apply read_foldl_of_mem put read written hsame hother
    · exact Std.ExtTreeMap.mem_toList_iff_getElem?_eq_some.mpr hfound
    · refine Std.ExtTreeMap.distinct_keys_toList.imp ?_
      intro a b hne heq
      exact hne (by rw [heq]; exact Std.ReflCmp.compare_self)

end Overwrite

-- A store that buffers its writes over a parent: a value or a deletion for each
-- key that was written since the last time the buffer was written to the parent.
structure CacheKV where
  dirty : Std.ExtTreeMap Bytes (Option Bytes)

namespace CacheKV

def empty : CacheKV :=
  ⟨∅⟩

def put (cache : CacheKV) (key : Bytes) (value : Option Bytes) : CacheKV :=
  ⟨cache.dirty.insert key value⟩

-- A key that was not written is read from the parent.
def find? (cache : CacheKV) (parent : Bytes → Option Bytes) (key : Bytes) : Option Bytes :=
  (cache.dirty[key]?).getD (parent key)

def putKV (store : KVStore) (key : Bytes) : Option Bytes → KVStore
  | some value => store.set key value
  | none => store.delete key

-- Write hands the buffered writes to the parent in the order of their keys. The
-- parent is either a store or another buffer.
def writeTo (cache : CacheKV) (parent : KVStore) : KVStore :=
  cache.dirty.toList.foldl (fun store entry => putKV store entry.1 entry.2) parent

def writeInto (cache parent : CacheKV) : CacheKV :=
  cache.dirty.toList.foldl (fun store entry => store.put entry.1 entry.2) parent

@[simp] theorem find?_putKV (store : KVStore) (key : Bytes) (value : Option Bytes) (other : Bytes) :
    (putKV store key value).find? other = if key = other then value else store.find? other := by
  cases value with
  | none => simp [putKV]
  | some value => simp [putKV]

theorem dirty_put (cache : CacheKV) (key : Bytes) (value : Option Bytes) (other : Bytes) :
    (cache.put key value).dirty[other]? = if key = other then some value else cache.dirty[other]? := by
  simp [put, Std.ExtTreeMap.getElem?_insert]

theorem find?_writeTo (cache : CacheKV) (parent : KVStore) (key : Bytes) :
    (cache.writeTo parent).find? key = cache.find? parent.find? key := by
  have hread := read_foldl_toList putKV KVStore.find? id (by simp)
    (fun store key value other hne => by simp [hne]) cache.dirty parent key
  rw [writeTo, hread, find?]
  cases cache.dirty[key]? <;> rfl

theorem dirty_writeInto (cache parent : CacheKV) (key : Bytes) :
    (cache.writeInto parent).dirty[key]? = (cache.dirty[key]?).or parent.dirty[key]? := by
  have hread := read_foldl_toList put (fun store key => store.dirty[key]?) some
    (by simp [dirty_put]) (fun store key value other hne => by simp [dirty_put, hne])
    cache.dirty parent key
  rw [writeInto, hread]
  cases cache.dirty[key]? <;> rfl

@[simp] theorem writeTo_empty (parent : KVStore) : empty.writeTo parent = parent := by
  ext1 key
  simp [find?_writeTo, find?, empty]

@[simp] theorem writeTo_put (cache : CacheKV) (parent : KVStore) (key : Bytes) (value : Option Bytes) :
    (cache.put key value).writeTo parent = putKV (cache.writeTo parent) key value := by
  ext1 other
  simp only [find?_writeTo, find?_putKV, find?, dirty_put]
  by_cases h : key = other <;> simp [h]

theorem writeTo_writeInto (cache below : CacheKV) (parent : KVStore) :
    (cache.writeInto below).writeTo parent = cache.writeTo (below.writeTo parent) := by
  ext1 key
  simp only [find?_writeTo, find?, dirty_writeInto]
  cases cache.dirty[key]? <;> rfl

end CacheKV

end PosChain
