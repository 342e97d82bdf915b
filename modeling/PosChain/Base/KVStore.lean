import PosChain.Base.Bytes

namespace PosChain

-- A byte-keyed store whose entries are ordered by key.
structure KVStore where
  entries : Std.ExtTreeMap Bytes Bytes

namespace KVStore

def empty : KVStore :=
  ⟨∅⟩

def find? (store : KVStore) (key : Bytes) : Option Bytes :=
  store.entries[key]?

def get (store : KVStore) (key : Bytes) : Bytes :=
  (store.find? key).getD []

def has (store : KVStore) (key : Bytes) : Bool :=
  (store.find? key).isSome

def set (store : KVStore) (key value : Bytes) : KVStore :=
  ⟨store.entries.insert key value⟩

def delete (store : KVStore) (key : Bytes) : KVStore :=
  ⟨store.entries.erase key⟩

-- An iterator without an end yields the keys from its start on, in order. A
-- loop over the keys below one byte stops at the first key that is not below it.
def keysFrom (store : KVStore) (start : Bytes) : List Bytes :=
  store.entries.keys.filter fun key => compare key start != .lt

def keysUnder (store : KVStore) (head : UInt8) : List Bytes :=
  (store.keysFrom [head]).takeWhile fun key => [head].isPrefixOf key

@[ext] theorem ext {left right : KVStore} (h : ∀ key, left.find? key = right.find? key) :
    left = right := by
  obtain ⟨left⟩ := left
  obtain ⟨right⟩ := right
  congr
  exact Std.ExtTreeMap.ext_getElem? h

@[simp] theorem find?_empty (key : Bytes) : empty.find? key = none :=
  Std.ExtTreeMap.getElem?_empty

@[simp] theorem find?_set (store : KVStore) (key value other : Bytes) :
    (store.set key value).find? other = if key = other then some value else store.find? other := by
  simp [find?, set, Std.ExtTreeMap.getElem?_insert]

@[simp] theorem find?_delete (store : KVStore) (key other : Bytes) :
    (store.delete key).find? other = if key = other then none else store.find? other := by
  simp [find?, delete, Std.ExtTreeMap.getElem?_erase]

theorem find?_set_of_ne (store : KVStore) {key other : Bytes} (value : Bytes) (h : key ≠ other) :
    (store.set key value).find? other = store.find? other := by
  simp [h]

@[simp] theorem get_empty (key : Bytes) : empty.get key = [] := by
  simp [get]

@[simp] theorem get_set (store : KVStore) (key value other : Bytes) :
    (store.set key value).get other = if key = other then value else store.get other := by
  simp only [get, find?_set]
  split <;> rfl

@[simp] theorem get_delete (store : KVStore) (key other : Bytes) :
    (store.delete key).get other = if key = other then [] else store.get other := by
  simp only [get, find?_delete]
  split <;> rfl

@[simp] theorem has_empty (key : Bytes) : empty.has key = false := by
  simp [has]

@[simp] theorem has_set (store : KVStore) (key value other : Bytes) :
    (store.set key value).has other = (decide (key = other) || store.has other) := by
  simp only [has, find?_set]
  by_cases h : key = other <;> simp [h]

@[simp] theorem has_delete (store : KVStore) (key other : Bytes) :
    (store.delete key).has other = (!decide (key = other) && store.has other) := by
  simp only [has, find?_delete]
  by_cases h : key = other <;> simp [h]

section Iteration

theorem takeWhile_eq_filter_of_pairwise {α : Type} (p : α → Bool) (l : List α)
    (h : l.Pairwise fun a b => p b = true → p a = true) : l.takeWhile p = l.filter p := by
  induction l with
  | nil => rfl
  | cons a rest ih =>
    rw [List.pairwise_cons] at h
    by_cases ha : p a = true
    · rw [List.takeWhile_cons_of_pos ha, List.filter_cons_of_pos ha, ih h.2]
    · have hrest : rest.filter p = [] := by
        rw [List.filter_eq_nil_iff]
        intro b hb hpb
        exact ha (h.1 b hb hpb)
      rw [List.takeWhile_cons_of_neg ha, List.filter_cons_of_neg ha, hrest]

theorem compare_cons (x y : UInt8) (xs ys : Bytes) :
    compare (x :: xs) (y :: ys) = (compare x y).then (compare xs ys) :=
  List.compareLex_cons_cons

-- Between a byte and a key that starts with it, all keys start with it.
theorem isPrefixOf_of_between {head : UInt8} {first second : Bytes}
    (hstart : compare first [head] ≠ .lt) (horder : compare first second = .lt)
    (hsecond : [head].isPrefixOf second = true) : [head].isPrefixOf first = true := by
  cases first with
  | nil => exact absurd rfl hstart
  | cons x xs =>
    cases second with
    | nil => simp at hsecond
    | cons y ys =>
      obtain rfl : head = y := by simpa using hsecond
      rw [compare_cons] at hstart horder
      cases hc : compare x head with
      | lt => simp [hc] at hstart
      | eq => simp [Std.LawfulEqCmp.eq_of_compare hc]
      | gt => simp [hc] at horder

theorem keysUnder_eq_filter (store : KVStore) (head : UInt8) :
    store.keysUnder head = (store.keysFrom [head]).filter fun key => [head].isPrefixOf key := by
  apply takeWhile_eq_filter_of_pairwise
  have horder : (store.keysFrom [head]).Pairwise fun a b => compare a b = .lt :=
    Std.ExtTreeMap.ordered_keys.filter _
  refine horder.imp_of_mem ?_
  intro first second hfirst _ hlt
  have hstart : compare first [head] ≠ .lt := by
    simpa [keysFrom] using (List.mem_filter.mp hfirst).2
  exact isPrefixOf_of_between hstart hlt

theorem mem_keysUnder (store : KVStore) (head : UInt8) (key : Bytes) :
    key ∈ store.keysUnder head ↔ store.has key = true ∧ ∃ rest, key = head :: rest := by
  have hkeys : key ∈ store.entries.keys ↔ store.has key = true := by
    rw [Std.ExtTreeMap.mem_keys, has, find?, Std.ExtTreeMap.isSome_getElem?_iff_mem]
  rw [keysUnder_eq_filter, keysFrom, List.filter_filter, List.mem_filter, hkeys]
  refine and_congr_right fun _ => ?_
  cases key with
  | nil => simp
  | cons x xs =>
    have hself : compare (head :: xs) [head] ≠ .lt := by
      have hhead : compare head head = .eq := Std.ReflCmp.compare_self
      rw [compare_cons, hhead]
      cases xs with
      | nil => decide
      | cons y ys => exact fun h => Ordering.noConfusion h
    constructor
    · intro h
      rw [Bool.and_eq_true] at h
      obtain rfl : head = x := by simpa using h.1
      exact ⟨xs, rfl⟩
    · rintro ⟨rest, he⟩
      obtain ⟨rfl, rfl⟩ := List.cons.inj he
      simpa using hself

theorem nodup_keysUnder (store : KVStore) (head : UInt8) : (store.keysUnder head).Nodup := by
  rw [keysUnder_eq_filter, keysFrom]
  exact (Std.ExtTreeMap.nodup_keys.filter _).filter _

end Iteration

-- How many keys are below a byte depends only on which of them are there.
section Counting

variable {store other : KVStore} {head : UInt8}

theorem length_keysUnder_le (h : ∀ rest, store.has (head :: rest) = true → other.has (head :: rest) = true) :
    (store.keysUnder head).length ≤ (other.keysUnder head).length := by
  have hsubset : store.keysUnder head ⊆ other.keysUnder head := by
    intro key hkey
    rw [mem_keysUnder] at hkey ⊢
    obtain ⟨hhas, rest, rfl⟩ := hkey
    exact ⟨h rest hhas, rest, rfl⟩
  exact ((nodup_keysUnder store head).subperm hsubset).length_le

theorem length_keysUnder_set (store : KVStore) (head : UInt8) (key value : Bytes) :
    ((store.set key value).keysUnder head).length ≤ (store.keysUnder head).length + 1 := by
  have hsubset : (store.set key value).keysUnder head ⊆ key :: store.keysUnder head := by
    intro found hfound
    rw [mem_keysUnder, has_set, Bool.or_eq_true, decide_eq_true_eq] at hfound
    obtain ⟨rfl | hhas, hhead⟩ := hfound
    · exact List.mem_cons_self
    · exact List.mem_cons_of_mem key ((mem_keysUnder store head found).mpr ⟨hhas, hhead⟩)
  exact ((nodup_keysUnder _ head).subperm hsubset).length_le

end Counting

end KVStore

end PosChain
