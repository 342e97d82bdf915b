import Mathlib

namespace PosChain

-- Arrays of pointers by their number. A number is given out once, so that two slices
-- share cells only if they are of one array.
structure Memory (α : Type) where
  arrays : Nat → List (Option α)
  next : Nat

-- A slice that begins at the first cell of its array. The length of the array is its
-- capacity.
structure Slice where
  array : Nat
  len : Nat
  deriving DecidableEq

namespace Memory

variable {α : Type}

section Operations

variable (h : Memory α)

def set (array : Nat) (cells : List (Option α)) : Memory α :=
  { h with arrays := Function.update h.arrays array cells }

def alloc (cells : List (Option α)) (len : Nat) : Memory α × Slice :=
  (⟨Function.update h.arrays h.next cells, h.next + 1⟩, ⟨h.next, len⟩)

def read (s : Slice) : Option (List α) :=
  ((h.arrays s.array).take s.len).mapM id

def overwrite (s : Slice) (items : List α) : Memory α :=
  h.set s.array (items.map some ++ (h.arrays s.array).drop s.len)

-- An append writes behind the slice where the array has room, also if another slice
-- reads there, and copies to a new array with spare cells where not.
def append (spare : Nat → Nat → Nat) (s : Slice) (items : List α) : Memory α × Slice :=
  if s.len + items.length ≤ (h.arrays s.array).length then
    (h.set s.array ((h.arrays s.array).take s.len ++ items.map some ++
      (h.arrays s.array).drop (s.len + items.length)), ⟨s.array, s.len + items.length⟩)
  else
    h.alloc ((h.arrays s.array).take s.len ++ items.map some ++
      List.replicate (spare (h.arrays s.array).length (s.len + items.length)) none) (s.len + items.length)

end Operations

-- One round of a loop that appends what it keeps to the slice it ranges over. The state
-- is the cells, the number of items kept, and the items dropped.
def keepStep (keep : α → Bool) (state : List (Option α) × Nat × List α) (i : Nat) :
    Option (List (Option α) × Nat × List α) :=
  match state.1[i]? with
  | some (some x) =>
    if keep x then some (state.1.set state.2.1 (some x), state.2.1 + 1, state.2.2)
    else some (state.1, state.2.1, state.2.2 ++ [x])
  | _ => none

-- The loop with the clearing of the cells behind what it has kept.
def keepInPlace (h : Memory α) (keep : α → Bool) (s : Slice) : Option (Memory α × Slice × List α) :=
  ((List.range s.len).foldlM (keepStep keep) (h.arrays s.array, 0, [])).map fun (cells, kept, dropped) =>
    (h.set s.array (cells.take kept ++ List.replicate (s.len - kept) none ++ cells.drop s.len),
      ⟨s.array, kept⟩, dropped)

def Holds (h : Memory α) (s : Slice) (items : List α) : Prop :=
  s.len = items.length ∧ ∃ rest, h.arrays s.array = items.map some ++ rest

section Facts

variable {h : Memory α} {s : Slice} {items : List α}

theorem mapM_id_map_some (items : List α) : (items.map some).mapM id = some items := by
  induction items with
  | nil => rfl
  | cons x xs ih => simp [ih]

theorem Holds.take (hs : h.Holds s items) : (h.arrays s.array).take s.len = items.map some := by
  obtain ⟨hlen, rest, hcells⟩ := hs
  rw [hcells, hlen, List.take_append_of_le_length (by simp), List.take_of_length_le (by simp)]

theorem Holds.read (hs : h.Holds s items) : h.read s = some items := by
  rw [Memory.read, hs.take, mapM_id_map_some]

theorem Holds.of_arrays {h' : Memory α} (hs : h.Holds s items) (heq : h'.arrays s.array = h.arrays s.array) :
    h'.Holds s items := by
  obtain ⟨hlen, rest, hcells⟩ := hs
  exact ⟨hlen, rest, heq.trans hcells⟩

theorem alloc_holds (h : Memory α) (items : List α) (rest : List (Option α)) :
    (h.alloc (items.map some ++ rest) items.length).1.Holds (h.alloc (items.map some ++ rest) items.length).2
      items :=
  ⟨rfl, rest, Function.update_self ..⟩

theorem Holds.overwrite (hs : h.Holds s items) {items' : List α} (hlen : items'.length = items.length) :
    (h.overwrite s items').Holds s items' :=
  ⟨hs.1.trans hlen.symm, _, Function.update_self ..⟩

theorem Holds.append (hs : h.Holds s items) (spare : Nat → Nat → Nat) (more : List α) :
    (h.append spare s more).1.Holds (h.append spare s more).2 (items ++ more) := by
  have hlen := hs.1
  unfold Memory.append
  rw [hs.take, ← List.map_append]
  split
  · exact ⟨by simp [hlen], _, Function.update_self ..⟩
  · exact ⟨by simp [alloc, hlen], _, Function.update_self ..⟩

-- What is behind the read position is as it was, since no more is kept than read.
theorem keepLoop (keep : α → Bool) (cells rest : List (Option α)) (hcells : cells = items.map some ++ rest)
    (n : Nat) (hn : n ≤ items.length) :
    ∃ cells', (List.range n).foldlM (keepStep keep) (cells, 0, []) =
        some (cells', ((items.take n).filter keep).length, (items.take n).filter (fun x => !keep x)) ∧
      cells'.take ((items.take n).filter keep).length = ((items.take n).filter keep).map some ∧
      cells'.drop n = cells.drop n ∧ cells'.length = cells.length := by
  induction n with
  | zero => exact ⟨cells, rfl, rfl, rfl, rfl⟩
  | succ n ih =>
    obtain ⟨cells', hloop, htake, hdrop, hlength⟩ := ih (by omega)
    have hx : cells'[n]? = some (some items[n]) := by
      have hhead := congrArg (fun l => l[0]?) hdrop
      simp only [List.getElem?_drop, Nat.add_zero] at hhead
      rw [hhead, hcells, List.getElem?_append_left (by simpa using hn)]
      simp [List.getElem?_eq_getElem (show n < items.length by omega)]
    have hkept : ((items.take n).filter keep).length ≤ n :=
      (List.length_filter_le ..).trans (by simp)
    have hn' : n < cells'.length := (List.getElem?_eq_some_iff.mp hx).1
    have hstep : (List.range (n + 1)).foldlM (keepStep keep) (cells, 0, []) = keepStep keep
        (cells', ((items.take n).filter keep).length, (items.take n).filter fun x => !keep x) n := by
      rw [List.range_succ, List.foldlM_append, hloop]
      simp
    rw [hstep, show items.take (n + 1) = items.take n ++ [items[n]] by simp, List.filter_append,
      List.filter_append]
    by_cases hkeep : keep items[n] = true
    · refine ⟨cells'.set ((items.take n).filter keep).length (some items[n]), ?_, ?_, ?_,
        by simpa using hlength⟩
      · simp [keepStep, hx, hkeep]
      · simp only [hkeep, List.filter_cons_of_pos, List.filter_nil, List.length_append, List.length_singleton,
          List.map_append, List.map_singleton]
        rw [List.take_add_one, List.take_set_of_le le_rfl, htake, List.getElem?_set_self (by omega)]
        rfl
      · rw [List.drop_set_of_lt (by omega), ← List.drop_drop, hdrop, List.drop_drop]
    · refine ⟨cells', ?_, ?_, ?_, hlength⟩
      · simp [keepStep, hx, hkeep]
      · simp [hkeep, htake]
      · rw [← List.drop_drop, hdrop, List.drop_drop]

theorem Holds.keepInPlace (hs : h.Holds s items) (keep : α → Bool) :
    ∃ h', h.keepInPlace keep s =
        some (h', ⟨s.array, (items.filter keep).length⟩, items.filter fun x => !keep x) ∧
      h'.Holds ⟨s.array, (items.filter keep).length⟩ (items.filter keep) ∧ h'.next = h.next ∧
      ∀ k, k ≠ s.array → h'.arrays k = h.arrays k := by
  obtain ⟨hlen, rest, hcells⟩ := hs
  obtain ⟨cells', hloop, htake, hdrop, hlength⟩ := keepLoop keep _ rest hcells items.length le_rfl
  rw [List.take_length] at hloop htake
  rw [Memory.keepInPlace, hlen, hloop, Option.map_some]
  dsimp only
  rw [htake]
  refine ⟨_, rfl, ⟨rfl, _, (Function.update_self ..).trans (List.append_assoc ..)⟩, rfl, fun k hk => ?_⟩
  exact Function.update_of_ne hk ..

def Agrees (h h' : Memory α) (written : Set Nat) : Prop :=
  h.next ≤ h'.next ∧ ∀ k, k < h.next → k ∉ written → h'.arrays k = h.arrays k

theorem Agrees.trans {h' g : Memory α} {written : Set Nat} (h₁ : h.Agrees h' written)
    (h₂ : h'.Agrees g written) : h.Agrees g written :=
  ⟨h₁.1.trans h₂.1, fun k hk hnot => (h₂.2 k (hk.trans_le h₁.1) hnot).trans (h₁.2 k hk hnot)⟩

theorem set_agrees (h : Memory α) (array : Nat) (cells : List (Option α)) {written : Set Nat}
    (hmem : array ∈ written) : h.Agrees (h.set array cells) written := by
  refine ⟨le_rfl, fun k _ hnot => Function.update_of_ne ?_ ..⟩
  rintro rfl
  exact hnot hmem

theorem alloc_agrees (h : Memory α) (cells : List (Option α)) (len : Nat) (written : Set Nat) :
    h.Agrees (h.alloc cells len).1 written :=
  ⟨Nat.le_succ _, fun _ hk _ => Function.update_of_ne hk.ne ..⟩

theorem append_agrees (h : Memory α) (spare : Nat → Nat → Nat) (s : Slice) (items : List α) :
    h.Agrees (h.append spare s items).1 {s.array} ∧
      ((h.append spare s items).2.array = s.array ∨ (h.append spare s items).2.array = h.next) ∧
      (s.array < h.next → (h.append spare s items).2.array < (h.append spare s items).1.next) := by
  unfold Memory.append
  split
  · exact ⟨set_agrees h _ _ rfl, .inl rfl, id⟩
  · exact ⟨alloc_agrees h _ _ _, .inr rfl, fun _ => Nat.lt_succ_self _⟩

end Facts

-- A map of slices that share no array with each other or with somebody else. A key
-- without a slice has no items.
structure Separate {ι : Type} (mem : Memory α) (others : Finset Nat) (slices : ι → Option Slice)
    (lists : ι → List α) : Prop where
  absent : ∀ i, slices i = none → lists i = []
  holds : ∀ i s, slices i = some s → mem.Holds s (lists i)
  inside : ∀ i s, slices i = some s → s.array < mem.next ∧ s.array ∉ others
  apart : ∀ i j s t, slices i = some s → slices j = some t → s.array = t.array → i = j
  known : ∀ k ∈ others, k < mem.next

section Separation

variable {ι : Type} {mem mem' : Memory α} {others : Finset Nat} {slices : ι → Option Slice}
  {lists : ι → List α} {written : Set Nat}

-- Somebody else allocates or writes.
theorem Separate.outside (h : mem.Separate others slices lists) (hagrees : mem.Agrees mem' written)
    (hwritten : ∀ k ∈ written, k ∈ others) {others' : Finset Nat}
    (hothers : ∀ k ∈ others', k < mem'.next ∧ (k ∈ others ∨ mem.next ≤ k)) :
    mem'.Separate others' slices lists := by
  refine ⟨h.absent, fun i s hs => ?_, fun i s hs => ?_, h.apart, fun k hk => (hothers k hk).1⟩
  · obtain ⟨hlt, hnot⟩ := h.inside i s hs
    exact (h.holds i s hs).of_arrays (hagrees.2 _ hlt fun hk => hnot (hwritten _ hk))
  · obtain ⟨hlt, hnot⟩ := h.inside i s hs
    refine ⟨hlt.trans_le hagrees.1, fun hk => ?_⟩
    rcases (hothers _ hk).2 with hk | hk
    · exact hnot hk
    · omega

-- What is written belongs to one key, which then has the slice in place of its own.
theorem Separate.replace [DecidableEq ι] (h : mem.Separate others slices lists) (i : ι) (new : Option Slice)
    (items : List α) (hagrees : mem.Agrees mem' written)
    (hwritten : ∀ k ∈ written, ∃ s, slices i = some s ∧ s.array = k) (hnone : new = none → items = [])
    (hnew : ∀ s, new = some s →
      ((∃ old, slices i = some old ∧ s.array = old.array) ∨ mem.next ≤ s.array) ∧
        s.array < mem'.next ∧ mem'.Holds s items) :
    mem'.Separate others (Function.update slices i new) (Function.update lists i items) := by
  have hkept : ∀ j s, j ≠ i → slices j = some s → mem'.arrays s.array = mem.arrays s.array := by
    intro j s hj hs
    refine hagrees.2 _ (h.inside j s hs).1 fun hk => hj ?_
    obtain ⟨old, hold, heq⟩ := hwritten _ hk
    exact h.apart j i s old hs hold heq.symm
  have hfar : ∀ j s t, j ≠ i → slices j = some s → new = some t → s.array ≠ t.array := by
    intro j s t hj hs ht heq
    rcases (hnew t ht).1 with ⟨old, hold, hsame⟩ | hfresh
    · exact hj (h.apart j i s old hs hold (heq.trans hsame))
    · have hlt := (h.inside j s hs).1
      omega
  have hknown : ∀ k ∈ others, k < mem'.next := fun k hk => (h.known k hk).trans_le hagrees.1
  refine ⟨fun j hj => ?_, fun j s hs => ?_, fun j s hs => ?_, fun j k s t hs ht heq => ?_, hknown⟩
  · by_cases hji : j = i
    · subst hji
      rw [Function.update_self] at hj ⊢
      exact hnone hj
    · rw [Function.update_of_ne hji] at hj ⊢
      exact h.absent j hj
  · by_cases hji : j = i
    · subst hji
      rw [Function.update_self] at hs ⊢
      exact (hnew s hs).2.2
    · rw [Function.update_of_ne hji] at hs ⊢
      exact (h.holds j s hs).of_arrays (hkept j s hji hs)
  · by_cases hji : j = i
    · subst hji
      rw [Function.update_self] at hs
      refine ⟨(hnew s hs).2.1, fun hk => ?_⟩
      rcases (hnew s hs).1 with ⟨old, hold, hsame⟩ | hfresh
      · exact (h.inside j old hold).2 (hsame ▸ hk)
      · have hlt := h.known _ hk
        omega
    · rw [Function.update_of_ne hji] at hs
      exact ⟨(h.inside j s hs).1.trans_le hagrees.1, (h.inside j s hs).2⟩
  · by_cases hji : j = i
    · by_cases hki : k = i
      · rw [hji, hki]
      · rw [hji, Function.update_self] at hs
        rw [Function.update_of_ne hki] at ht
        exact absurd heq.symm (hfar k t s hki ht hs)
    · rw [Function.update_of_ne hji] at hs
      by_cases hki : k = i
      · rw [hki, Function.update_self] at ht
        exact absurd heq (hfar j s t hji hs ht)
      · rw [Function.update_of_ne hki] at ht
        exact h.apart j k s t hs ht heq

end Separation

end Memory

end PosChain
