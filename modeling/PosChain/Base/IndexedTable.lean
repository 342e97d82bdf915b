import Mathlib

namespace PosChain

-- A table of rows by identifier, and an index that gives for the key of a row its
-- identifier. The index is exact when it has an entry for every row and no other
-- one; then no two rows have the same key.
section IndexedTable

variable {ι ρ κ : Type} {table : ι → Option ρ} {index : κ → Option ι} {key : ρ → κ}

def IndexesBy (table : ι → Option ρ) (key : ρ → κ) (index : κ → Option ι) : Prop :=
  ∀ k id, index k = some id ↔ ∃ row, table id = some row ∧ key row = k

namespace IndexesBy

theorem index_row (h : IndexesBy table key index) {id : ι} {row : ρ} (hrow : table id = some row) :
    index (key row) = some id :=
  (h (key row) id).mpr ⟨row, hrow, rfl⟩

theorem unique (h : IndexesBy table key index) {first second : ι} {left right : ρ}
    (hleft : table first = some left) (hright : table second = some right) (hkey : key left = key right) :
    first = second := by
  have hfirst := h.index_row hleft
  rw [hkey, h.index_row hright] at hfirst
  exact (Option.some.inj hfirst).symm

variable [DecidableEq ι]

theorem replace (h : IndexesBy table key index) {id : ι} {old row : ρ} (hid : table id = some old)
    (hkey : key row = key old) : IndexesBy (Function.update table id (some row)) key index := by
  intro k other
  rw [h k other]
  by_cases hother : other = id
  · subst hother
    rw [Function.update_self, hid]
    simp [hkey]
  · rw [Function.update_of_ne hother]

variable [DecidableEq κ]

theorem insert (h : IndexesBy table key index) {id : ι} {row : ρ} (hid : table id = none)
    (hkey : index (key row) = none) :
    IndexesBy (Function.update table id (some row)) key (Function.update index (key row) (some id)) := by
  intro k other
  by_cases hk : k = key row
  · subst hk
    rw [Function.update_self, Option.some.injEq]
    constructor
    · rintro rfl
      exact ⟨row, Function.update_self .., rfl⟩
    · rintro ⟨found, hfound, hsame⟩
      by_contra hne
      rw [Function.update_of_ne (Ne.symm hne)] at hfound
      have hindex := h.index_row hfound
      rw [hsame, hkey] at hindex
      cases hindex
  · rw [Function.update_of_ne hk, h k other]
    constructor
    · rintro ⟨found, hfound, hsame⟩
      refine ⟨found, ?_, hsame⟩
      rwa [Function.update_of_ne]
      rintro rfl
      rw [hid] at hfound
      cases hfound
    · rintro ⟨found, hfound, hsame⟩
      refine ⟨found, ?_, hsame⟩
      rwa [Function.update_of_ne] at hfound
      rintro rfl
      rw [Function.update_self, Option.some.injEq] at hfound
      exact hk (hfound ▸ hsame.symm)

theorem erase (h : IndexesBy table key index) {id : ι} {row : ρ} (hid : table id = some row) :
    IndexesBy (Function.update table id none) key (Function.update index (key row) none) := by
  intro k other
  by_cases hk : k = key row
  · subst hk
    rw [Function.update_self]
    constructor
    · intro hnone
      cases hnone
    · rintro ⟨found, hfound, hsame⟩
      by_cases hother : other = id
      · rw [hother, Function.update_self] at hfound
        cases hfound
      · rw [Function.update_of_ne hother] at hfound
        exact absurd (h.unique hfound hid hsame) hother
  · rw [Function.update_of_ne hk, h k other]
    by_cases hother : other = id
    · subst hother
      rw [Function.update_self, hid]
      constructor
      · rintro ⟨found, hfound, hsame⟩
        cases hfound
        exact absurd hsame.symm hk
      · rintro ⟨found, hfound, -⟩
        cases hfound
    · rw [Function.update_of_ne hother]

end IndexesBy

end IndexedTable

end PosChain
