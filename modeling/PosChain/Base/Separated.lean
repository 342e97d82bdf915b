import Mathlib

namespace PosChain.Separated

-- Lists joined with a separator, and where the joined list can be cut again.
section Cuts

variable {α : Type} {separator : α}

-- A part without the separator ends before the first one of the rest, which
-- may itself begin inside another list.
theorem part_le {part rest front rest' : List α} (hp : separator ∉ part)
    (h : part ++ separator :: rest = front ++ separator :: rest') :
    ∃ tail, front = part ++ tail ∧ separator :: rest = tail ++ separator :: rest' := by
  rcases List.append_eq_append_iff.mp h with ⟨tail, hfront, hrest⟩ | ⟨tail, hpart, hrest⟩
  · exact ⟨tail, hfront, hrest⟩
  · cases tail with
    | nil => exact ⟨[], by simpa using hpart.symm, by simpa using hrest.symm⟩
    | cons c tail =>
      rw [List.cons_append, List.cons.injEq] at hrest
      exact absurd (by simp [hpart, hrest.1]) hp

theorem cut_first {part part' rest rest' : List α} (hp : separator ∉ part) (hp' : separator ∉ part')
    (h : part ++ separator :: rest = part' ++ separator :: rest') : part = part' ∧ rest = rest' := by
  obtain ⟨tail, rfl, hrest⟩ := part_le hp h
  cases tail with
  | nil => exact ⟨by simp, by simpa using hrest⟩
  | cons c tail =>
    rw [List.cons_append, List.cons.injEq] at hrest
    exact absurd (by simp [hrest.1]) hp'

theorem cut_last {part part' front front' : List α} (hp : separator ∉ part) (hp' : separator ∉ part')
    (h : front ++ separator :: part = front' ++ separator :: part') :
    front = front' ∧ part = part' := by
  have hreverse := congrArg List.reverse h
  simp only [List.reverse_append, List.reverse_cons, List.append_assoc, List.singleton_append] at hreverse
  obtain ⟨hpart, hfront⟩ := cut_first (by simpa using hp) (by simpa using hp') hreverse
  exact ⟨List.reverse_inj.mp hfront, List.reverse_inj.mp hpart⟩

theorem intercalate_injective [DecidableEq α] {parts parts' : List (List α)}
    (hp : ∀ part ∈ parts, separator ∉ part) (hp' : ∀ part ∈ parts', separator ∉ part)
    (hne : parts ≠ []) (hne' : parts' ≠ [])
    (h : [separator].intercalate parts = [separator].intercalate parts') : parts = parts' := by
  rw [← List.splitOn_intercalate separator hp hne, h, List.splitOn_intercalate separator hp' hne']

-- A list with two fixed parts between a front and a back that may hold the
-- separator themselves.
def framed (separator : α) (front first second back : List α) : List α :=
  front ++ separator :: (first ++ separator :: (second ++ separator :: back))

-- The second list reads the same as the first one with its two parts further
-- behind: its front runs over the parts of the first list, whose back holds the
-- parts of the second list.
def Shifted (separator : α) (front first second back front' first' second' back' : List α) : Prop :=
  ∃ tail, front' = front ++ separator :: (first ++ separator :: (second ++ tail)) ∧
    separator :: back = tail ++ separator :: (first' ++ separator :: (second' ++ separator :: back'))

theorem Shifted.framed_eq {front first second back front' first' second' back' : List α}
    (h : Shifted separator front first second back front' first' second' back') :
    framed separator front first second back = framed separator front' first' second' back' := by
  obtain ⟨tail, rfl, hback⟩ := h
  simp [framed, hback]

theorem Shifted.front_ne {front first second back front' first' second' back' : List α}
    (h : Shifted separator front first second back front' first' second' back') : front ≠ front' := by
  obtain ⟨tail, rfl, -⟩ := h
  intro heq
  have hlength := congrArg List.length heq
  simp at hlength

theorem Shifted.mem_front {front first second back front' first' second' back' : List α}
    (h : Shifted separator front first second back front' first' second' back') : separator ∈ front' := by
  obtain ⟨tail, rfl, -⟩ := h
  simp

theorem Shifted.mem_back {front first second back front' first' second' back' : List α}
    (h : Shifted separator front first second back front' first' second' back') : separator ∈ back := by
  obtain ⟨tail, -, hback⟩ := h
  cases tail with
  | nil =>
    rw [List.nil_append, List.cons.injEq] at hback
    simp [hback.2]
  | cons c tail =>
    rw [List.cons_append, List.cons.injEq] at hback
    simp [hback.2]

-- When the front of the second list is the longer one, it is longer by both
-- parts: a shift by one part would confuse the two kinds of parts.
theorem shifted_of_longer {front first second back first' second' back' more : List α}
    (hfirst : separator ∉ first) (hsecond : separator ∉ second) (hfirst' : separator ∉ first')
    (hsecond' : separator ∉ second') (hkinds : second ≠ first')
    (h : separator :: (first ++ separator :: (second ++ separator :: back)) =
      more ++ separator :: (first' ++ separator :: (second' ++ separator :: back'))) :
    (more = [] ∧ first = first' ∧ second = second' ∧ back = back') ∨
      Shifted separator front first second back (front ++ more) first' second' back' := by
  cases more with
  | nil =>
    simp only [List.nil_append, List.cons.injEq, true_and] at h
    obtain ⟨hf, hrest⟩ := cut_first hfirst hfirst' h
    obtain ⟨hs, hb⟩ := cut_first hsecond hsecond' hrest
    exact Or.inl ⟨rfl, hf, hs, hb⟩
  | cons c more =>
    rw [List.cons_append, List.cons.injEq] at h
    obtain ⟨rfl, h⟩ := h
    obtain ⟨tail, rfl, hrest⟩ := part_le hfirst h
    cases tail with
    | nil =>
      simp only [List.nil_append, List.cons.injEq, true_and] at hrest
      exact absurd (cut_first hsecond hfirst' hrest).1 hkinds
    | cons c tail =>
      rw [List.cons_append, List.cons.injEq] at hrest
      obtain ⟨rfl, hrest⟩ := hrest
      obtain ⟨tail, rfl, hback⟩ := part_le hsecond hrest
      exact Or.inr ⟨tail, by simp, hback⟩

-- Two such lists are equal when all their parts are, or when one is shifted
-- against the other.
theorem framed_eq_iff {front first second back front' first' second' back' : List α}
    (hfirst : separator ∉ first) (hsecond : separator ∉ second) (hfirst' : separator ∉ first')
    (hsecond' : separator ∉ second') (hkinds : second ≠ first') (hkinds' : second' ≠ first) :
    framed separator front first second back = framed separator front' first' second' back' ↔
      (front = front' ∧ first = first' ∧ second = second' ∧ back = back') ∨
        Shifted separator front first second back front' first' second' back' ∨
          Shifted separator front' first' second' back' front first second back := by
  constructor
  · intro h
    rcases List.append_eq_append_iff.mp h with ⟨more, rfl, hrest⟩ | ⟨more, rfl, hrest⟩
    · rcases shifted_of_longer hfirst hsecond hfirst' hsecond' hkinds hrest with hsame | hshift
      · obtain ⟨rfl, hf, hs, hb⟩ := hsame
        exact Or.inl ⟨by simp, hf, hs, hb⟩
      · exact Or.inr (Or.inl hshift)
    · rcases shifted_of_longer hfirst' hsecond' hfirst hsecond hkinds' hrest with hsame | hshift
      · obtain ⟨rfl, hf, hs, hb⟩ := hsame
        exact Or.inl ⟨by simp, hf.symm, hs.symm, hb.symm⟩
      · exact Or.inr (Or.inr hshift)
  · rintro (⟨rfl, rfl, rfl, rfl⟩ | hshift | hshift)
    · rfl
    · exact hshift.framed_eq
    · exact hshift.framed_eq.symm

end Cuts

end PosChain.Separated
