import PosChain.Base.Action

namespace PosChain

-- A log of entries, the newest one first, where each entry can be undone on a
-- view of the state. An entry that does not fit the view cannot be undone.
section UndoLog

variable {ε α : Type} (undo : ε → α → Option α)

def undoAll : List ε → α → Option α
  | [], view => some view
  | entry :: older, view => (undo entry view).bind (undoAll older)

theorem undoAll_append (newer older : List ε) (view : α) :
    undoAll undo (newer ++ older) view = (undoAll undo newer view).bind (undoAll undo older) := by
  induction newer generalizing view with
  | nil => rfl
  | cons entry rest ih =>
    simp only [List.cons_append, undoAll, Option.bind_assoc]
    congr 1
    funext next
    exact ih next

theorem undoAll_append_eq {newer older : List ε} {final middle first : α}
    (hnewer : undoAll undo newer final = some middle) (holder : undoAll undo older middle = some first) :
    undoAll undo (newer ++ older) final = some first := by
  rw [undoAll_append, hnewer, Option.bind_some, holder]

-- What undoing forgets may be forgotten before or after it.
theorem undoAll_map {forget : α → α} (hundo : ∀ entry view, undo entry (forget view) =
      (undo entry view).map forget) (entries : List ε) (view : α) :
    undoAll undo entries (forget view) = (undoAll undo entries view).map forget := by
  induction entries generalizing view with
  | nil => rfl
  | cons entry older ih =>
    simp only [undoAll, hundo, Option.bind_map, Option.map_bind]
    congr 1
    funext next
    exact ih next

-- Two views that agree on what the entries read are undone to views that agree.
theorem undoAll_agree {agree : α → α → Prop} (hundo : ∀ entry a b next, agree a b →
      undo entry a = some next → ∃ other, undo entry b = some other ∧ agree next other)
    (entries : List ε) {a b next : α} (hab : agree a b) (h : undoAll undo entries a = some next) :
    ∃ other, undoAll undo entries b = some other ∧ agree next other := by
  induction entries generalizing a b with
  | nil =>
    cases h
    exact ⟨b, rfl, hab⟩
  | cons entry older ih =>
    rw [undoAll, Option.bind_eq_some_iff] at h
    obtain ⟨middle, hentry, hrest⟩ := h
    obtain ⟨other, hother, hagree⟩ := hundo entry a b middle hab hentry
    obtain ⟨final, hfinal, hend⟩ := ih hagree hrest
    refine ⟨final, ?_, hend⟩
    rw [undoAll, hother, Option.bind_some, hfinal]

end UndoLog

end PosChain
