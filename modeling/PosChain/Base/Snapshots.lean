import PosChain.Base.Action

namespace PosChain

-- A value under a stack of saved values, over the value that was published last.
structure Snapshots (V : Type) where
  published : V
  current : V
  saved : List V

namespace Snapshots

variable {V : Type}

def new (value : V) : Snapshots V :=
  ⟨value, value, []⟩

def modify (s : Snapshots V) (change : V → V) : Snapshots V :=
  { s with current := change s.current }

-- The index of a snapshot is the height of the stack below it.
def snapshot (s : Snapshots V) : Nat × Snapshots V :=
  (s.saved.length, { s with saved := s.saved ++ [s.current] })

def revert (s : Snapshots V) (target : Nat) : Option (Snapshots V) :=
  s.saved[target]?.map fun value => { s with current := value, saved := s.saved.take target }

def write (s : Snapshots V) : Snapshots V :=
  new s.current

def below (s : Snapshots V) : V × List V :=
  (s.published, s.saved)

theorem revert_of_below {s t next : Snapshots V} {target : Nat} (hbelow : s.below = t.below)
    (h : s.revert target = some next) : t.revert target = some next := by
  obtain ⟨published, current, saved⟩ := s
  obtain ⟨published', current', saved'⟩ := t
  cases hbelow
  exact h

theorem revert_isSome (s : Snapshots V) (target : Nat) :
    (s.revert target).isSome = true ↔ target < s.saved.length := by
  simp [revert]

theorem revert_modify_snapshot (s : Snapshots V) (change : V → V) :
    (s.snapshot.2.modify change).revert s.snapshot.1 = some s := by
  simp [snapshot, modify, revert]

-- Whatever happens above a snapshot leaves the snapshots below it alone.
theorem revert_snapshot (s : Snapshots V) (change : V → V) (target : Nat) (h : target < s.saved.length) :
    (s.snapshot.2.modify change).revert target = s.revert target := by
  simp [snapshot, modify, revert, List.getElem?_append_left h, List.take_append_of_le_length h.le]

end Snapshots

end PosChain
