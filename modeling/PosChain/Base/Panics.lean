import PosChain.Base.Action

namespace PosChain

-- Which computations end in a panic. A check or an action panics at its first
-- step that does, if all the steps before that one succeed.
section Panics

variable {σ τ α β : Type}

def Raises (check : Check α) : Prop :=
  ∃ text, check = .error (.panic text)

def Panics (result : EStateM.Result Fault σ α) : Prop :=
  ∃ text t, result = .error (.panic text) t

def panicked : EStateM.Result Fault σ α → Bool
  | .error (.panic _) _ => true
  | _ => false

theorem panics_of_panicked {result : EStateM.Result Fault σ α} (h : panicked result = true) : Panics result := by
  match result, h with
  | .error (.panic text) t, _ => exact ⟨text, t, rfl⟩

@[simp] theorem raises_ok (a : α) : ¬ Raises (.ok a : Check α) := by
  simp [Raises]

@[simp] theorem raises_pure (a : α) : ¬ Raises (pure a : Check α) :=
  raises_ok a

@[simp] theorem raises_error (text : String) : ¬ Raises (.error (.error text) : Check α) := by
  simp [Raises]

@[simp] theorem raises_failIf (condition : Bool) (text : String) : ¬ Raises (failIf condition text) := by
  cases condition <;> simp [failIf]

@[simp] theorem raises_orFail_error (value : Option α) (text : String) :
    ¬ Raises (orFail value (.error text)) := by
  cases value <;> simp [orFail]

@[simp] theorem raises_orFail_panic (value : Option α) (text : String) :
    Raises (orFail value (.panic text)) ↔ value = none := by
  cases value <;> simp [orFail, Raises]

@[simp] theorem raises_passOn (result : Except String α) : ¬ Raises (passOn result) := by
  cases result <;> simp [passOn, Except.mapError]

theorem raises_bind (check : Check α) (f : α → Check β) :
    Raises (check >>= f) ↔ Raises check ∨ ∃ a, check = .ok a ∧ Raises (f a) := by
  match check with
  | .ok a => simp [bind, Except.bind]
  | .error e => simp [Raises, bind, Except.bind]

@[simp] theorem raises_exceptMap (check : Check α) (f : α → β) : Raises (check.map f) ↔ Raises check := by
  match check with
  | .ok a => simp [Except.map]
  | .error e => simp [Raises, Except.map]

@[simp] theorem raises_map (check : Check α) (f : α → β) : Raises (f <$> check) ↔ Raises check :=
  raises_exceptMap check f

theorem panics_bind (x : Action σ α) (f : α → Action σ β) (s : σ) :
    Panics ((x >>= f).run s) ↔
      Panics (x.run s) ∨ ∃ a t, x.run s = .ok a t ∧ Panics ((f a).run t) := by
  rw [EStateM.run_bind]
  cases x.run s with
  | ok a t => simp [Panics]
  | error e t => simp [Panics]

theorem panics_lift (check : Check α) (s : σ) :
    Panics (EStateM.run (liftM check : Action σ α) s) ↔ Raises check := by
  match check with
  | .ok a => simp [Panics, liftM, monadLift, MonadLift.monadLift, EStateM.run]
  | .error e => simp [Panics, Raises, liftM, monadLift, MonadLift.monadLift, EStateM.run]

theorem panics_lift_bind (check : Check α) (f : α → Action σ β) (s : σ) :
    Panics (EStateM.run ((liftM check : Action σ α) >>= f) s) ↔
      Raises check ∨ ∃ a, check = .ok a ∧ Panics ((f a).run s) := by
  simp only [panics_bind, panics_lift, run_lift_eq_ok]
  constructor
  · rintro (h | ⟨a, t, ⟨ha, rfl⟩, h⟩)
    · exact Or.inl h
    · exact Or.inr ⟨a, ha, h⟩
  · rintro (h | ⟨a, ha, h⟩)
    · exact Or.inl h
    · exact Or.inr ⟨a, s, ⟨ha, rfl⟩, h⟩

theorem panics_get_bind (f : σ → Action σ β) (s : σ) :
    Panics (((get : Action σ σ) >>= f).run s) ↔ Panics ((f s).run s) := by
  simp [EStateM.run_get]

@[simp] theorem panics_pure (a : α) (s : σ) : ¬ Panics ((pure a : Action σ α).run s) := by
  simp [Panics, EStateM.run_pure]

@[simp] theorem panics_modify (f : σ → σ) (s : σ) : ¬ Panics ((modify f : Action σ PUnit).run s) := by
  simp [Panics, EStateM.run_modify]

@[simp] theorem panics_set (next s : σ) : ¬ Panics ((set next : Action σ PUnit).run s) := by
  simp [Panics, EStateM.run_set]

theorem panics_modify_bind (f : σ → σ) (g : PUnit → Action σ β) (s : σ) :
    Panics (((modify f : Action σ PUnit) >>= g).run s) ↔ Panics ((g ()).run (f s)) := by
  simp [EStateM.run_modify]

end Panics

end PosChain
