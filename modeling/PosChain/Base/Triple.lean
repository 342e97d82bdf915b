import PosChain.Base.Action

namespace PosChain

-- What holds when an action has ended: one condition on the result and the state
-- after a success, and one on the state after an error. Nothing is said about a
-- panic, which discards the state.
section Triple

variable {σ τ α β : Type}

def Ends (result : EStateM.Result Fault σ α) (succeeded : α → σ → Prop) (failed : σ → Prop) : Prop :=
  match result with
  | .ok a t => succeeded a t
  | .error (.error _) t => failed t
  | .error (.panic _) _ => True

variable {succeeded succeeded' : α → σ → Prop} {failed failed' : σ → Prop}

theorem Ends.mono {result : EStateM.Result Fault σ α} (h : Ends result succeeded failed)
    (hs : ∀ a t, succeeded a t → succeeded' a t) (hf : ∀ t, failed t → failed' t) :
    Ends result succeeded' failed' := by
  match result with
  | .ok a t => exact hs a t h
  | .error (.error _) t => exact hf t h
  | .error (.panic _) _ => trivial

theorem Ends.of_ok {result : EStateM.Result Fault σ α} {a : α} {t : σ} (h : Ends result succeeded failed)
    (hok : result = .ok a t) : succeeded a t := by
  subst hok
  exact h

theorem Ends.of_error {result : EStateM.Result Fault σ α} {text : String} {t : σ}
    (h : Ends result succeeded failed) (herror : result = .error (.error text) t) : failed t := by
  subst herror
  exact h

theorem Ends.and_endState {result : EStateM.Result Fault σ α} (h : Ends result succeeded failed)
    (last : σ → Prop) (hlast : last (endState result)) :
    Ends result (fun a t => succeeded a t ∧ last t) (fun t => failed t ∧ last t) := by
  match result with
  | .ok a t => exact ⟨h, hlast⟩
  | .error (.error _) t => exact ⟨h, hlast⟩
  | .error (.panic _) _ => trivial

theorem ends_bind {x : Action σ α} {f : α → Action σ β} {s : σ} {final : β → σ → Prop}
    (middle : α → σ → Prop) (hx : Ends (x.run s) middle failed)
    (hf : ∀ a t, middle a t → Ends ((f a).run t) final failed) :
    Ends ((x >>= f).run s) final failed := by
  rw [EStateM.run_bind]
  cases hrun : x.run s with
  | ok a t =>
    rw [hrun] at hx
    exact hf a t hx
  | error fault t =>
    rw [hrun] at hx
    cases fault with
    | error text => exact hx
    | panic text => trivial

theorem ends_pure {a : α} {s : σ} (h : succeeded a s) :
    Ends ((pure a : Action σ α).run s) succeeded failed :=
  h

theorem ends_get_bind {f : σ → Action σ β} {s : σ} {final : β → σ → Prop}
    (h : Ends ((f s).run s) final failed) : Ends (((get : Action σ σ) >>= f).run s) final failed :=
  h

theorem ends_modify {f : σ → σ} {s : σ} {succeeded : PUnit → σ → Prop} (h : succeeded ⟨⟩ (f s)) :
    Ends ((modify f : Action σ PUnit).run s) succeeded failed :=
  h

theorem ends_lift {check : Check α} {s : σ} (hok : ∀ a, check = .ok a → succeeded a s)
    (herror : ∀ text, check = .error (.error text) → failed s) :
    Ends (EStateM.run (liftM check : Action σ α) s) succeeded failed := by
  match check with
  | .ok a => exact hok a rfl
  | .error (.error text) => exact herror text rfl
  | .error (.panic text) => trivial

theorem ends_nil_bind {value : Option α} {f : α → Action σ β} {s : σ} {final : β → σ → Prop}
    (h : ∀ a, value = some a → Ends ((f a).run s) final failed) :
    Ends (EStateM.run ((liftM (orFail value nilDereference) : Action σ α) >>= f) s) final failed := by
  cases value with
  | none => trivial
  | some a => exact h a rfl

theorem ends_runIf {condition : Bool} {action : Action σ Unit} {s : σ} {succeeded : Unit → σ → Prop}
    (htrue : condition = true → Ends (action.run s) succeeded failed)
    (hfalse : condition = false → succeeded () s) :
    Ends ((runIf condition action).run s) succeeded failed := by
  cases condition with
  | true => exact htrue rfl
  | false => exact hfalse rfl

theorem ends_onPart {read : σ → τ} {write : τ → σ → σ} {action : Action τ α} {s : σ}
    (h : Ends (action.run (read s)) (fun a part => succeeded a (write part s))
      (fun part => failed (write part s))) :
    Ends ((onPart read write action).run s) succeeded failed := by
  cases hrun : action.run (read s) with
  | ok a part =>
    rw [hrun] at h
    have honPart : (onPart read write action).run s = .ok a (write part s) := by
      rw [run_onPart_eq_ok]
      exact ⟨part, hrun, rfl⟩
    rw [honPart]
    exact h
  | error fault part =>
    rw [hrun] at h
    have honPart : (onPart read write action).run s = .error fault (write part s) := by
      have haction : action (read s) = .error fault part := hrun
      simp only [EStateM.run, onPart, haction]
    rw [honPart]
    cases fault with
    | error text => exact h
    | panic text => trivial

-- A caller that goes on after an error learns whether there was one.
def attempt (action : Action σ Unit) : Action σ Bool := fun s =>
  match action.run s with
  | .ok _ t => .ok true t
  | .error (.error _) t => .ok false t
  | .error (.panic text) t => .error (.panic text) t

theorem run_attempt (action : Action σ Unit) (s : σ) : (attempt action).run s = match action.run s with
    | .ok _ t => .ok true t
    | .error (.error _) t => .ok false t
    | .error (.panic text) t => .error (.panic text) t :=
  rfl

theorem attempt_eq_ok (action : Action σ Unit) (s t : σ) (succeeded : Bool) :
    (attempt action).run s = .ok succeeded t ↔
      succeeded = true ∧ action.run s = .ok () t ∨
        succeeded = false ∧ ∃ text, action.run s = .error (.error text) t := by
  rw [run_attempt]
  match action.run s with
  | .ok _ next =>
    cases succeeded <;> simp
  | .error (.error text) next =>
    cases succeeded <;> simp
  | .error (.panic text) next =>
    cases succeeded <;> simp

theorem ends_attempt {action : Action σ Unit} {s : σ} {kept : σ → Prop} {final : Bool → σ → Prop}
    (h : Ends (action.run s) (fun _ t => kept t) failed) (htrue : ∀ t, kept t → final true t)
    (hfalse : ∀ t, failed t → final false t) : Ends ((attempt action).run s) final failed' := by
  rw [run_attempt]
  match hrun : action.run s with
  | .ok _ t =>
    rw [hrun] at h
    exact htrue t h
  | .error (.error _) t =>
    rw [hrun] at h
    exact hfalse t h
  | .error (.panic _) t => trivial

theorem ends_forM {ι : Type} {step : ι → Action σ Unit} {kept : σ → Prop}
    (hstep : ∀ i t, kept t → Ends ((step i).run t) (fun _ u => kept u) kept) (items : List ι) {s : σ}
    (h : kept s) : Ends ((items.forM step).run s) (fun _ u => kept u) kept := by
  induction items generalizing s with
  | nil => exact h
  | cons item rest ih =>
    change Ends ((step item >>= fun _ => rest.forM step).run s) _ _
    exact ends_bind _ (hstep item s h) fun _ t ht => ih ht

end Triple

-- An action that fails, with an error or a panic, has changed nothing.
section Aborts

variable {σ α β : Type}

def Aborts (action : Action σ α) (s : σ) : Prop :=
  ∀ fault t, action.run s = .error fault t → t = s

theorem aborts_of_ok {action : Action σ α} {s t : σ} {a : α} (h : action.run s = .ok a t) :
    Aborts action s := by
  intro fault u hu
  rw [h] at hu
  cases hu

theorem aborts_modify (f : σ → σ) (s : σ) : Aborts (modify f : Action σ PUnit) s :=
  aborts_of_ok (t := f s) rfl

theorem aborts_get_bind {f : σ → Action σ β} {s : σ} (h : Aborts (f s) s) :
    Aborts ((get : Action σ σ) >>= f) s :=
  h

theorem aborts_lift_bind {check : Check α} {f : α → Action σ β} {s : σ}
    (h : ∀ a, check = .ok a → Aborts (f a) s) : Aborts ((liftM check : Action σ α) >>= f) s := by
  intro fault t ht
  match check with
  | .ok a => exact h a rfl fault t ht
  | .error _ =>
    cases ht
    rfl

theorem aborts_bind {x : Action σ α} {f : α → Action σ β} {s : σ} (hx : Aborts x s)
    (hf : ∀ a t, x.run s = .ok a t → ∃ b u, (f a).run t = .ok b u) : Aborts (x >>= f) s := by
  intro fault t ht
  rw [EStateM.run_bind] at ht
  cases hrun : x.run s with
  | ok a r =>
    obtain ⟨b, u, hu⟩ := hf a r hrun
    rw [hrun] at ht
    simp only [hu] at ht
    cases ht
  | error e r =>
    rw [hrun] at ht
    cases ht
    exact hx fault t hrun

end Aborts

end PosChain
