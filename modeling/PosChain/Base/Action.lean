import Mathlib

namespace PosChain

-- The two ways a call ends without a result. A panic unwinds to the caller
-- that recovers it; an error is returned.
inductive Fault where
  | error (text : String)
  | panic (text : String)
  deriving DecidableEq, Repr

-- A check reads no state. An action keeps the state it has reached when it
-- faults, so that undoing its writes is a decision of the caller.
abbrev Check := Except Fault

abbrev Action (σ : Type) := EStateM Fault σ

instance {σ : Type} : MonadLift Check (Action σ) where
  monadLift check := fun s =>
    match check with
    | .ok a => .ok a s
    | .error e => .error e s

def failIf (condition : Bool) (text : String) : Check Unit :=
  if condition then .error (.error text) else .ok ()

def orFail {α : Type} (value : Option α) (fault : Fault) : Check α :=
  match value with
  | some a => .ok a
  | none => .error fault

-- A library error is passed on with its own text.
def passOn {α : Type} (result : Except String α) : Check α :=
  result.mapError Fault.error

def nilDereference : Fault :=
  .panic "runtime error: invalid memory address or nil pointer dereference"

-- An error whose text is put into another one. A panic passes through.
def Fault.reword (reword : String → String) : Fault → Fault
  | .error text => .error (reword text)
  | .panic text => .panic text

-- An error behind a description of what failed.
def annotate {α : Type} (description : String) (check : Check α) : Check α :=
  check.mapError (Fault.reword (description ++ ": " ++ ·))

def rewordError {σ α : Type} (reword : String → String) (action : Action σ α) : Action σ α := fun s =>
  match action.run s with
  | .ok a next => .ok a next
  | .error fault next => .error (fault.reword reword) next

def wrapError {σ α : Type} (description : String) (action : Action σ α) : Action σ α :=
  rewordError (description ++ ": " ++ ·) action

def onPart {σ τ α : Type} (read : σ → τ) (write : τ → σ → σ) (action : Action τ α) : Action σ α :=
  fun s =>
    match action.run (read s) with
    | .ok a part => .ok a (write part s)
    | .error e part => .error e (write part s)

def runIf {σ : Type} (condition : Bool) (action : Action σ Unit) : Action σ Unit :=
  if condition then action else pure ()

-- A caller that has no error to return raises it as a panic.
def must {α : Type} (check : Check α) : Check α :=
  check.mapError fun fault =>
    match fault with
    | .error text => .panic text
    | .panic text => .panic text

-- A caller that keeps the writes of an action only when it succeeds.
def kept {σ α : Type} : EStateM.Result Fault σ α → Option (α × σ)
  | .ok a next => some (a, next)
  | .error _ _ => none

def endState {σ α : Type} : EStateM.Result Fault σ α → σ
  | .ok _ t => t
  | .error _ t => t

section Check

variable {α β : Type}

theorem Check.bind_eq_ok (x : Check α) (f : α → Check β) (b : β) :
    (x >>= f) = .ok b ↔ ∃ a, x = .ok a ∧ f a = .ok b := by
  cases x with
  | error e => simp [bind, Except.bind]
  | ok a => simp [bind, Except.bind]

theorem Check.pure_eq_ok (a b : α) : (pure a : Check α) = .ok b ↔ a = b := by
  simp [pure, Except.pure]

@[simp] theorem failIf_eq_ok (condition : Bool) (text : String) (u : Unit) :
    failIf condition text = .ok u ↔ condition = false := by
  cases condition <;> simp [failIf]

@[simp] theorem orFail_eq_ok (value : Option α) (fault : Fault) (a : α) :
    orFail value fault = .ok a ↔ value = some a := by
  cases value <;> simp [orFail]

@[simp] theorem must_eq_ok (check : Check α) (a : α) : must check = .ok a ↔ check = .ok a := by
  cases check <;> simp [must, Except.mapError]

theorem mapError_eq_ok {ε ε' : Type} (result : Except ε α) (f : ε → ε') (a : α) :
    result.mapError f = .ok a ↔ result = .ok a := by
  cases result <;> simp [Except.mapError]

@[simp] theorem annotate_eq_ok (description : String) (check : Check α) (a : α) :
    annotate description check = .ok a ↔ check = .ok a :=
  mapError_eq_ok check _ a

theorem passOn_eq_ok (result : Except String α) (a : α) : passOn result = .ok a ↔ result = .ok a :=
  mapError_eq_ok result _ a

end Check

-- A successful action is taken apart from its first step on. These rules leave
-- one conjunct for each check and one equation for the final state.
section Action

variable {σ α β : Type}

theorem run_bind_eq_ok (x : Action σ α) (f : α → Action σ β) (s t : σ) (b : β) :
    (x >>= f).run s = .ok b t ↔ ∃ a r, x.run s = .ok a r ∧ (f a).run r = .ok b t := by
  rw [EStateM.run_bind]
  cases x.run s <;> simp

theorem run_pure_eq_ok (a b : α) (s t : σ) :
    (pure a : Action σ α).run s = .ok b t ↔ a = b ∧ s = t := by
  simp [EStateM.run_pure]

theorem run_lift_eq_ok (check : Check α) (s t : σ) (a : α) :
    EStateM.run (liftM check : Action σ α) s = .ok a t ↔ check = .ok a ∧ s = t := by
  cases check <;> simp [liftM, monadLift, MonadLift.monadLift, EStateM.run]

theorem run_modify_eq_ok (f : σ → σ) (s t : σ) (u : PUnit) :
    (modify f : Action σ PUnit).run s = .ok u t ↔ f s = t := by
  simp [EStateM.run_modify]

theorem run_runIf_eq_ok (condition : Bool) (action : Action σ Unit) (s t : σ) (u : Unit) :
    (runIf condition action).run s = .ok u t ↔
      if condition then action.run s = .ok () t else s = t := by
  cases condition <;> simp [runIf]

theorem run_get_bind (f : σ → Action σ β) (s t : σ) (b : β) :
    ((get : Action σ σ) >>= f).run s = .ok b t ↔ (f s).run s = .ok b t := by
  simp [EStateM.run_get]

theorem run_lift_bind (check : Check α) (f : α → Action σ β) (s t : σ) (b : β) :
    EStateM.run ((liftM check : Action σ α) >>= f) s = .ok b t ↔
      ∃ a, check = .ok a ∧ (f a).run s = .ok b t := by
  simp only [run_bind_eq_ok, run_lift_eq_ok]
  constructor
  · rintro ⟨a, r, ⟨hc, rfl⟩, hf⟩
    exact ⟨a, hc, hf⟩
  · rintro ⟨a, hc, hf⟩
    exact ⟨a, s, ⟨hc, rfl⟩, hf⟩

theorem run_modify_bind (f : σ → σ) (g : PUnit → Action σ β) (s t : σ) (b : β) :
    ((modify f : Action σ PUnit) >>= g).run s = .ok b t ↔ (g ()).run (f s) = .ok b t := by
  simp [EStateM.run_modify]

theorem run_onPart_eq_ok {τ : Type} (read : σ → τ) (write : τ → σ → σ) (action : Action τ α) (s t : σ) (a : α) :
    (onPart read write action).run s = .ok a t ↔
      ∃ part, action.run (read s) = .ok a part ∧ t = write part s := by
  cases haction : action (read s) with
  | ok b part =>
    simp only [EStateM.run, onPart, haction, EStateM.Result.ok.injEq]
    constructor
    · rintro ⟨rfl, rfl⟩
      exact ⟨part, ⟨rfl, rfl⟩, rfl⟩
    · rintro ⟨_, ⟨rfl, rfl⟩, rfl⟩
      exact ⟨rfl, rfl⟩
  | error e part => simp [EStateM.run, onPart, haction]

@[simp] theorem rewordError_eq_ok (reword : String → String) (action : Action σ α) (s t : σ) (a : α) :
    (rewordError reword action).run s = .ok a t ↔ action.run s = .ok a t := by
  cases h : action s <;> simp [EStateM.run, rewordError, h]

@[simp] theorem wrapError_eq_ok (description : String) (action : Action σ α) (s t : σ) (a : α) :
    (wrapError description action).run s = .ok a t ↔ action.run s = .ok a t :=
  rewordError_eq_ok _ action s t a

theorem kept_eq_some (result : EStateM.Result Fault σ α) (a : α) (t : σ) :
    kept result = some (a, t) ↔ result = .ok a t := by
  cases result <;> simp [kept]

theorem kept_of_isSome {result : EStateM.Result Fault σ α} (h : (kept result).isSome = true) :
    ∃ a, kept result = some (a, endState result) := by
  cases result with
  | ok a t => exact ⟨a, rfl⟩
  | error e t => cases h

end Action

end PosChain
