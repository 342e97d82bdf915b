import Mathlib

namespace PosChain.Run

-- A transactional step either rejects a call or answers it with a result and
-- the next state. A run applies calls in order; a rejected call is rolled back.
section Run

variable {σ α ρ : Type} (step : σ → α → Option (ρ × σ))

def after (s : σ) (call : α) : σ :=
  match step s call with
  | some (_, next) => next
  | none => s

def run (s : σ) (calls : List α) : σ :=
  calls.foldl (after step) s

-- The calls of a run that were accepted, in order, with their results.
def accepted : σ → List α → List (α × ρ)
  | _, [] => []
  | s, call :: rest =>
    match step s call with
    | some (result, next) => (call, result) :: accepted next rest
    | none => accepted s rest

-- Every accepted call of a run meets a condition on the state before it.
def Along (good : σ → α → Prop) : σ → List α → Prop
  | _, [] => True
  | s, call :: rest =>
    (∀ result next, step s call = some (result, next) → good s call) ∧
      Along good (after step s call) rest

-- What the accepted calls of a run are seen to do, each in the state it meets.
def trace {κ : Type} (observe : σ → α → Option κ) : σ → List α → List κ
  | _, [] => []
  | s, call :: rest =>
    match step s call with
    | some (_, next) => (observe s call).toList ++ trace observe next rest
    | none => trace observe s rest

def Reachable (initial : σ → Prop) (s : σ) : Prop :=
  ∃ first calls, initial first ∧ run step first calls = s

@[simp] theorem run_nil (s : σ) : run step s [] = s := rfl

@[simp] theorem run_cons (s : σ) (call : α) (rest : List α) :
    run step s (call :: rest) = run step (after step s call) rest := rfl

theorem run_append (s : σ) (first second : List α) :
    run step s (first ++ second) = run step (run step s first) second :=
  List.foldl_append

variable {step}

theorem after_of_some {s next : σ} {call : α} {result : ρ}
    (h : step s call = some (result, next)) : after step s call = next := by
  simp [after, h]

theorem after_of_none {s : σ} {call : α} (h : step s call = none) :
    after step s call = s := by
  simp [after, h]

theorem accepted_cons_some {s next : σ} {call : α} {result : ρ} (rest : List α)
    (h : step s call = some (result, next)) :
    accepted step s (call :: rest) = (call, result) :: accepted step next rest := by
  simp [accepted, h]

theorem accepted_cons_none {s : σ} {call : α} (rest : List α) (h : step s call = none) :
    accepted step s (call :: rest) = accepted step s rest := by
  simp [accepted, h]

-- What every accepted call that meets the condition preserves, of the state and of the
-- calls accepted on the way to it, holds after a run along which the condition holds.
theorem Along.history {good : σ → α → Prop} (inv : σ → List (α × ρ) → Prop)
    (hstep : ∀ s log call result next, step s call = some (result, next) → good s call → inv s log →
      inv next (log ++ [(call, result)]))
    {s : σ} {calls : List α} {log : List (α × ρ)} (h : Along step good s calls) (hs : inv s log) :
    inv (run step s calls) (log ++ accepted step s calls) := by
  induction calls generalizing s log with
  | nil => simpa [accepted] using hs
  | cons call rest ih =>
    obtain ⟨hcall, hrest⟩ := h
    rw [run_cons]
    cases hc : step s call with
    | none =>
      rw [after_of_none hc] at hrest ⊢
      rw [accepted_cons_none rest hc]
      exact ih hrest hs
    | some answer =>
      obtain ⟨result, next⟩ := answer
      rw [after_of_some hc] at hrest ⊢
      rw [accepted_cons_some rest hc, List.append_cons]
      exact ih hrest (hstep s log call result next hc (hcall result next hc) hs)

theorem Along.invariant {good : σ → α → Prop} (inv : σ → Prop)
    (hstep : ∀ s call result next, step s call = some (result, next) → good s call → inv s → inv next)
    {s : σ} {calls : List α} (h : Along step good s calls) (hs : inv s) : inv (run step s calls) :=
  @Along.history σ α ρ step good (fun s _ => inv s) (fun s _ => hstep s) s calls [] h hs

theorem along_trivial (s : σ) (calls : List α) : Along step (fun _ _ => True) s calls := by
  induction calls generalizing s with
  | nil => trivial
  | cons call rest ih => exact ⟨fun _ _ _ => trivial, ih _⟩

theorem run_history (inv : σ → List (α × ρ) → Prop)
    (hstep : ∀ s log call result next, step s call = some (result, next) → inv s log →
      inv next (log ++ [(call, result)]))
    (s : σ) (calls : List α) (log : List (α × ρ)) (hs : inv s log) :
    inv (run step s calls) (log ++ accepted step s calls) :=
  (along_trivial s calls).history inv (fun s log call result next h _ => hstep s log call result next h) hs

-- What every accepted call preserves holds after every run.
theorem run_invariant (inv : σ → Prop)
    (hstep : ∀ s call result next, step s call = some (result, next) → inv s → inv next)
    (s : σ) (calls : List α) (hs : inv s) : inv (run step s calls) :=
  run_history (fun s _ => inv s) (fun s _ => hstep s) s calls [] hs

theorem Reachable.invariant {initial : σ → Prop} (inv : σ → Prop) (hinit : ∀ s, initial s → inv s)
    (hstep : ∀ s call result next, step s call = some (result, next) → inv s → inv next)
    {s : σ} (hs : Reachable step initial s) : inv s := by
  obtain ⟨first, calls, hfirst, rfl⟩ := hs
  exact run_invariant inv hstep first calls (hinit first hfirst)

theorem Reachable.run {initial : σ → Prop} {s : σ} (hs : Reachable step initial s)
    (calls : List α) : Reachable step initial (Run.run step s calls) := by
  obtain ⟨first, earlier, hfirst, rfl⟩ := hs
  exact ⟨first, earlier ++ calls, hfirst, run_append step first earlier calls⟩

theorem Reachable.next {initial : σ → Prop} {s next : σ} {call : α} {result : ρ}
    (hs : Reachable step initial s) (h : step s call = some (result, next)) :
    Reachable step initial next := by
  have hr := hs.run [call]
  rwa [run_cons, run_nil, after_of_some h] at hr

theorem accepted_of_step (inv : σ → Prop) (good : α → ρ → Prop)
    (hstep : ∀ s call result next, step s call = some (result, next) → inv s →
      good call result ∧ inv next)
    (s : σ) (calls : List α) (hs : inv s) :
    ∀ entry ∈ accepted step s calls, good entry.1 entry.2 := by
  refine (run_history (fun s log => inv s ∧ ∀ entry ∈ log, good entry.1 entry.2) ?_ s calls []
    ⟨hs, by simp⟩).2
  rintro s log call result next h ⟨hs, hlog⟩
  obtain ⟨hgood, hnext⟩ := hstep s call result next h hs
  refine ⟨hnext, fun entry hentry => ?_⟩
  rcases List.mem_append.mp hentry with hold | hnew
  · exact hlog entry hold
  · rw [List.mem_singleton.mp hnew]
    exact hgood

theorem mem_of_mem_accepted (s : σ) (calls : List α) :
    ∀ entry ∈ accepted step s calls, entry.1 ∈ calls := by
  induction calls generalizing s with
  | nil => simp [accepted]
  | cons call rest ih =>
    intro entry he
    cases h : step s call with
    | none =>
      rw [accepted_cons_none rest h] at he
      exact List.mem_cons_of_mem call (ih s entry he)
    | some answer =>
      obtain ⟨result, next⟩ := answer
      rw [accepted_cons_some rest h] at he
      rcases List.mem_cons.mp he with rfl | he
      · exact List.mem_cons_self
      · exact List.mem_cons_of_mem call (ih next entry he)

-- A quantity that each accepted call moves by an amount of its own moves over
-- a run by the sum of these amounts.
theorem run_sum {M : Type} [AddCommMonoid M] (inv : σ → Prop) (total : σ → M) (amount : α → ρ → M)
    (hstep : ∀ s call result next, step s call = some (result, next) → inv s →
      total next = total s + amount call result ∧ inv next)
    (s : σ) (calls : List α) (hs : inv s) :
    total (run step s calls) =
      total s + ((accepted step s calls).map fun entry => amount entry.1 entry.2).sum := by
  refine (run_history (fun t log => inv t ∧
    total t = total s + (log.map fun entry => amount entry.1 entry.2).sum) ?_ s calls [] ⟨hs, by simp⟩).2
  rintro t log call result next h ⟨ht, htotal⟩
  obtain ⟨hadded, hnext⟩ := hstep t call result next h ht
  exact ⟨hnext, by simp [hadded, htotal, add_assoc]⟩

theorem along_append (good : σ → α → Prop) (s : σ) (first second : List α) :
    Along step good s (first ++ second) ↔
      Along step good s first ∧ Along step good (run step s first) second := by
  induction first generalizing s with
  | nil => simp [Along]
  | cons call rest ih => simp [Along, ih, and_assoc]

-- A condition holds along a run when it holds at each accepted call of it.
theorem along_iff_split (good : σ → α → Prop) (s : σ) (calls : List α) :
    Along step good s calls ↔ ∀ before call later result next, calls = before ++ call :: later →
      step (run step s before) call = some (result, next) → good (run step s before) call := by
  constructor
  · rintro h before call later result next rfl haccepted
    rw [along_append] at h
    exact h.2.1 result next haccepted
  · intro h
    induction calls generalizing s with
    | nil => trivial
    | cons call rest ih =>
      refine ⟨fun result next haccepted => h [] call rest result next rfl haccepted, ?_⟩
      apply ih
      intro before other later result next hrest haccepted
      exact h (call :: before) other later result next (by rw [hrest]; rfl) haccepted

theorem along_of_accepted (good : α → Prop) (s : σ) (calls : List α)
    (h : ∀ entry ∈ accepted step s calls, good entry.1) :
    Along step (fun _ call => good call) s calls := by
  induction calls generalizing s with
  | nil => trivial
  | cons call rest ih =>
    cases hc : step s call with
    | none =>
      rw [accepted_cons_none rest hc] at h
      refine ⟨fun result next hn => by simp [hc] at hn, ?_⟩
      rw [after_of_none hc]
      exact ih s h
    | some answer =>
      obtain ⟨result, next⟩ := answer
      rw [accepted_cons_some rest hc, List.forall_mem_cons] at h
      refine ⟨fun _ _ _ => h.1, ?_⟩
      rw [after_of_some hc]
      exact ih next h.2

end Run

-- A marker that an accepted call sets for its key, that an accepted call
-- requires to be clear and that no call clears, admits one call for each key.
section Once

variable {σ α ρ κ : Type} {step : σ → α → Option (ρ × σ)}

theorem trace_cons_some {observe : σ → α → Option κ} {s next : σ} {call : α} {result : ρ}
    (rest : List α) (h : step s call = some (result, next)) :
    trace step observe s (call :: rest) = (observe s call).toList ++ trace step observe next rest := by
  simp [trace, h]

theorem trace_cons_none {observe : σ → α → Option κ} {s : σ} {call : α} (rest : List α)
    (h : step s call = none) : trace step observe s (call :: rest) = trace step observe s rest := by
  simp [trace, h]

-- A key that does not depend on the state is traced over the accepted calls.
theorem trace_eq_filterMap (key : α → Option κ) (s : σ) (calls : List α) :
    trace step (fun _ call => key call) s calls =
      (accepted step s calls).filterMap fun entry => key entry.1 := by
  induction calls generalizing s with
  | nil => rfl
  | cons call rest ih =>
    cases h : step s call with
    | none => rw [trace_cons_none rest h, accepted_cons_none rest h, ih]
    | some answer =>
      obtain ⟨result, next⟩ := answer
      rw [trace_cons_some rest h, accepted_cons_some rest h, ih, List.filterMap_cons]
      cases key call <;> rfl

theorem trace_nodup (observe : σ → α → Option κ) (marked : σ → κ → Prop)
    (hkeep : ∀ s call result next k, step s call = some (result, next) → marked s k →
      marked next k)
    (hset : ∀ s call result next k, step s call = some (result, next) → observe s call = some k →
      ¬ marked s k ∧ marked next k)
    (s : σ) (calls : List α) :
    (trace step observe s calls).Nodup ∧ ∀ k ∈ trace step observe s calls, ¬ marked s k := by
  induction calls generalizing s with
  | nil => simp [trace]
  | cons call rest ih =>
    cases h : step s call with
    | none =>
      rw [trace_cons_none rest h]
      exact ih s
    | some answer =>
      obtain ⟨result, next⟩ := answer
      obtain ⟨hnodup, hclear⟩ := ih next
      have hlater : ∀ k ∈ trace step observe next rest, ¬ marked s k := by
        intro k hk hmarked
        exact hclear k hk (hkeep s call result next k h hmarked)
      rw [trace_cons_some rest h]
      cases hk : observe s call with
      | none => exact ⟨hnodup, hlater⟩
      | some key =>
        obtain ⟨hfresh, hmarked⟩ := hset s call result next key h hk
        refine ⟨List.nodup_cons.mpr ⟨fun hmem => hclear key hmem hmarked, hnodup⟩, ?_⟩
        intro k hmem
        rcases List.mem_cons.mp hmem with rfl | hmem
        · exact hfresh
        · exact hlater k hmem

theorem accepted_key_nodup (key : α → Option κ) (marked : σ → κ → Prop)
    (hkeep : ∀ s call result next k, step s call = some (result, next) → marked s k →
      marked next k)
    (hset : ∀ s call result next k, step s call = some (result, next) → key call = some k →
      ¬ marked s k ∧ marked next k)
    (s : σ) (calls : List α) :
    ((accepted step s calls).filterMap fun entry => key entry.1).Nodup := by
  rw [← trace_eq_filterMap]
  exact (trace_nodup (fun _ call => key call) marked hkeep hset s calls).1

end Once

end PosChain.Run
