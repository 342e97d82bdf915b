import PosChain.Evm.Execution.Logged

namespace PosChain.Evm

open StateDB

variable {W : Type} {env : Env W}

-- The state in which the flush of a precompile call starts.
def entering (s : StateDB W) : StateDB W :=
  { (Machine.held s).append (.precompileCallChange s.cacheOrNew.stores.saved.length
      (Machine.held s).cacheCtx.events (Machine.held s).processedEventsCount) with
    precompileCallsCounter := (Machine.held s).precompileCallsCounter + 1 }

section Runs

variable {m n : Machine W} {place : Place} {u : Unit}

theorem enterPrecompile_ok (hrun : (Machine.enterPrecompile env).run m = .ok u n) :
    ∃ db, (StateDB.flushToCacheCtx env).run (entering m.db) = .ok u db ∧ n = m.setDb db := by
  rw [Machine.enterPrecompile, run_modify_bind, run_get_bind, run_lift_bind] at hrun
  obtain ⟨pair, hpair, hrun⟩ := hrun
  obtain rfl := Except.ok.inj ((Machine.multiStoreSnapshot_getCacheContext m.db).symm.trans hpair)
  dsimp only at hrun
  rw [run_bind_eq_ok] at hrun
  obtain ⟨_, first, hset, hrun⟩ := hrun
  cases hset
  rw [run_bind_eq_ok] at hrun
  obtain ⟨_, second, hentry, hflush⟩ := hrun
  obtain ⟨entered, hentered, rfl⟩ := (run_onPart_eq_ok _ _ _ _ _ _).mp hentry
  rw [addPrecompileFn, run_get_bind, run_lift_bind] at hentered
  obtain ⟨_, -, hentered⟩ := hentered
  rw [run_modify_bind, run_get_bind, run_lift_eq_ok] at hentered
  obtain ⟨-, rfl⟩ := hentered
  obtain ⟨db, hdb, rfl⟩ := (run_onPart_eq_ok _ _ _ _ _ _).mp hflush
  exact ⟨db, hdb, rfl⟩

theorem history_runIf {condition : Bool} {action : Action (Machine W) Unit}
    (hrun : (runIf condition action).run m = .ok u n)
    (h : action.run m = .ok () n → n.history = m.history) : n.history = m.history := by
  rw [run_runIf_eq_ok] at hrun
  cases condition with
  | false =>
    obtain rfl : m = n := hrun
    rfl
  | true => exact h hrun

theorem history_revert {revid : Nat} (hrun : (Machine.revertToSnapshot env revid).run m = .ok u n) :
    n.history = m.history := by
  rw [Machine.revertToSnapshot, run_get_bind, run_lift_bind] at hrun
  obtain ⟨db, -, hset⟩ := hrun
  cases hset
  rfl

end Runs

def HistoryMeets (regular : Step W → Prop) (m : Machine W) : Prop :=
  ∀ step ∈ m.history, regular step

theorem HistoryMeets.of_ran {regular : Step W → Prop} {place : Place} {m n : Machine W}
    (h : HistoryMeets regular n) (hran : Ran env place m n) : HistoryMeets regular m := by
  obtain ⟨steps, hhistory, -⟩ := hran
  intro step hstep
  apply h
  rw [hhistory]
  exact List.mem_append_right steps hstep

-- What every step of an execution has to keep for it to hold at the end. The events
-- that the cache context held when the innermost precompile call was entered are
-- given along, and the place tells whether the EVM or an action runs.
structure Invariant (env : Env W) (regular : Step W → Prop)
    (holds : List Event → Place → Machine W → Prop) : Prop where
  issue : ∀ {base m o db}, holds base .evm m → regular (.op o m.db) → o.apply env m.db = .ok db →
    holds base .evm (m.record (.op o m.db) |>.setDb db)
  snapshot : ∀ {base m}, holds base .evm m → holds base .evm (m.setDb m.db.snapshot.2)
  revert : ∀ {base m n steps}, holds base .evm m → n.history = steps ++ m.history →
    Restored env (destructedIn steps) m.db n.db → holds base .evm n
  enter : ∀ {base m db} handled, holds base .evm m →
    (StateDB.flushToCacheCtx env).run (entering m.db) = .ok () db →
      holds db.cacheCtx.events (.action handled) (m.setDb db)
  native : ∀ {base m handled after}, holds base (.action handled) m →
    regular (.native handled m.db.cacheCtx after) →
      holds base (.action handled) (m.record (.native handled m.db.cacheCtx after) |>.setDb
        (m.db.setCacheCtx after))
  reenter : ∀ {base m handled}, holds base (.action handled) m → regular (.reenter m.db) →
    holds base .evm (m.record (.reenter m.db))
  flush : ∀ {base m db} handled, holds base .evm m →
    (StateDB.flushToCacheCtx env).run m.db = .ok () db → holds base (.action handled) (m.setDb db)
  handle : ∀ {base m db}, holds base (.action true) m →
    (StateDB.afterBalanceChange env base.length).run m.db = .ok () db → holds base .evm (m.setDb db)
  unhandled : ∀ {base m}, holds base (.action false) m → holds base .evm m
  leave : ∀ {base m db n}, holds base .evm m →
    (StateDB.flushToCacheCtx env).run (entering m.db) = .ok () db →
      holds db.cacheCtx.events .evm n → holds base .evm n

namespace Invariant

variable {regular : Step W → Prop} {holds : List Event → Place → Machine W → Prop} {base : List Event}
  {m n : Machine W} {u : Unit}

section

variable (h : Invariant env regular holds)

include h

theorem run_issue {o : Op} (hm : holds base .evm m)
    (hregular : HistoryMeets regular n) (hrun : (Machine.issue env o).run m = .ok u n) :
    holds base .evm n := by
  rw [Machine.issue, run_get_bind, run_lift_bind] at hrun
  obtain ⟨db, happly, hset⟩ := hrun
  cases hset
  exact h.issue hm (hregular (.op o m.db) List.mem_cons_self) happly

theorem run_issues {ops : List Op} (hm : holds base .evm m)
    (hregular : HistoryMeets regular n) (hrun : (ops.forM (Machine.issue env)).run m = .ok u n) :
    holds base .evm n := by
  induction ops generalizing m with
  | nil =>
    cases hrun
    exact hm
  | cons o rest ih =>
    change ((Machine.issue env o >>= fun _ => rest.forM (Machine.issue env)).run m) = _ at hrun
    rw [run_bind_eq_ok] at hrun
    obtain ⟨_, r, hfirst, hrest⟩ := hrun
    have hran : Ran env .evm r n := Ends.of_ok (a := u) (t := n) (Machine.ran_issues rest) hrest
    exact ih (h.run_issue hm (hregular.of_ran hran) hfirst) hrest

theorem run_revert {k : Machine W} {reverts : Bool}
    (hm : holds base .evm m) (hran : Ran env .evm (m.setDb m.db.snapshot.2) n)
    (hkept : reverts = false → holds base .evm n)
    (hrun : (runIf reverts (Machine.revertToSnapshot env m.db.snapshot.1)).run n = .ok u k) :
    holds base .evm k := by
  rw [run_runIf_eq_ok] at hrun
  cases reverts with
  | false =>
    obtain rfl : n = k := hrun
    exact hkept rfl
  | true =>
    obtain ⟨steps, hhistory, hlogged⟩ := hran
    obtain ⟨db, hrevert, hrestored⟩ := hlogged.restored
    rw [if_pos rfl, Machine.revertToSnapshot, run_get_bind, run_lift_bind] at hrun
    obtain ⟨found, hfound, hset⟩ := hrun
    obtain rfl : db = found := Except.ok.inj (hrevert.symm.trans hfound)
    cases hset
    exact h.revert hm hhistory hrestored

theorem run_call {handled : Bool} {action : Action (Machine W) Unit}
    (haction : ∀ (first last : Machine W) (base : List Event), action.run first = .ok () last →
      HistoryMeets regular last → holds base (.action handled) first → holds base (.action handled) last)
    (hm : holds base .evm m) (hregular : HistoryMeets regular n)
    (hrun : (Machine.runNativeAction env handled action).run m = .ok u n) : holds base .evm n := by
  rw [Machine.runNativeAction, run_bind_eq_ok] at hrun
  obtain ⟨_, first, henter, hrun⟩ := hrun
  rw [run_get_bind, run_bind_eq_ok] at hrun
  obtain ⟨_, last, hrun, hhandler⟩ := hrun
  obtain ⟨db, hflush, rfl⟩ := enterPrecompile_ok henter
  have hhistory : n.history = last.history := history_runIf hhandler fun hpart => by
    obtain ⟨part, -, rfl⟩ := (run_onPart_eq_ok _ _ _ _ _ _).mp hpart
    rfl
  have hmeets : HistoryMeets regular last := by
    rw [HistoryMeets, ← hhistory]
    exact hregular
  have hlast := haction _ last _ hrun hmeets (h.enter handled hm hflush)
  refine h.leave hm hflush ?_
  rw [run_runIf_eq_ok] at hhandler
  cases handled with
  | false =>
    obtain rfl : last = n := hhandler
    exact h.unhandled hlast
  | true =>
    obtain ⟨settled, hsettled, rfl⟩ := (run_onPart_eq_ok _ _ _ _ _ _).mp hhandler
    exact h.handle hlast hsettled

theorem exec {place : Place} (script : Script W place) {m n : Machine W}
    (base : List Event) (hrun : (Machine.exec env script).run m = .ok () n)
    (hregular : HistoryMeets regular n) (hm : holds base place m) : holds base place n := by
  induction script generalizing m n base with
  | done =>
    cases hrun
    exact hm
  | op o rest ih =>
    rw [Machine.exec, run_bind_eq_ok] at hrun
    obtain ⟨_, r, hissue, hrest⟩ := hrun
    have hran : Ran env .evm r n := Ends.of_ok (a := ()) (t := n) (Machine.ran_exec rest r) hrest
    exact ih base hrest hregular (h.run_issue hm (hregular.of_ran hran) hissue)
  | frame body reverts rest ihbody ihrest =>
    rw [Machine.exec, run_bind_eq_ok] at hrun
    obtain ⟨revid, opened, hopen, hrun⟩ := hrun
    cases hopen
    rw [run_bind_eq_ok] at hrun
    obtain ⟨_, inner, hbody, hrun⟩ := hrun
    rw [run_bind_eq_ok] at hrun
    obtain ⟨_, closed, hclose, hrest⟩ := hrun
    have hranBody : Ran env .evm (m.setDb m.db.snapshot.2) inner :=
      Ends.of_ok (a := ()) (t := inner) (Machine.ran_exec body _) hbody
    have hranRest : Ran env .evm closed n :=
      Ends.of_ok (a := ()) (t := n) (Machine.ran_exec rest closed) hrest
    have hinner : HistoryMeets regular inner := by
      rw [HistoryMeets, ← history_runIf hclose history_revert]
      exact hregular.of_ran hranRest
    have hkept := ihbody base hbody hinner (h.snapshot hm)
    exact ihrest base hrest hregular (h.run_revert hm hranBody (fun _ => hkept) hclose)
  | precompile before handled action fails rest ihaction ihrest =>
    rw [Machine.exec, run_bind_eq_ok] at hrun
    obtain ⟨revid, opened, hopen, hrun⟩ := hrun
    cases hopen
    rw [run_bind_eq_ok] at hrun
    obtain ⟨_, funded, hbefore, hrun⟩ := hrun
    rw [run_bind_eq_ok] at hrun
    obtain ⟨succeeded, called, hcall, hrun⟩ := hrun
    rw [run_bind_eq_ok] at hrun
    obtain ⟨_, closed, hclose, hrest⟩ := hrun
    have hranBefore : Ran env .evm (m.setDb m.db.snapshot.2) funded :=
      Ends.of_ok (a := ()) (t := funded) (Machine.ran_issues before) hbefore
    have hranRest : Ran env .evm closed n :=
      Ends.of_ok (a := ()) (t := n) (Machine.ran_exec rest closed) hrest
    have hcalled : HistoryMeets regular called := by
      rw [HistoryMeets, ← history_runIf hclose history_revert]
      exact hregular.of_ran hranRest
    have hends : Ends ((Machine.runNativeAction env handled (Machine.exec env action)).run funded)
        (fun _ last => Ran env .evm funded last) (fun last => Ran env .evm funded last) :=
      Machine.ran_runNativeAction (Machine.ran_exec action)
    have hranCall : Ran env .evm funded called := by
      rcases (attempt_eq_ok _ _ _ _).mp hcall with ⟨-, hok⟩ | ⟨-, text, herror⟩
      · exact hends.of_ok hok
      · exact hends.of_error herror
    have hfunded := h.run_issues (h.snapshot hm) (hcalled.of_ran hranCall) hbefore
    refine ihrest base hrest hregular (h.run_revert hm (hranBefore.trans hranCall) ?_ hclose)
    intro hkept
    rcases (attempt_eq_ok _ _ _ _).mp hcall with ⟨-, hok⟩ | ⟨rfl, -⟩
    · exact h.run_call
        (fun first last base hlast hmeets hfirst => ihaction base hlast hmeets hfirst) hfunded hcalled hok
    · cases hkept
  | native handled act rest ih =>
    rw [Machine.exec, run_bind_eq_ok] at hrun
    obtain ⟨_, r, hnative, hrest⟩ := hrun
    have hran : Ran env (.action handled) r n :=
      Ends.of_ok (a := ()) (t := n) (Machine.ran_exec rest r) hrest
    rw [Machine.native, run_modify_eq_ok] at hnative
    subst hnative
    exact ih base hrest hregular (h.native hm (hregular.of_ran hran _ List.mem_cons_self))
  | reenter handled body rest ihbody ihrest =>
    rw [Machine.exec, run_modify_bind, run_bind_eq_ok] at hrun
    obtain ⟨_, returned, hbody, hrun⟩ := hrun
    rw [run_bind_eq_ok] at hrun
    obtain ⟨_, flushed, hflush, hrest⟩ := hrun
    obtain ⟨db, hdb, rfl⟩ := (run_onPart_eq_ok _ _ _ _ _ _).mp hflush
    have hranBody : Ran env .evm (m.record (.reenter m.db)) returned :=
      Ends.of_ok (a := ()) (t := returned) (Machine.ran_exec body _) hbody
    have hranRest : Ran env (.action handled) (returned.setDb db) n :=
      Ends.of_ok (a := ()) (t := n) (Machine.ran_exec rest _) hrest
    have hflushed := hregular.of_ran hranRest
    have hreturned : HistoryMeets regular returned := hflushed
    have hcalled := h.reenter hm (hreturned.of_ran hranBody (.reenter m.db) List.mem_cons_self)
    exact ihrest base hrest hregular (h.flush handled (ihbody base hbody hreturned hcalled) hdb)

end

end Invariant

end PosChain.Evm
