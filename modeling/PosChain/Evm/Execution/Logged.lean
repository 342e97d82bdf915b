import PosChain.Evm.StateDB.Revert

namespace PosChain.Evm

open StateDB

variable {W : Type} {env : Env W} {place : Place} {s t : StateDB W}

theorem Logged.congr {first second : List Address} (h : Logged env place first s t)
    (hmem : ∀ address, address ∈ first ↔ address ∈ second) : Logged env place second s t := by
  obtain ⟨added, hentries, hcore, hrest⟩ := h.journal
  rw [Core.forget_congr hmem] at hcore
  exact { h with journal := ⟨added, hentries, hcore, hrest⟩ }

theorem Logged.toPlace {destructed : List Address} (h : Logged env .evm destructed s t) :
    Logged env place destructed s t := by
  obtain ⟨added, hentries, hcore, ⟨view, hview, hagree⟩, hcreated⟩ := h.journal
  exact { h with journal := ⟨added, hentries, hcore, ⟨view, hview, Place.agree_of_eq hagree⟩, hcreated⟩ }

section Steps

theorem logged_snapshot : Logged env place [] s s.snapshot.2 where
  ctx := rfl
  txIndex := rfl
  journal := by
    have hsame : s.snapshot.2.core env = s.core env := core_eq_of_objects rfl rfl
    exact ⟨[], rfl, by simp [undoAll, hsame], ⟨_, rfl, Place.agree_refl _⟩, by simp⟩
  revisions := List.prefix_append _ _
  next := Nat.le_succ _
  grows := .of_eq rfl

-- An action may write whatever it likes to the cache context. The snapshots below it
-- and all the rest stay.
structure CacheOnly (s t : StateDB W) : Prop where
  rest : t = { s with cache := t.cache, processedEventsCount := t.processedEventsCount }
  below : t.cacheOrNew.stores.below = s.cacheOrNew.stores.below

namespace CacheOnly

theorem core (h : CacheOnly s t) : t.core env = s.core env := by
  rw [h.rest]
  exact core_eq_of_objects rfl rfl

theorem logged {handled : Bool} (h : CacheOnly s t) : Logged env (.action handled) [] s t := by
  refine .of_same ?_ ?_ ?_ h.core h.below ?_ (.of_eq ?_)
  all_goals rw [h.rest]

theorem trans {u : StateDB W} (h : CacheOnly s t) (h' : CacheOnly t u) : CacheOnly s u where
  rest := by
    rw [h'.rest, h.rest]
  below := h'.below.trans h.below

theorem setCacheCtx (s : StateDB W) (ctx : Ctx W) : CacheOnly s (s.setCacheCtx ctx) where
  rest := rfl
  below := rfl

theorem setProcessed (s : StateDB W) (count : Nat) :
    CacheOnly s { s with processedEventsCount := count } :=
  ⟨rfl, rfl⟩

end CacheOnly

theorem cacheOnly_flush :
    Ends ((flushToCacheCtx env).run s) (fun _ t => CacheOnly s t) (fun t => CacheOnly s t) := by
  refine ends_get_bind (ends_nil_bind fun _ _ => ends_bind (fun _ t => CacheOnly s t) ?_ ?_)
  · refine ends_onPart ?_
    cases (s.commitWithCtx env).run s.cacheCtx with
    | ok a ctx => exact .setCacheCtx s ctx
    | error fault ctx =>
      cases fault with
      | error text => exact .setCacheCtx s ctx
      | panic text => trivial
  · intro _ t ht
    exact ends_modify (ht.trans (.setProcessed t _))

theorem flushToCacheCtx_ok {u : Unit} (hrun : (flushToCacheCtx env).run s = .ok u t) :
    ∃ next, (s.commitWithCtx env).run s.cacheCtx = .ok () next ∧
      t = { s.setCacheCtx next with processedEventsCount := next.events.length } := by
  rw [flushToCacheCtx, run_get_bind, run_lift_bind] at hrun
  obtain ⟨cache, -, hrun⟩ := hrun
  rw [run_bind_eq_ok] at hrun
  obtain ⟨_, r, hcommit, hprocessed⟩ := hrun
  obtain ⟨next, hnext, rfl⟩ := (run_onPart_eq_ok _ _ _ _ _ _).mp hcommit
  rw [run_modify_eq_ok] at hprocessed
  exact ⟨next, hnext, hprocessed.symm⟩

theorem logged_applyEvent {event : Event} (h : s.applyEvent env event = .ok t) :
    Logged env place [] s t := by
  cases event with
  | coinSpent spender amount =>
    simp only [applyEvent] at h
    split at h
    · cases h
      exact .refl s
    · rw [Check.bind_eq_ok] at h
      obtain ⟨parsed, -, hsub⟩ := h
      exact logged_subBalance parsed hsub
  | coinReceived receiver amount =>
    simp only [applyEvent] at h
    split at h
    · cases h
      exact .refl s
    · simp only [Check.bind_eq_ok, Check.pure_eq_ok] at h
      obtain ⟨parsed, -, rfl⟩ := h
      exact logged_addBalance parsed
  | other type =>
    cases h
    exact .refl s

theorem logged_afterBalanceChange (prevEventsLen : Nat) :
    Ends ((afterBalanceChange env prevEventsLen).run s) (fun _ t => Logged env place [] s t)
      (fun t => Logged env place [] s t) := by
  refine ends_get_bind (ends_forM ?_ _ (.refl s))
  intro entry r hr
  refine ends_get_bind ?_
  split
  · exact ends_pure hr
  · refine ends_bind (fun next state => Logged env place [] r next ∧ state = r) (ends_lift ?_ ?_) ?_
    · intro next hnext
      exact ⟨logged_applyEvent hnext, rfl⟩
    · intro _ _
      exact hr
    · rintro next _ ⟨hnext, rfl⟩
      exact hr.trans hnext

end Steps

-- The state in which the action of a precompile starts: the entry of the call is on
-- the journal, and the snapshot it names is on the stack.
structure Entered (env : Env W) (s t : StateDB W) : Prop where
  ctx : t.ctx = s.ctx
  txIndex : t.txIndex = s.txIndex
  journal : t.journal.entries =
    .precompileCallChange s.cacheOrNew.stores.saved.length s.cacheOrNew.events s.processedEventsCount ::
      s.journal.entries
  core : t.core env = s.core env
  below : t.cacheOrNew.stores.below = s.cacheOrNew.stores.snapshot.2.below
  revisions : t.revisions = s.revisions
  grows : s.Grows t

namespace Entered

theorem logged {handled : Bool} {destructed : List Address} {u : StateDB W} (h : Entered env s t)
    (h' : Logged env (.action handled) destructed t u) : Logged env .evm destructed s u := by
  obtain ⟨added, hentries, hcore, ⟨view, hview, hagree⟩, hcreated⟩ := h'.journal
  have hworld : t.world = s.world := congrArg Ctx.world h.ctx
  have hbelow : s.cacheOrNew.stores.snapshot.2.below = view.cache.stores.below :=
    h.below.symm.trans hagree.symm
  have hrevert : view.cache.stores.revert s.cacheOrNew.stores.saved.length =
      some s.cacheOrNew.stores :=
    Snapshots.revert_of_below hbelow (s.cacheOrNew.stores.revert_modify_snapshot id)
  refine ⟨h'.ctx.trans h.ctx, h'.txIndex.trans h.txIndex,
    ⟨added ++ [.precompileCallChange s.cacheOrNew.stores.saved.length s.cacheOrNew.events
      s.processedEventsCount], ?_, ?_, ⟨s.cacheView, ?_, rfl⟩, ?_⟩, ?_, ?_, h.grows.trans h'.grows⟩
  · rw [hentries, h.journal, List.append_assoc]
    rfl
  · rw [h.core, hworld] at hcore
    exact undoAll_append_eq _ hcore rfl
  · refine undoAll_append_eq _ hview ?_
    simp [undoAll, undoCache, hrevert, cacheView]
  · intro address hmem
    rcases List.mem_append.mp hmem with hlater | hentry
    · cases hlive : s.stateObjects address with
      | none => rfl
      | some object =>
        obtain ⟨next, hnext, -⟩ := h.grows address object hlive
        rw [hcreated address hlater] at hnext
        cases hnext
    · cases List.mem_singleton.mp hentry
  · rw [← h.revisions]
    exact h'.revisions
  · rw [← h.revisions]
    exact h'.next

theorem flushed {u : StateDB W} (h : Entered env s t) (h' : CacheOnly t u) : Entered env s u where
  ctx := by rw [h'.rest]; exact h.ctx
  txIndex := by rw [h'.rest]; exact h.txIndex
  journal := by rw [h'.rest]; exact h.journal
  core := h'.core.trans h.core
  below := h'.below.trans h.below
  revisions := by rw [h'.rest]; exact h.revisions
  grows := h.grows.trans (.of_eq (by rw [h'.rest]))

end Entered

def destructedIn (steps : List (Step W)) : List Address :=
  steps.flatMap fun step =>
    match step with
    | .op o _ => o.destructs
    | _ => []

-- An execution extends the history, and its state is undone accordingly.
def Ran (env : Env W) (place : Place) (m n : Machine W) : Prop :=
  ∃ steps, n.history = steps ++ m.history ∧ Logged env place (destructedIn steps) m.db n.db

namespace Ran

variable {m n k : Machine W}

theorem refl (m : Machine W) : Ran env place m m :=
  ⟨[], rfl, .refl m.db⟩

theorem trans (h : Ran env place m n) (h' : Ran env place n k) : Ran env place m k := by
  obtain ⟨steps, hhistory, hlogged⟩ := h
  obtain ⟨steps', hhistory', hlogged'⟩ := h'
  refine ⟨steps' ++ steps, by rw [hhistory', hhistory, List.append_assoc], ?_⟩
  refine (hlogged.trans hlogged').congr fun address => ?_
  simp only [destructedIn, List.flatMap_append, List.mem_append]
  exact or_comm

theorem of_db (hhistory : n.history = m.history) (h : Logged env place [] m.db n.db) : Ran env place m n :=
  ⟨[], hhistory, h⟩

theorem toPlace (h : Ran env .evm m n) : Ran env place m n := by
  obtain ⟨steps, hhistory, hlogged⟩ := h
  exact ⟨steps, hhistory, hlogged.toPlace⟩

end Ran

namespace Machine

variable {m : Machine W}

theorem ran_issue (o : Op) :
    Ends ((issue env o).run m) (fun _ n => Ran env place m n) (fun n => Ran env place m n) := by
  refine ends_get_bind (ends_bind (fun db n => o.apply env m.db = .ok db ∧ n = m) (ends_lift ?_ ?_) ?_)
  · intro db hdb
    exact ⟨hdb, rfl⟩
  · intro _ _
    exact .refl m
  · rintro db _ ⟨hdb, rfl⟩
    exact ⟨[.op o _], rfl, (Op.logged hdb).congr fun address => by simp [destructedIn]⟩

theorem ran_issues (ops : List Op) :
    Ends ((ops.forM (issue env)).run m) (fun _ n => Ran env place m n) (fun n => Ran env place m n) := by
  refine ends_forM ?_ ops (.refl m)
  intro o n hn
  exact (ran_issue o).mono (fun _ _ h => hn.trans h) fun _ h => hn.trans h

theorem cacheOnly_flushMachine :
    Ends ((flushToCacheCtx env).run m)
      (fun _ n => n.history = m.history ∧ CacheOnly m.db n.db)
      (fun n => n.history = m.history ∧ CacheOnly m.db n.db) :=
  ends_onPart (cacheOnly_flush.mono (fun _ _ h => ⟨rfl, h⟩) fun _ h => ⟨rfl, h⟩)

-- The cache context with the snapshot that a precompile call takes.
def held (s : StateDB W) : StateDB W :=
  { s with cache := some { s.cacheOrNew with stores := s.cacheOrNew.stores.snapshot.2 } }

theorem multiStoreSnapshot_getCacheContext (s : StateDB W) :
    s.getCacheContext.multiStoreSnapshot = .ok (s.cacheOrNew.stores.saved.length, held s) :=
  rfl

theorem entered_addPrecompileFn :
    Ends ((addPrecompileFn s.cacheOrNew.stores.saved.length).run (held s)) (fun _ t => Entered env s t)
      (fun t => Entered env s t) := by
  have hentered : Entered env s
      { (held s).append (.precompileCallChange s.cacheOrNew.stores.saved.length (held s).cacheCtx.events
          (held s).processedEventsCount) with
        precompileCallsCounter := (held s).precompileCallsCounter + 1 } :=
    ⟨rfl, rfl, rfl, core_eq_of_objects rfl rfl, rfl, rfl, .of_eq rfl⟩
  refine ends_get_bind (ends_nil_bind fun _ _ => ends_bind (fun _ t => Entered env s t)
    (ends_modify hentered) ?_)
  intro _ t ht
  exact ends_get_bind (ends_lift (fun _ _ => ht) fun _ _ => ht)

theorem ends_enterPrecompile {P : Unit → Machine W → Prop} {Q : Machine W → Prop}
    (h : Ends ((do onPart Machine.db setDb (StateDB.addPrecompileFn m.db.cacheOrNew.stores.saved.length)
                   flushToCacheCtx env : Action (Machine W) Unit).run (m.setDb (held m.db))) P Q) :
    Ends ((enterPrecompile env).run m) P Q := by
  refine ends_bind (fun _ n => n = m.setDb m.db.getCacheContext) (ends_modify rfl) ?_
  rintro _ _ rfl
  refine ends_get_bind (ends_bind (fun pair _ =>
    pair = (m.db.cacheOrNew.stores.saved.length, held m.db)) (ends_lift ?_ ?_) ?_)
  · intro pair hpair
    exact (Except.ok.inj ((multiStoreSnapshot_getCacheContext m.db).symm.trans hpair)).symm
  · intro text htext
    cases (multiStoreSnapshot_getCacheContext m.db).symm.trans htext
  · rintro _ _ rfl
    refine ends_bind (fun _ n => n = m.setDb (held m.db)) rfl ?_
    rintro _ _ rfl
    exact h

theorem entered_enterPrecompile :
    Ends ((enterPrecompile env).run m) (fun _ n => n.history = m.history ∧ Entered env m.db n.db)
      (fun n => n.history = m.history ∧ Entered env m.db n.db) := by
  refine ends_enterPrecompile (ends_bind (fun _ n => n.history = m.history ∧ Entered env m.db n.db) ?_ ?_)
  · exact ends_onPart (entered_addPrecompileFn.mono (fun _ _ h => ⟨rfl, h⟩) fun _ h => ⟨rfl, h⟩)
  · rintro _ n ⟨hhistory, hentered⟩
    exact cacheOnly_flushMachine.mono (fun _ _ h => ⟨h.1.trans hhistory, hentered.flushed h.2⟩)
      fun _ h => ⟨h.1.trans hhistory, hentered.flushed h.2⟩

theorem ran_runNativeAction {handled : Bool} {action : Action (Machine W) Unit}
    (haction : ∀ n : Machine W, Ends (action.run n) (fun _ k => Ran env (.action handled) n k)
      (fun k => Ran env (.action handled) n k)) :
    Ends ((runNativeAction env handled action).run m) (fun _ n => Ran env .evm m n)
      (fun n => Ran env .evm m n) := by
  have hcall : ∀ n k : Machine W, n.history = m.history ∧ Entered env m.db n.db →
      Ran env (.action handled) n k → Ran env .evm m k := by
    rintro n k ⟨hhistory, hentered⟩ ⟨steps, hsteps, hlogged⟩
    exact ⟨steps, by rw [hsteps, hhistory], hentered.logged hlogged⟩
  refine ends_bind (fun _ n => n.history = m.history ∧ Entered env m.db n.db)
    (entered_enterPrecompile.mono (fun _ _ h => h) fun n h => hcall n n h (.refl n)) ?_
  intro _ n hn
  refine ends_get_bind (ends_bind (fun _ k => Ran env (.action handled) n k)
    ((haction n).mono (fun _ _ h => h) fun k hk => hcall n k hn hk) ?_)
  intro _ k hk
  refine ends_runIf (fun _ => ends_onPart ?_) fun _ => hcall n k hn hk
  exact (logged_afterBalanceChange _).mono
    (fun _ _ h => hcall n _ hn (hk.trans (.of_db rfl h))) fun _ h => hcall n _ hn (hk.trans (.of_db rfl h))

theorem ran_snapshot {n : Machine W} (h : Ran env place (m.setDb m.db.snapshot.2) n) : Ran env place m n := by
  obtain ⟨steps, hhistory, hlogged⟩ := h
  exact ⟨steps, hhistory, logged_snapshot.trans hlogged⟩

theorem ran_revertToSnapshot {n : Machine W} (h : Ran env .evm (m.setDb m.db.snapshot.2) n) :
    Ends ((revertToSnapshot env m.db.snapshot.1).run n) (fun _ k => Ran env .evm m k)
      (fun k => Ran env .evm m k) := by
  obtain ⟨steps, hhistory, hlogged⟩ := h
  obtain ⟨u, hrevert, hrestored⟩ := hlogged.restored
  refine ends_get_bind (ends_bind (fun db k => db = u ∧ k = n) (ends_lift ?_ ?_) ?_)
  · intro db hdb
    exact ⟨Except.ok.inj (hdb.symm.trans hrevert), rfl⟩
  · intro text htext
    cases hrevert.symm.trans htext
  · rintro _ _ ⟨rfl, rfl⟩
    exact ⟨steps, hhistory, hrestored.logged⟩

theorem ran_exec {place : Place} (script : Script W place) (m : Machine W) :
    Ends ((exec env script).run m) (fun _ n => Ran env place m n) (fun n => Ran env place m n) := by
  induction script generalizing m with
  | done => exact .refl m
  | op o rest ih =>
    refine ends_bind _ (ran_issue o) fun _ n hn => ?_
    exact (ih n).mono (fun _ _ h => hn.trans h) fun _ h => hn.trans h
  | frame body reverts rest ihbody ihrest =>
    refine ends_bind (fun revid n => revid = m.db.snapshot.1 ∧ n = m.setDb m.db.snapshot.2) ⟨rfl, rfl⟩ ?_
    rintro _ _ ⟨rfl, rfl⟩
    refine ends_bind (fun _ n => Ran env .evm (m.setDb m.db.snapshot.2) n)
      ((ihbody _).mono (fun _ _ h => h) fun _ h => ran_snapshot h) ?_
    intro _ n hn
    refine ends_bind (fun _ k => Ran env .evm m k)
      (ends_runIf (fun _ => ran_revertToSnapshot hn) fun _ => ran_snapshot hn) ?_
    intro _ k hk
    exact (ihrest k).mono (fun _ _ h => hk.trans h) fun _ h => hk.trans h
  | precompile before handled action fails rest ihaction ihrest =>
    refine ends_bind (fun revid n => revid = m.db.snapshot.1 ∧ n = m.setDb m.db.snapshot.2) ⟨rfl, rfl⟩ ?_
    rintro _ _ ⟨rfl, rfl⟩
    refine ends_bind (fun _ n => Ran env .evm (m.setDb m.db.snapshot.2) n)
      ((ran_issues before).mono (fun _ _ h => h) fun _ h => ran_snapshot h) ?_
    intro _ n hn
    refine ends_bind (fun _ k => Ran env .evm (m.setDb m.db.snapshot.2) k)
      (ends_attempt (ran_runNativeAction ihaction) (fun _ h => hn.trans h) fun _ h => hn.trans h) ?_
    intro succeeded k hk
    refine ends_bind (fun _ l => Ran env .evm m l)
      (ends_runIf (fun _ => ran_revertToSnapshot hk) fun _ => ran_snapshot hk) ?_
    intro _ l hl
    exact (ihrest l).mono (fun _ _ h => hl.trans h) fun _ h => hl.trans h
  | native handled act rest ih =>
    refine ends_bind (fun _ n => Ran env (.action handled) m n) ?_ ?_
    · exact ends_modify ⟨[.native handled _ _], rfl, (CacheOnly.setCacheCtx m.db _).logged⟩
    · intro _ n hn
      exact (ih n).mono (fun _ _ h => hn.trans h) fun _ h => hn.trans h
  | reenter handled body rest ihbody ihrest =>
    refine ends_bind (fun _ n => Ran env (.action handled) m n) (ends_modify ⟨[.reenter _], rfl, .refl _⟩) ?_
    intro _ n hn
    refine ends_bind (fun _ k => Ran env (.action handled) m k)
      ((ihbody n).mono (fun _ _ h => hn.trans h.toPlace) fun _ h => hn.trans h.toPlace) ?_
    intro _ k hk
    refine ends_bind (fun _ l => Ran env (.action handled) m l) ?_ ?_
    · exact cacheOnly_flushMachine.mono (fun _ _ h => hk.trans (.of_db h.1 h.2.logged))
        fun _ h => hk.trans (.of_db h.1 h.2.logged)
    · intro _ l hl
      exact (ihrest l).mono (fun _ _ h => hl.trans h) fun _ h => hl.trans h

end Machine

end PosChain.Evm
