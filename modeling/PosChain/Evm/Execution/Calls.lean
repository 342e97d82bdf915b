import PosChain.Evm.Execution.Cache
import PosChain.Evm.Execution.Revert

namespace PosChain.Evm

open StateDB

variable {W : Type} {env : Env W} {s t : StateDB W}

-- No operation of the StateDB but the entry into a precompile moves the counter of
-- the calls of precompiles, and a revert does not take it back.
namespace StateDB

theorem counter_getStateObject (env : Env W) (s : StateDB W) (address : Address) :
    (s.getStateObject env address).2.precompileCallsCounter = s.precompileCallsCounter := by
  unfold getStateObject
  split
  · rfl
  · split <;> rfl

theorem counter_of_getStateObject {address : Address} {found : Option StateObject}
    (h : s.getStateObject env address = (found, t)) :
    t.precompileCallsCounter = s.precompileCallsCounter := by
  have hget := counter_getStateObject env s address
  rwa [h] at hget

theorem counter_apply {o : Op} (h : o.apply env s = .ok t) :
    t.precompileCallsCounter = s.precompileCallsCounter :=
  congrArg Outside.precompileCallsCounter (Op.outside h)

theorem counter_revertObject {address : Address} {write : StateObject → StateObject}
    (h : s.revertObject env address write = .ok t) :
    t.precompileCallsCounter = s.precompileCallsCounter := by
  unfold revertObject at h
  split at h
  · cases h
  · rename_i hget
    cases h
    exact (counter_of_getStateObject hget :)

theorem counter_revertCache {snapshot : Nat} {events : List Event}
    (h : s.revertCache snapshot events = .ok t) : t.precompileCallsCounter = s.precompileCallsCounter := by
  unfold revertCache at h
  split at h
  · cases h
  · split at h
    · cases h
    · cases h
      rfl

theorem counter_revertEntry {entry : JournalEntry} (h : s.revertEntry env entry = .ok t) :
    t.precompileCallsCounter = s.precompileCallsCounter := by
  cases entry with
  | createObjectChange account => obtain rfl := Except.ok.inj h; rfl
  | selfDestructChange account =>
    unfold revertEntry at h
    dsimp only at h
    split at h
    all_goals
      rename_i hget
      cases h
      exact (counter_of_getStateObject hget :)
  | balanceChange account prev => exact counter_revertObject h
  | nonceChange account prev => exact counter_revertObject h
  | storageChange account key prevalue => exact counter_revertObject h
  | transientStorageChange account key prevalue => obtain rfl := Except.ok.inj h; rfl
  | codeChange account prevcode prevhash => exact counter_revertObject h
  | refundChange prev => obtain rfl := Except.ok.inj h; rfl
  | addLogChange =>
    unfold revertEntry at h
    dsimp only at h
    split at h
    · cases h
    · cases h
      rfl
  | accessListAddAccountChange address => obtain rfl := Except.ok.inj h; rfl
  | accessListAddSlotChange address slot =>
    obtain ⟨accessList, -, hset⟩ := (Check.bind_eq_ok _ _ _).mp h
    cases hset
    rfl
  | precompileCallChange snapshot prevEvents prevProcessedEventCount =>
    obtain ⟨middle, hcache, hset⟩ := (Check.bind_eq_ok _ _ _).mp h
    cases hset
    exact (counter_revertCache hcache :)
  | createContractChange account => exact counter_revertObject h

theorem counter_revertEntries {entries : List JournalEntry} (h : revertEntries env entries s = .ok t) :
    t.precompileCallsCounter = s.precompileCallsCounter := by
  induction entries generalizing s with
  | nil => obtain rfl := Except.ok.inj h; rfl
  | cons entry older ih =>
    obtain ⟨middle, hentry, holder⟩ := (Check.bind_eq_ok _ _ _).mp h
    exact (ih holder).trans (counter_revertEntry hentry :)

theorem counter_revertToSnapshot {revid : Nat} (h : s.revertToSnapshot env revid = .ok t) :
    t.precompileCallsCounter = s.precompileCallsCounter := by
  unfold revertToSnapshot at h
  dsimp only at h
  split at h
  · cases h
  · split at h
    · cases h
    · obtain ⟨middle, hjournal, htake⟩ := (Check.bind_eq_ok _ _ _).mp h
      cases htake
      exact (counter_revertEntries hjournal :)

theorem counter_applyEvent {event : Event} (h : s.applyEvent env event = .ok t) :
    t.precompileCallsCounter = s.precompileCallsCounter := by
  cases event with
  | coinSpent spender amount =>
    unfold applyEvent at h
    dsimp only at h
    split at h
    · cases h
      rfl
    · obtain ⟨parsed, -, hsub⟩ := (Check.bind_eq_ok _ _ _).mp h
      exact counter_apply (o := .subBalance _ parsed) hsub
  | coinReceived receiver amount =>
    unfold applyEvent at h
    dsimp only at h
    split at h
    · cases h
      rfl
    · obtain ⟨parsed, -, hadd⟩ := (Check.bind_eq_ok _ _ _).mp h
      cases hadd
      exact counter_apply (o := .addBalance _ parsed) rfl
  | other type => obtain rfl := Except.ok.inj h; rfl

end StateDB

-- One attempt to call a precompile: the counter before it, whether its native
-- action was started, and whether the call succeeded.
structure PrecompileCall where
  before : UInt8
  ran : Bool
  succeeded : Bool

def isOk {σ α : Type} : EStateM.Result Fault σ α → Bool
  | .ok _ _ => true
  | .error _ _ => false

namespace Machine

def counter (m : Machine W) : UInt8 :=
  m.db.precompileCallsCounter

-- What is seen of an execution after a part of it, if that part does not fail.
def onSuccess {α : Type} (action : Action (Machine W) α) (m : Machine W)
    (next : α → Machine W → List PrecompileCall) : List PrecompileCall :=
  match action.run m with
  | .ok a t => next a t
  | .error _ _ => []

-- The attempts of an execution to call a precompile, in their order. Those that
-- the action of a call makes in the EVM follow the call itself.
def calls (env : Env W) : {place : Place} → Script W place → Machine W → List PrecompileCall
  | _, .done, _ => []
  | _, .op o rest, m => onSuccess (issue env o) m fun _ => calls env rest
  | _, .frame body reverts rest, m =>
    onSuccess snapshot m fun revid m =>
      calls env body m ++ onSuccess (exec env body) m fun _ m =>
        onSuccess (runIf reverts (revertToSnapshot env revid)) m fun _ => calls env rest
  | _, .precompile before handled action fails rest, m =>
    onSuccess snapshot m fun revid m =>
      onSuccess (before.forM (issue env)) m fun _ m =>
        (⟨m.counter, isOk ((enterPrecompile env).run m),
            isOk ((runNativeAction env handled (exec env action)).run m) && !fails⟩ ::
          onSuccess (enterPrecompile env) m fun _ => calls env action) ++
        onSuccess (attempt (runNativeAction env handled (exec env action))) m fun succeeded m =>
          onSuccess (runIf (!succeeded || fails) (revertToSnapshot env revid)) m fun _ => calls env rest
  | _, .native handled act rest, m => onSuccess (native handled act) m fun _ => calls env rest
  | _, .reenter _ body rest, m =>
    onSuccess (modify fun m => m.record (.reenter m.db)) m fun _ m =>
      calls env body m ++ onSuccess (exec env body) m fun _ m =>
        onSuccess (flushToCacheCtx env) m fun _ => calls env rest

end Machine

-- The counter goes up by one at every attempt, as a number of eight bits, and an
-- action is started only while it is within the cap.
def Counted : UInt8 → List PrecompileCall → Prop
  | _, [] => True
  | c, call :: rest =>
    call.before = c ∧ (call.ran = true → c + 1 ≤ maxPrecompileCalls) ∧
      (call.succeeded = true → call.ran = true) ∧ Counted (c + 1) rest

theorem counted_append (c : UInt8) (first second : List PrecompileCall) :
    Counted c (first ++ second) ↔ Counted c first ∧ Counted (c + .ofNat first.length) second := by
  induction first generalizing c with
  | nil => simp [Counted]
  | cons call rest ih =>
    have hnext : c + 1 + UInt8.ofNat rest.length = c + UInt8.ofNat (rest.length + 1) := by
      rw [UInt8.ofNat_add, UInt8.add_assoc, UInt8.add_comm 1]
      rfl
    rw [List.cons_append, Counted, Counted, ih, List.length_cons, hnext]
    simp only [and_assoc]

namespace Machine

variable {m : Machine W} {α β : Type}

def Tallies (action : Action (Machine W) α) (m : Machine W) (attempts : List PrecompileCall) : Prop :=
  Counted m.counter attempts ∧
    Ends (action.run m) (fun _ t => t.counter = m.counter + .ofNat attempts.length)
      (fun t => t.counter = m.counter + .ofNat attempts.length)

theorem tallies_none {action : Action (Machine W) α}
    (h : Ends (action.run m) (fun _ t => t.counter = m.counter) (fun t => t.counter = m.counter)) :
    Tallies action m [] := by
  refine ⟨trivial, h.mono ?_ ?_⟩
  · intro _ t ht
    simpa using ht
  · intro t ht
    simpa using ht

theorem tallies_bind {x : Action (Machine W) α} {f : α → Action (Machine W) β}
    {first : List PrecompileCall} {later : α → Machine W → List PrecompileCall}
    (hx : Tallies x m first) (hf : ∀ a t, Tallies (f a) t (later a t)) :
    Tallies (x >>= f) m (first ++ onSuccess x m later) := by
  obtain ⟨hcounted, hends⟩ := hx
  rw [Tallies, EStateM.run_bind, onSuccess]
  match hrun : x.run m with
  | .ok a t =>
    rw [hrun] at hends
    have ht : t.counter = m.counter + .ofNat first.length := hends
    obtain ⟨hlater, hlast⟩ := hf a t
    rw [ht] at hlater hlast
    refine ⟨(counted_append _ _ _).mpr ⟨hcounted, hlater⟩, hlast.mono ?_ ?_⟩
    · intro _ u hu
      rw [hu, List.length_append, UInt8.ofNat_add, UInt8.add_assoc]
    · intro u hu
      rw [hu, List.length_append, UInt8.ofNat_add, UInt8.add_assoc]
  | .error fault t =>
    rw [hrun] at hends
    rw [List.append_nil]
    cases fault with
    | error text => exact ⟨hcounted, hends⟩
    | panic text => exact ⟨hcounted, trivial⟩

theorem tallies_silent_bind {x : Action (Machine W) α} {f : α → Action (Machine W) β}
    {later : α → Machine W → List PrecompileCall}
    (hx : Tallies x m []) (hf : ∀ a t, Tallies (f a) t (later a t)) :
    Tallies (x >>= f) m (onSuccess x m later) :=
  tallies_bind hx hf

theorem tallies_attempt {action : Action (Machine W) Unit} {attempts : List PrecompileCall}
    (h : Tallies action m attempts) : Tallies (attempt action) m attempts :=
  ⟨h.1, ends_attempt h.2 (fun _ ht => ht) fun _ ht => ht⟩

theorem tallies_onPart {action : Action (StateDB W) Unit}
    (h : Ends (action.run m.db) (fun _ db => db.precompileCallsCounter = m.counter)
      (fun db => db.precompileCallsCounter = m.counter)) : Tallies (onPart db setDb action) m [] :=
  tallies_none (ends_onPart h)

theorem tallies_issue (env : Env W) (m : Machine W) (o : Op) : Tallies (issue env o) m [] := by
  refine tallies_none (ends_get_bind (ends_bind (fun db t => o.apply env m.db = .ok db ∧ t = m) ?_ ?_))
  · exact ends_lift (fun _ hdb => ⟨hdb, rfl⟩) fun _ _ => rfl
  · rintro db _ ⟨hdb, rfl⟩
    exact counter_apply hdb

theorem tallies_issues (ops : List Op) : Tallies (ops.forM (issue env)) m [] := by
  induction ops generalizing m with
  | nil => exact tallies_none rfl
  | cons o rest ih =>
    have hbind := tallies_bind (tallies_issue env m o)
      (f := fun _ => rest.forM (issue env)) fun _ _ => ih
    have hempty : onSuccess (issue env o) m (fun _ _ => []) = [] := by
      unfold onSuccess
      split <;> rfl
    rw [hempty] at hbind
    exact hbind

theorem tallies_snapshot : Tallies snapshot m [] :=
  tallies_none rfl

theorem tallies_runIf {condition : Bool} {action : Action (Machine W) Unit} (h : Tallies action m []) :
    Tallies (runIf condition action) m [] := by
  cases condition with
  | true => exact h
  | false => exact tallies_none rfl

theorem tallies_revertToSnapshot (revid : Nat) : Tallies (revertToSnapshot env revid) m [] := by
  refine tallies_none (ends_get_bind (ends_bind
    (fun db t => m.db.revertToSnapshot env revid = .ok db ∧ t = m) ?_ ?_))
  · exact ends_lift (fun _ hdb => ⟨hdb, rfl⟩) fun _ _ => rfl
  · rintro db _ ⟨hdb, rfl⟩
    exact counter_revertToSnapshot hdb

theorem tallies_flushToCacheCtx (env : Env W) (m : Machine W) : Tallies (flushToCacheCtx env) m [] := by
  have hcache : ∀ n : StateDB W, CacheOnly m.db n → n.precompileCallsCounter = m.counter := by
    intro n hn
    rw [hn.rest]
    rfl
  exact tallies_onPart (cacheOnly_flush.mono (fun _ n hn => hcache n hn) hcache)

theorem tallies_afterBalanceChange (prevEventsLen : Nat) :
    Tallies (onPart db setDb (afterBalanceChange env prevEventsLen)) m [] := by
  refine tallies_onPart (ends_get_bind (ends_forM ?_ _ rfl))
  intro entry s hs
  refine ends_get_bind ?_
  split
  · exact hs
  · refine ends_bind (fun db t => s.applyEvent env entry.1 = .ok db ∧ t = s) ?_ ?_
    · exact ends_lift (fun _ hdb => ⟨hdb, rfl⟩) fun _ _ => hs
    · rintro db _ ⟨hdb, rfl⟩
      exact (counter_applyEvent hdb).trans hs

theorem addPrecompileFn_run (db : StateDB W) (snapshot : Nat) :
    Ends ((addPrecompileFn snapshot).run db)
      (fun _ t => t.precompileCallsCounter = db.precompileCallsCounter + 1 ∧
        db.precompileCallsCounter + 1 ≤ maxPrecompileCalls)
      (fun t => t.precompileCallsCounter = db.precompileCallsCounter + 1) := by
  refine ends_get_bind (ends_nil_bind fun _ _ => ends_bind
    (fun _ t => t.precompileCallsCounter = db.precompileCallsCounter + 1) (ends_modify rfl) ?_)
  intro _ t ht
  refine ends_get_bind (ends_lift ?_ fun _ _ => ht)
  intro _ hcap
  rw [failIf_eq_ok, ht, decide_eq_false_iff_not, UInt8.not_lt] at hcap
  exact ⟨ht, hcap⟩

theorem enterPrecompile_counts (env : Env W) (m : Machine W) :
    Ends ((enterPrecompile env).run m)
      (fun _ t => t.counter = m.counter + 1 ∧ m.counter + 1 ≤ maxPrecompileCalls)
      (fun t => t.counter = m.counter + 1) := by
  refine ends_enterPrecompile ?_
  refine ends_bind (fun _ n => n.counter = m.counter + 1 ∧ m.counter + 1 ≤ maxPrecompileCalls)
    (ends_onPart (addPrecompileFn_run _ _)) ?_
  rintro _ n ⟨hn, hcap⟩
  have hflush := (tallies_flushToCacheCtx env n).2
  refine hflush.mono ?_ ?_
  · intro _ t ht
    exact ⟨ht.trans (by simp [hn]), hcap⟩
  · intro t ht
    exact ht.trans (by simp [hn])

theorem tallies_enterPrecompile (env : Env W) (m : Machine W) (succeeded : Bool)
    (h : succeeded = true → isOk ((enterPrecompile env).run m) = true) :
    Tallies (enterPrecompile env) m [⟨m.counter, isOk ((enterPrecompile env).run m), succeeded⟩] := by
  have hcounts := enterPrecompile_counts env m
  refine ⟨⟨rfl, ?_, h, trivial⟩, hcounts.mono (fun _ _ ht => ht.1) fun _ ht => ht⟩
  intro hran
  match hrun : (enterPrecompile env).run m with
  | .ok u t => exact (hcounts.of_ok hrun).2
  | .error fault t =>
    rw [hrun] at hran
    cases hran

theorem isOk_of_bind {x : Action (Machine W) α} {f : α → Action (Machine W) β}
    (h : isOk ((x >>= f).run m) = true) : isOk (x.run m) = true := by
  rw [EStateM.run_bind] at h
  match hrun : x.run m with
  | .ok a t => rfl
  | .error fault t =>
    rw [hrun] at h
    cases h

theorem tallies_runNativeAction {handled : Bool} {action : Action (Machine W) Unit} (fails : Bool)
    {inner : Machine W → List PrecompileCall} (haction : ∀ t, Tallies action t (inner t)) :
    Tallies (runNativeAction env handled action) m
      (⟨m.counter, isOk ((enterPrecompile env).run m),
          isOk ((runNativeAction env handled action).run m) && !fails⟩ ::
        onSuccess (enterPrecompile env) m fun _ => inner) := by
  have henter := tallies_enterPrecompile env m
    (isOk ((runNativeAction env handled action).run m) && !fails) (fun h =>
      isOk_of_bind (Bool.and_eq_true_iff.mp h).1)
  refine tallies_bind henter fun _ t => ?_
  have hrest := tallies_bind (haction t) (f := fun _ => runIf handled
    (onPart db setDb (afterBalanceChange env t.db.cacheCtx.events.length)))
    fun _ _ => tallies_runIf (tallies_afterBalanceChange _)
  have hempty : onSuccess action t (fun _ _ => []) = [] := by
    unfold onSuccess
    split <;> rfl
  rw [hempty, List.append_nil] at hrest
  exact hrest

theorem tallies_exec (env : Env W) {place : Place} (script : Script W place) (m : Machine W) :
    Tallies (exec env script) m (calls env script m) := by
  induction script generalizing m with
  | done => exact tallies_none rfl
  | op o rest ihRest => exact tallies_silent_bind (tallies_issue env _ o) fun _ => ihRest
  | frame body reverts rest ihBody ihRest =>
    rw [exec, calls]
    refine tallies_silent_bind tallies_snapshot fun revid m => ?_
    refine tallies_bind (ihBody m) fun _ m => ?_
    exact tallies_silent_bind (tallies_runIf (tallies_revertToSnapshot revid)) fun _ => ihRest
  | precompile before handled action fails rest ihAction ihRest =>
    rw [exec, calls]
    refine tallies_silent_bind tallies_snapshot fun revid m => ?_
    refine tallies_silent_bind (tallies_issues before) fun _ m => ?_
    refine tallies_bind (tallies_attempt (tallies_runNativeAction fails ihAction)) fun succeeded m => ?_
    exact tallies_silent_bind (tallies_runIf (tallies_revertToSnapshot revid)) fun _ => ihRest
  | native handled act rest ihRest =>
    rw [exec, calls]
    exact tallies_silent_bind (tallies_none (ends_modify rfl)) fun _ => ihRest
  | reenter handled body rest ihBody ihRest =>
    rw [exec, calls]
    refine tallies_silent_bind (tallies_none (ends_modify rfl)) fun _ m => ?_
    refine tallies_bind (ihBody m) fun _ m => ?_
    exact tallies_silent_bind (tallies_flushToCacheCtx env _) fun _ => ihRest

end Machine

-- As long as the counter does not wrap, the attempt at a position of the list finds
-- as many attempts counted.
theorem Counted.position {c : UInt8} {attempts : List PrecompileCall} (h : Counted c attempts)
    (hwrap : ∀ call ∈ attempts, call.before ≠ 255) {index : Nat} {call : PrecompileCall}
    (hcall : attempts[index]? = some call) (hran : call.ran = true) :
    c.toNat + index < maxPrecompileCalls.toNat := by
  induction attempts generalizing c index with
  | nil => cases hcall
  | cons first rest ih =>
    obtain ⟨hbefore, hcap, -, hrest⟩ := h
    have hc : (c + 1).toNat = c.toNat + 1 := by
      have hne : c ≠ 255 := fun heq => hwrap first List.mem_cons_self (hbefore.trans heq)
      have hlt : c.toNat < 256 := c.toNat_lt
      have hneNat : c.toNat ≠ 255 := fun heq => hne (UInt8.toNat_inj.mp heq)
      rw [UInt8.toNat_add]
      exact Nat.mod_eq_of_lt (by simp only [UInt8.toNat_one]; omega)
    cases index with
    | zero =>
      cases hcall
      have hle := UInt8.le_iff_toNat_le.mp (hcap hran)
      omega
    | succ index =>
      have hnext := ih hrest (fun other hother => hwrap other (List.mem_cons_of_mem _ hother)) hcall
      omega

theorem Counted.succeeded {c : UInt8} {attempts : List PrecompileCall} (h : Counted c attempts) :
    ∀ call ∈ attempts, call.succeeded = true → call.ran = true := by
  induction attempts generalizing c with
  | nil => intro call hcall; cases hcall
  | cons first rest ih =>
    obtain ⟨-, -, hsucceeded, hrest⟩ := h
    intro call hcall
    rcases List.mem_cons.mp hcall with rfl | hlater
    · exact hsucceeded
    · exact ih hrest call hlater

-- On a new StateDB at most twenty native actions are started, and every attempt
-- after the first twenty fails, if no attempt finds the counter at its last value.
theorem precompile_calls_capped (env : Env W) (script : Script W .evm) (m : Machine W)
    (hwrap : ∀ call ∈ Machine.calls env script m, call.before ≠ 255) :
    ((Machine.calls env script m).filter fun call => call.ran).length ≤ maxPrecompileCalls.toNat ∧
      ∀ call ∈ (Machine.calls env script m).drop maxPrecompileCalls.toNat,
        call.ran = false ∧ call.succeeded = false := by
  have hcounted := (Machine.tallies_exec env script m).1
  have hlater : ∀ call ∈ (Machine.calls env script m).drop maxPrecompileCalls.toNat,
      call.ran = false := by
    intro call hcall
    obtain ⟨index, hindex⟩ := List.mem_iff_getElem?.mp hcall
    rw [List.getElem?_drop] at hindex
    by_contra hran
    have hposition := hcounted.position hwrap hindex (Bool.eq_true_of_not_eq_false hran)
    omega
  constructor
  · have hnone : ((Machine.calls env script m).drop maxPrecompileCalls.toNat).filter
        (fun call => call.ran) = [] :=
      List.filter_eq_nil_iff.mpr fun call hcall => by simp [hlater call hcall]
    rw [← List.take_append_drop maxPrecompileCalls.toNat (Machine.calls env script m), List.filter_append,
      hnone, List.append_nil]
    exact (List.length_filter_le _ _).trans (List.length_take_le _ _)
  · intro call hcall
    refine ⟨hlater call hcall, ?_⟩
    by_contra hsucceeded
    have hran := hcounted.succeeded call (List.mem_of_mem_drop hcall)
      (Bool.eq_true_of_not_eq_false hsucceeded)
    rw [hlater call hcall] at hran
    cases hran

-- A contract that calls a precompile again and again, whatever becomes of the calls.
def callAgain : Nat → Script Unit .evm
  | 0 => .done
  | count + 1 => .precompile [] false .done false (callAgain count)

theorem twenty_two_calls :
    (∀ call ∈ Machine.calls noAccounts (callAgain 22) ⟨blankDb, []⟩, call.before ≠ 255) ∧
      ((Machine.calls noAccounts (callAgain 22) ⟨blankDb, []⟩).filter fun call => call.ran).length ≤ 20 := by
  have hwrap : ∀ call ∈ Machine.calls noAccounts (callAgain 22) ⟨blankDb, []⟩, call.before ≠ 255 := by
    decide +kernel
  exact ⟨hwrap, (precompile_calls_capped noAccounts (callAgain 22) ⟨blankDb, []⟩ hwrap).1⟩

theorem call_after_wrap_runs :
    ((Machine.calls noAccounts (callAgain 256) ⟨blankDb, []⟩).filter fun call => call.ran).length = 21 ∧
      ((Machine.calls noAccounts (callAgain 256) ⟨blankDb, []⟩).map fun call => call.succeeded).drop 254 =
        [false, true] := by
  decide +kernel

end PosChain.Evm
