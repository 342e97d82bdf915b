import PosChain.Mempool.HeightSync

namespace PosChain.Mempool

namespace SharedSync

variable {Store : Type} {s t : SharedSync Store} {record : Record Store} {first : Store}

theorem stores_current (s : SharedSync Store) : s.stores[s.past.length]? = some s.current :=
  List.getElem?_concat_length

theorem length_stores (s : SharedSync Store) : s.stores.length = s.past.length + 1 := by
  simp [stores]

theorem stores_cases {store : Nat} {sync : HeightSync Store} (h : s.stores[store]? = some sync) :
    s.past[store]? = some sync ∧ store < s.past.length ∨ store = s.past.length ∧ sync = s.current := by
  rcases Nat.lt_or_ge store s.past.length with hlt | hge
  · rw [stores, List.getElem?_append_left hlt] at h
    exact .inl ⟨h, hlt⟩
  · have hlt := (List.getElem?_eq_some_iff.mp h).1
    rw [length_stores] at hlt
    obtain rfl : store = s.past.length := by omega
    rw [stores_current] at h
    exact .inr ⟨rfl, (Option.some.inj h).symm⟩

section Record

variable (record : Record Store) (event : Event Store) (effect : Effect Store) (store : Nat)

@[simp] theorem worksOn_concat :
    worksOn (record ++ [(event, effect)]) store = worksOn record store ++ workOn store effect := by
  simp [worksOn]

theorem worksOn_append (later : Record Store) :
    worksOn (record ++ later) store = worksOn record store ++ worksOn later store := by
  simp [worksOn]

theorem fill_append (reset : Store) (works later : List (Store → Store)) :
    fill reset (works ++ later) = fill (fill reset works) later :=
  List.foldl_append

variable {record store} in
theorem MadeFrom.concat {reset : Store} (h : MadeFrom first record store reset) :
    MadeFrom first (record ++ [(event, effect)]) store reset := by
  rcases h with h | ⟨other, hmem⟩
  · exact .inl h
  · exact .inr ⟨other, List.mem_append_left _ hmem⟩

end Record

-- A store keeps its number and its height, and an ended one stays ended.
def Grows (s t : SharedSync Store) : Prop :=
  ∀ (store : Nat) (sync : HeightSync Store), s.stores[store]? = some sync →
    ∃ next, t.stores[store]? = some next ∧ next.currentHeight = sync.currentHeight ∧
      (sync.ended = true → next.ended = true)

theorem Grows.of_eq (h : t.stores = s.stores) : Grows s t := by
  intro store sync hfound
  exact ⟨sync, by rw [h, hfound], rfl, id⟩

theorem grows_of_current {next : HeightSync Store} (hheight : next.currentHeight = s.current.currentHeight)
    (hended : s.current.ended = true → next.ended = true) : Grows s { s with current := next } := by
  intro store sync hfound
  rcases stores_cases hfound with ⟨hpast, hlt⟩ | ⟨rfl, rfl⟩
  · refine ⟨sync, ?_, rfl, id⟩
    rw [stores, List.getElem?_append_left hlt]
    exact hpast
  · exact ⟨next, List.getElem?_concat_length, hheight, hended⟩

theorem grows_start (next : HeightSync Store) :
    Grows s { s with past := s.past ++ [s.current], current := next } := by
  intro store sync hfound
  have hlt := (List.getElem?_eq_some_iff.mp hfound).1
  refine ⟨sync, ?_, rfl, id⟩
  change (s.stores ++ [next])[store]? = some sync
  rwa [List.getElem?_append_left hlt]

-- What the phase of a call says about the stores it has seen.
def AtStore (s : SharedSync Store) (store : Nat) (holds : HeightSync Store → Prop) : Prop :=
  ∃ sync, s.stores[store]? = some sync ∧ holds sync

def Fits (s : SharedSync Store) (record : Record Store) (index : Nat) (caller : GetCaller) : Prop :=
  match caller.phase with
  | .looking => True
  | .behind seen => AtStore s seen fun sync => sync.currentHeight < caller.height
  | .atHeight store => AtStore s store fun sync => sync.currentHeight = caller.height
  | .returned (some store) ending => AtStore s store fun sync =>
    sync.currentHeight = caller.height ∧ (ending = .completed → sync.ended = true)
  | .returned none ending => ending = .expired
  | .panicked _ => ∃ event current, (event, .looked index current) ∈ record ∧ caller.height < current

theorem AtStore.mono {store : Nat} {holds holds' : HeightSync Store → Prop} (h : AtStore s store holds)
    (hgrows : Grows s t) (himp : ∀ sync next : HeightSync Store, next.currentHeight = sync.currentHeight →
      (sync.ended = true → next.ended = true) → holds sync → holds' next) : AtStore t store holds' := by
  obtain ⟨sync, hfound, hholds⟩ := h
  obtain ⟨next, hnext, hheight, hended⟩ := hgrows store sync hfound
  exact ⟨next, hnext, himp sync next hheight hended hholds⟩

theorem Fits.mono {later : Record Store} {index : Nat} {caller : GetCaller} (h : Fits s record index caller)
    (hgrows : Grows s t) (hrecord : ∀ entry ∈ record, entry ∈ later) : Fits t later index caller := by
  obtain ⟨height, phase⟩ := caller
  match phase with
  | .looking => trivial
  | .behind seen => exact AtStore.mono h hgrows fun _ _ hheight _ hlt => hheight ▸ hlt
  | .atHeight store => exact AtStore.mono h hgrows fun _ _ hheight _ heq => hheight.trans heq
  | .returned (some store) ending =>
    exact AtStore.mono h hgrows fun _ _ hheight hended hholds =>
      ⟨hheight.trans hholds.1, fun hending => hended (hholds.2 hending)⟩
  | .returned none ending => exact h
  | .panicked text =>
    obtain ⟨event, current, hmem, hlt⟩ := h
    exact ⟨event, current, hrecord _ hmem, hlt⟩

structure Sound (first : Store) (s : SharedSync Store) (record : Record Store) : Prop where
  fits : ∀ (index : Nat) (caller : GetCaller), s.callers[index]? = some caller → Fits s record index caller
  filled : ∀ (store : Nat) (sync : HeightSync Store), s.stores[store]? = some sync →
    ∃ reset, MadeFrom first record store reset ∧ sync.store = fill reset (worksOn record store)
  later : ∀ store, s.past.length < store → worksOn record store = []
  ends : ∀ (store : Nat) (sync : HeightSync Store), s.stores[store]? = some sync → sync.ended = true →
    store = 0 ∨ ∃ event, (event, .ended store) ∈ record

theorem sound_new (startHeight : Nat) (first : Store) : Sound first (new startHeight first) [] where
  fits := by intro index caller h; cases h
  filled := by
    intro store sync h
    rcases stores_cases h with ⟨-, hlt⟩ | ⟨rfl, rfl⟩
    · cases hlt
    · exact ⟨first, .inl ⟨rfl, rfl⟩, rfl⟩
  later := by intro store _; rfl
  ends := by
    intro store sync h _
    rcases stores_cases h with ⟨-, hlt⟩ | ⟨rfl, rfl⟩
    · cases hlt
    · exact .inl rfl

namespace Sound

variable {event : Event Store} {effect : Effect Store}

theorem mem_concat {entry : Event Store × Effect Store} (h : entry ∈ record) :
    entry ∈ record ++ [(event, effect)] :=
  List.mem_append_left _ h

section

variable (h : Sound first s record)

include h

theorem called (hstores : t.past = s.past ∧ t.current = s.current) (hwork : ∀ store, workOn store effect = [])
    (hfits : ∀ (index : Nat) (caller : GetCaller), t.callers[index]? = some caller →
      s.callers[index]? = some caller ∨ Fits t (record ++ [(event, effect)]) index caller) :
    Sound first t (record ++ [(event, effect)]) := by
  have hsame : t.stores = s.stores := by rw [stores, hstores.1, hstores.2, stores]
  refine ⟨?_, ?_, ?_, ?_⟩
  · intro index caller hcaller
    rcases hfits index caller hcaller with hold | hnew
    · exact (h.fits index caller hold).mono (.of_eq hsame) fun _ => mem_concat
    · exact hnew
  · intro store sync hfound
    rw [hsame] at hfound
    obtain ⟨reset, hmade, hstore⟩ := h.filled store sync hfound
    refine ⟨reset, hmade.concat event effect, ?_⟩
    rw [worksOn_concat, hwork, List.append_nil, hstore]
  · intro store hstore
    rw [hstores.1] at hstore
    rw [worksOn_concat, hwork, List.append_nil, h.later store hstore]
  · intro store sync hfound hended
    rw [hsame] at hfound
    rcases h.ends store sync hfound hended with hzero | ⟨other, hmem⟩
    · exact .inl hzero
    · exact .inr ⟨other, mem_concat hmem⟩

theorem setPhase {index : Nat} {caller : GetCaller} {phase : GetPhase}
    (hcaller : s.callers[index]? = some caller) (hwork : ∀ store, workOn store effect = [])
    (hfits : Fits s (record ++ [(event, effect)]) index ⟨caller.height, phase⟩) :
    Sound first (s.setPhase index phase) (record ++ [(event, effect)]) := by
  refine h.called ⟨rfl, rfl⟩ hwork ?_
  intro other found hfound
  by_cases hother : index = other
  · subst hother
    have hnew : (s.callers.modify index fun found => { found with phase := phase })[index]? =
        some ⟨caller.height, phase⟩ := by
      rw [List.getElem?_modify_eq, hcaller]
      rfl
    obtain rfl := Option.some.inj (hnew.symm.trans hfound)
    exact .inr (hfits.mono (.of_eq rfl) fun _ => id)
  · rw [SharedSync.setPhase, List.getElem?_modify_ne _ _ hother] at hfound
    exact .inl hfound

theorem startNewHeight {reset : Store} (next : HeightSync Store)
    (hnext : next.store = reset ∧ next.ended = false) :
    Sound first { s with past := s.past ++ [s.current], current := next }
      (record ++ [(event, .started (s.past.length + 1) reset)]) := by
  have hcases : ∀ (store : Nat) (sync : HeightSync Store), (s.stores ++ [next])[store]? = some sync →
      s.stores[store]? = some sync ∨ store = s.past.length + 1 ∧ sync = next := by
    intro store sync hfound
    rcases Nat.lt_or_ge store s.stores.length with hlt | hge
    · rw [List.getElem?_append_left hlt] at hfound
      exact .inl hfound
    · have hlt := (List.getElem?_eq_some_iff.mp hfound).1
      rw [List.length_append, List.length_singleton] at hlt
      obtain rfl : store = s.stores.length := by omega
      rw [List.getElem?_concat_length] at hfound
      exact .inr ⟨s.length_stores, (Option.some.inj hfound).symm⟩
  refine ⟨?_, ?_, ?_, ?_⟩
  · intro index caller hcaller
    exact (h.fits index caller hcaller).mono (grows_start next) fun _ => mem_concat
  · intro store sync hfound
    simp only [worksOn_concat, workOn, List.append_nil]
    rcases hcases store sync hfound with hold | ⟨rfl, rfl⟩
    · obtain ⟨made, hmade, hstore⟩ := h.filled store sync hold
      exact ⟨made, hmade.concat _ _, hstore⟩
    · refine ⟨reset, .inr ⟨event, List.mem_append_right _ (List.mem_singleton.mpr rfl)⟩, ?_⟩
      rw [h.later _ (Nat.lt_succ_self _), hnext.1]
      rfl
  · intro store hstore
    simp only [worksOn_concat, workOn, List.append_nil]
    refine h.later store (lt_trans ?_ hstore)
    simp
  · intro store sync hfound hended
    rcases hcases store sync hfound with hold | ⟨rfl, rfl⟩
    · rcases h.ends store sync hold hended with hzero | ⟨other, hmem⟩
      · exact .inl hzero
      · exact .inr ⟨other, mem_concat hmem⟩
    · rw [hnext.2] at hended
      cases hended

theorem onCurrent {next : HeightSync Store} (hheight : next.currentHeight = s.current.currentHeight)
    (hended : s.current.ended = true → next.ended = true)
    (hother : ∀ store, store ≠ s.past.length → workOn store effect = [])
    (hstore : next.store = fill s.current.store (workOn s.past.length effect))
    (hends : next.ended = true → s.current.ended = true ∨ effect = .ended s.past.length) :
    Sound first { s with current := next } (record ++ [(event, effect)]) := by
  have hcases : ∀ (store : Nat) (sync : HeightSync Store), (s.past ++ [next])[store]? = some sync →
      store ≠ s.past.length ∧ s.stores[store]? = some sync ∨ store = s.past.length ∧ sync = next := by
    intro store sync hfound
    rcases stores_cases (s := { s with current := next }) hfound with ⟨hpast, hlt⟩ | ⟨rfl, rfl⟩
    · refine .inl ⟨hlt.ne, ?_⟩
      rw [stores, List.getElem?_append_left hlt]
      exact hpast
    · exact .inr ⟨rfl, rfl⟩
  refine ⟨?_, ?_, ?_, ?_⟩
  · intro index caller hcaller
    exact (h.fits index caller hcaller).mono (grows_of_current hheight hended) fun _ => mem_concat
  · intro store sync hfound
    rw [worksOn_concat]
    rcases hcases store sync hfound with ⟨hne, hold⟩ | ⟨rfl, rfl⟩
    · obtain ⟨made, hmade, hfilled⟩ := h.filled store sync hold
      exact ⟨made, hmade.concat _ _, by rw [hother store hne, List.append_nil, hfilled]⟩
    · obtain ⟨made, hmade, hfilled⟩ := h.filled s.past.length s.current s.stores_current
      exact ⟨made, hmade.concat _ _, by rw [fill_append, ← hfilled, hstore]⟩
  · intro store hlater
    have hpast : s.past.length < store := hlater
    rw [worksOn_concat, hother store hpast.ne', List.append_nil, h.later store hpast]
  · intro store sync hfound hsync
    have hold : ∀ found : HeightSync Store, s.stores[store]? = some found → found.ended = true →
        store = 0 ∨ ∃ other, (other, .ended store) ∈ record ++ [(event, effect)] := by
      intro found hstores hfoundEnded
      rcases h.ends store found hstores hfoundEnded with hzero | ⟨other, hmem⟩
      · exact .inl hzero
      · exact .inr ⟨other, mem_concat hmem⟩
    rcases hcases store sync hfound with ⟨-, hstores⟩ | ⟨rfl, rfl⟩
    · exact hold sync hstores hsync
    · rcases hends hsync with hbefore | rfl
      · exact hold s.current s.stores_current hbefore
      · exact .inr ⟨event, List.mem_append_right _ (List.mem_singleton.mpr rfl)⟩

theorem endCurrentHeight :
    Sound first { s with current := { s.current with ended := true } }
      (record ++ [(event, .ended s.past.length)]) :=
  h.onCurrent rfl (fun _ => rfl) (fun _ _ => rfl) rfl fun _ => .inr rfl

theorem perform (work : Store → Store) :
    Sound first { s with current := s.current.perform work }
      (record ++ [(event, .performed s.past.length work)]) := by
  refine h.onCurrent rfl id ?_ ?_ .inl
  · intro store hne
    rw [workOn, if_neg hne.symm]
  · rw [workOn, if_pos rfl]
    rfl

theorem look {index height : Nat} (hcaller : s.callers[index]? = some ⟨height, .looking⟩) :
    Sound first (s.setPhase index (s.phaseAtLook height))
      (record ++ [(event, .looked index s.current.currentHeight)]) := by
  refine h.setPhase hcaller (fun _ => rfl) ?_
  unfold phaseAtLook
  split
  · rename_i hlt
    exact ⟨event, s.current.currentHeight, List.mem_append_right _ (List.mem_singleton.mpr rfl), hlt⟩
  · rename_i hge
    split
    · rename_i heq
      split
      · exact ⟨s.current, s.stores_current, heq, nofun⟩
      · exact ⟨s.current, s.stores_current, heq⟩
    · rename_i hne
      refine ⟨s.current, s.stores_current, ?_⟩
      change s.current.currentHeight < height
      omega

theorem step (hstep : s.step event = some (effect, t)) :
    Sound first t (record ++ [(event, effect)]) := by
  cases event with
  | startNewHeight height reset =>
    simp only [SharedSync.step, HeightSync.startNewHeight] at hstep
    split at hstep
    · cases hstep
    · rename_i next hnext
      cases hstep
      split at hnext
      · cases hnext
        exact h.startNewHeight _ ⟨rfl, rfl⟩
      · cases hnext
  | endCurrentHeight =>
    simp only [SharedSync.step, HeightSync.endCurrentHeight] at hstep
    split at hstep
    · cases hstep
    · rename_i next hnext
      cases hstep
      split at hnext
      · cases hnext
      · cases hnext
        exact h.endCurrentHeight
  | perform work =>
    cases hstep
    exact h.perform work
  | getStore height =>
    cases hstep
    refine h.called ⟨rfl, rfl⟩ (fun _ => rfl) ?_
    intro index caller hcaller
    have hfound : (s.callers ++ [⟨height, .looking⟩])[index]? = some caller := hcaller
    rw [List.getElem?_append] at hfound
    split at hfound
    · exact .inl hfound
    · obtain rfl := List.mem_singleton.mp (List.mem_of_getElem? hfound)
      exact .inr trivial
  | look index =>
    simp only [SharedSync.step] at hstep
    split at hstep
    · rename_i height hcaller
      cases hstep
      exact h.look hcaller
    · cases hstep
  | heightChanged index =>
    simp only [SharedSync.step] at hstep
    split at hstep
    · rename_i height seen hcaller
      split at hstep
      · cases hstep
        exact h.setPhase hcaller (fun _ => rfl) trivial
      · cases hstep
    · cases hstep
  | done index =>
    simp only [SharedSync.step] at hstep
    split at hstep
    · rename_i height store hcaller
      split at hstep
      · rename_i found hfound
        split at hstep
        · rename_i hended
          cases hstep
          obtain ⟨sync, hsync, hheight⟩ := h.fits index _ hcaller
          obtain rfl := Option.some.inj (hfound.symm.trans hsync)
          exact h.setPhase hcaller (fun _ => rfl) ⟨found, hfound, hheight, fun _ => hended⟩
        · cases hstep
      · cases hstep
    · cases hstep
  | expire index =>
    simp only [SharedSync.step] at hstep
    split at hstep
    · rename_i height seen hcaller
      cases hstep
      exact h.setPhase hcaller (fun _ => rfl) rfl
    · rename_i height store hcaller
      cases hstep
      obtain ⟨sync, hsync, hheight⟩ := h.fits index _ hcaller
      exact h.setPhase hcaller (fun _ => rfl) ⟨sync, hsync, hheight, nofun⟩
    · cases hstep

end

end Sound

theorem sound_run (startHeight : Nat) (first : Store) (events : List (Event Store)) :
    Sound first (Run.run step (new startHeight first) events)
      (Run.accepted step (new startHeight first) events) :=
  Run.run_history (Sound first) (fun _ _ _ _ _ hstep h => h.step hstep) (new startHeight first) events []
    (sound_new startHeight first)

-- How one step can move a call of GetStore.
inductive Moves : GetPhase → GetPhase → Prop where
  | look (phase : GetPhase) : Moves .looking phase
  | heightChanged (seen : Nat) : Moves (.behind seen) .looking
  | gaveUp (seen : Nat) : Moves (.behind seen) (.returned none .expired)
  | returned (store : Nat) (ending : GetEnding) : Moves (.atHeight store) (.returned (some store) ending)

def Follows (t : SharedSync Store) (index : Nat) (caller : GetCaller) : Prop :=
  t.callers[index]? = some caller ∨
    ∃ phase, t.callers[index]? = some ⟨caller.height, phase⟩ ∧ Moves caller.phase phase

theorem follows_setPhase {index other : Nat} {caller found : GetCaller} {phase : GetPhase}
    (hindex : s.callers[index]? = some caller) (hother : s.callers[other]? = some found)
    (hmoves : Moves found.phase phase) : Follows (s.setPhase other phase) index caller := by
  by_cases heq : other = index
  · subst heq
    obtain rfl := Option.some.inj (hindex.symm.trans hother)
    refine .inr ⟨phase, ?_, hmoves⟩
    rw [setPhase, List.getElem?_modify_eq, hindex]
    rfl
  · left
    rw [setPhase, List.getElem?_modify_ne _ _ heq]
    exact hindex

theorem follows_step {event : Event Store} {effect : Effect Store} (hstep : s.step event = some (effect, t))
    {index : Nat} {caller : GetCaller} (hindex : s.callers[index]? = some caller) :
    Follows t index caller := by
  cases event with
  | startNewHeight height reset =>
    simp only [step] at hstep
    split at hstep
    · cases hstep
    · cases hstep
      exact .inl hindex
  | endCurrentHeight =>
    simp only [step] at hstep
    split at hstep
    · cases hstep
    · cases hstep
      exact .inl hindex
  | perform work =>
    cases hstep
    exact .inl hindex
  | getStore height =>
    cases hstep
    left
    change (s.callers ++ [⟨height, .looking⟩])[index]? = some caller
    rw [List.getElem?_append_left (List.getElem?_eq_some_iff.mp hindex).1]
    exact hindex
  | look other =>
    simp only [step] at hstep
    split at hstep
    · rename_i height hother
      cases hstep
      exact follows_setPhase hindex hother (.look _)
    · cases hstep
  | heightChanged other =>
    simp only [step] at hstep
    split at hstep
    · rename_i height seen hother
      split at hstep
      · cases hstep
        exact follows_setPhase hindex hother (.heightChanged seen)
      · cases hstep
    · cases hstep
  | done other =>
    simp only [step] at hstep
    split at hstep
    · rename_i height store hother
      split at hstep
      · split at hstep
        · cases hstep
          exact follows_setPhase hindex hother (.returned store .completed)
        · cases hstep
      · cases hstep
    · cases hstep
  | expire other =>
    simp only [step] at hstep
    split at hstep
    · rename_i height seen hother
      cases hstep
      exact follows_setPhase hindex hother (.gaveUp seen)
    · rename_i height store hother
      cases hstep
      exact follows_setPhase hindex hother (.returned store .expired)
    · cases hstep

-- A call that has seen a store at its height returns this store and no other, and
-- can do so as soon as the height is ended.
structure Serves (s : SharedSync Store) (index height store : Nat) : Prop where
  holds : s.callers[index]? = some ⟨height, .atHeight store⟩ ∨
    ∃ ending, s.callers[index]? = some ⟨height, .returned (some store) ending⟩
  returns : s.callers[index]? = some ⟨height, .atHeight store⟩ → AtStore s store (fun sync => sync.ended = true) →
    ∃ effect t, s.step (.done index) = some (effect, t) ∧
      t.callers[index]? = some ⟨height, .returned (some store) .completed⟩

theorem returns_done {index height store : Nat} (hindex : s.callers[index]? = some ⟨height, .atHeight store⟩)
    (hended : AtStore s store fun sync => sync.ended = true) :
    ∃ effect t, s.step (.done index) = some (effect, t) ∧
      t.callers[index]? = some ⟨height, .returned (some store) .completed⟩ := by
  obtain ⟨sync, hsync, hdone⟩ := hended
  refine ⟨.none, s.setPhase index (.returned (some store) .completed), ?_, ?_⟩
  · simp [step, hindex, hsync, hdone]
  · rw [setPhase, List.getElem?_modify_eq, hindex]
    rfl

theorem serves_of_holds {index height store : Nat} (h : s.callers[index]? = some ⟨height, .atHeight store⟩ ∨
      ∃ ending, s.callers[index]? = some ⟨height, .returned (some store) ending⟩) :
    Serves s index height store :=
  ⟨h, returns_done⟩

theorem serves_run {index height store : Nat} (h : Serves s index height store)
    (later : List (Event Store)) : Serves (Run.run step s later) index height store := by
  refine Run.run_invariant (fun u => Serves u index height store) ?_ s later h
  intro u event effect t hstep hserves
  apply serves_of_holds
  rcases hserves.holds with hat | ⟨ending, hreturned⟩
  · rcases follows_step hstep hat with hsame | ⟨phase, hphase, hmoves⟩
    · exact .inl hsame
    · cases hmoves with
      | returned store ending => exact .inr ⟨ending, hphase⟩
  · rcases follows_step hstep hreturned with hsame | ⟨phase, hphase, hmoves⟩
    · exact .inr ⟨ending, hsame⟩
    · cases hmoves

-- What GetStore hands out: no store of another height, a panic only when the current
-- height has passed the one asked for, and a completed store with all the work that was
-- done on it. A call that waits is woken, and at its own height it is served.
structure HandsOut (first : Store) (s : SharedSync Store) (record : Record Store) : Prop where
  own : ∀ (index height store : Nat) (ending : GetEnding),
    s.callers[index]? = some ⟨height, .returned (some store) ending⟩ →
      AtStore s store fun sync => sync.currentHeight = height
  nothing : ∀ (index height : Nat) (ending : GetEnding),
    s.callers[index]? = some ⟨height, .returned none ending⟩ → ending = .expired
  panics : ∀ (index height : Nat) (text : String), s.callers[index]? = some ⟨height, .panicked text⟩ →
    ∃ event current, (event, .looked index current) ∈ record ∧ height < current
  completed : ∀ index height store : Nat,
    s.callers[index]? = some ⟨height, .returned (some store) .completed⟩ →
      AtStore s store (fun sync => sync.ended = true ∧ ∃ reset, MadeFrom first record store reset ∧
        sync.store = fill reset (worksOn record store)) ∧
      (store = 0 ∨ ∃ before event after, record = before ++ (event, .ended store) :: after ∧
        worksOn before store <+: worksOn record store)
  woken : ∀ index height seen : Nat, s.callers[index]? = some ⟨height, .behind seen⟩ →
    s.current.currentHeight = height →
      ∃ effect t, s.step (.heightChanged index) = some (effect, t) ∧
        t.callers[index]? = some ⟨height, .looking⟩ ∧ t.stores = s.stores
  served : ∀ index height : Nat, s.callers[index]? = some ⟨height, .looking⟩ →
    s.current.currentHeight = height →
      ∃ effect t, s.step (.look index) = some (effect, t) ∧
        ∀ later, Serves (Run.run step t later) index height s.past.length

namespace Sound

theorem completed (h : Sound first s record) {index height store : Nat}
    (hindex : s.callers[index]? = some ⟨height, .returned (some store) .completed⟩) :
    AtStore s store (fun sync => sync.ended = true ∧ ∃ reset, MadeFrom first record store reset ∧
        sync.store = fill reset (worksOn record store)) ∧
      (store = 0 ∨ ∃ before event after, record = before ++ (event, .ended store) :: after ∧
        worksOn before store <+: worksOn record store) := by
  obtain ⟨sync, hsync, -, hended⟩ := h.fits index _ hindex
  refine ⟨⟨sync, hsync, hended rfl, h.filled store sync hsync⟩, ?_⟩
  rcases h.ends store sync hsync (hended rfl) with hzero | ⟨event, hmem⟩
  · exact .inl hzero
  · obtain ⟨before, after, rfl⟩ := List.append_of_mem hmem
    refine .inr ⟨before, event, after, rfl, ?_⟩
    rw [worksOn_append]
    exact List.prefix_append _ _

-- The height that a waiting call has seen is below its own, so that it was left.
theorem woken (h : Sound first s record) {index height seen : Nat}
    (hindex : s.callers[index]? = some ⟨height, .behind seen⟩) (hheight : s.current.currentHeight = height) :
    ∃ effect t, s.step (.heightChanged index) = some (effect, t) ∧
      t.callers[index]? = some ⟨height, .looking⟩ ∧ t.stores = s.stores := by
  obtain ⟨sync, hsync, hlt⟩ := h.fits index _ hindex
  have hseen : seen < s.past.length := by
    rcases stores_cases hsync with ⟨-, hpast⟩ | ⟨-, rfl⟩
    · exact hpast
    · have habsurd : s.current.currentHeight < height := hlt
      omega
  refine ⟨.none, s.setPhase index .looking, ?_, ?_, rfl⟩
  · simp [SharedSync.step, hindex, hseen]
  · rw [SharedSync.setPhase, List.getElem?_modify_eq, hindex]
    rfl

end Sound

theorem served_look {index height : Nat} (hindex : s.callers[index]? = some ⟨height, .looking⟩)
    (hheight : s.current.currentHeight = height) :
    ∃ effect t, s.step (.look index) = some (effect, t) ∧
      ∀ later, Serves (Run.run step t later) index height s.past.length := by
  have hstep : s.step (.look index) =
      some (.looked index s.current.currentHeight, s.setPhase index (s.phaseAtLook height)) := by
    simp [step, hindex]
  have hphase : (s.setPhase index (s.phaseAtLook height)).callers[index]? =
      some ⟨height, s.phaseAtLook height⟩ := by
    rw [setPhase, List.getElem?_modify_eq, hindex]
    rfl
  refine ⟨_, _, hstep, fun later => serves_run (serves_of_holds ?_) later⟩
  rw [hphase, phaseAtLook, if_neg (by omega), if_pos hheight]
  split
  · exact .inr ⟨.genesis, rfl⟩
  · exact .inl rfl

-- A call for height 7 waits at height 6. The height is started, filled and ended
-- before the call looks again, and the call returns the store with the work in it.
example :
    let s := Run.run step (new 6 ([] : List Nat))
      [.getStore 7, .look 0, .startNewHeight 7 [], .perform (List.cons 3), .endCurrentHeight,
        .heightChanged 0, .look 0, .done 0]
    s.callers = [⟨7, .returned (some 1) .completed⟩] ∧ s.current.store = [3] := by
  decide

end SharedSync

end PosChain.Mempool
