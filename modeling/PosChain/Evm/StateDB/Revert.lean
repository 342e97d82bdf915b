import PosChain.Evm.StateDB.Operations

namespace PosChain.Evm

open StateDB

variable {W : Type} {env : Env W} {place : Place} {s t : StateDB W}

-- What reverting entries leaves as it was. The objects stay live, apart from those
-- that the entries had created.
structure Undone (added : List JournalEntry) (s t : StateDB W) : Prop where
  ctx : t.ctx = s.ctx
  txIndex : t.txIndex = s.txIndex
  revisions : t.revisions = s.revisions
  survives : ∀ address object, s.stateObjects address = some object →
    .createObjectChange address ∉ added → ∃ next, t.stateObjects address = some next ∧ object.Within next

theorem Undone.of_grows {added : List JournalEntry} (hctx : t.ctx = s.ctx) (htx : t.txIndex = s.txIndex)
    (hrevisions : t.revisions = s.revisions) (hgrows : s.Grows t) : Undone added s t :=
  ⟨hctx, htx, hrevisions, fun address object hobject _ => hgrows address object hobject⟩

theorem Undone.cons {entry : JournalEntry} {older : List JournalEntry} {u : StateDB W}
    (h : Undone [entry] s t) (h' : Undone older t u) : Undone (entry :: older) s u where
  ctx := h'.ctx.trans h.ctx
  txIndex := h'.txIndex.trans h.txIndex
  revisions := h'.revisions.trans h.revisions
  survives := by
    intro address object hobject hmem
    rw [List.mem_cons, not_or] at hmem
    obtain ⟨next, hnext, hwithin⟩ := h.survives address object hobject (by simpa using hmem.1)
    obtain ⟨final, hfinal, hwithin'⟩ := h'.survives address next hnext hmem.2
    exact ⟨final, hfinal, hwithin.trans hwithin'⟩

section Entries

theorem revertObject_of_undo {address : Address} (write : StateObject → StateObject)
    {undo : ObjectView → ObjectView} {core : Core} {added : List JournalEntry}
    (hwrite : ∀ object, (write object).view env s.world address = undo (object.view env s.world address))
    (hwithin : ∀ object : StateObject, object.Within (write object))
    (hcore : (s.core env).onObject address undo = some core) :
    ∃ t, s.revertObject env address write = .ok t ∧ t.core env = core ∧ t.cacheView = s.cacheView ∧
      t.journal = s.journal ∧ Undone added s t := by
  unfold revertObject
  rcases hget : s.getStateObject env address with ⟨_ | object, r⟩
  · obtain ⟨-, hnone, haccount⟩ := getStateObject_none hget
    simp [Core.onObject, StateDB.core, object_eq, hnone, haccount] at hcore
  · have hload : Logged env .evm [] s r := logged_of_getStateObject hget
    have hlive : r.stateObjects address = some object := live_of_getStateObject hget
    obtain ⟨rcore, rcache, rjournal, rrevisions⟩ := same_of_getStateObject hget
    refine ⟨_, rfl, ?_, rcache, rjournal, .of_grows hload.ctx hload.txIndex rrevisions ?_⟩
    · have hself : (s.core env).objects address = some (object.view env s.world address) := by
        rw [← rcore, ← hload.world]
        simp [StateDB.core, r.object_of_live env address hlive]
      rw [core_setStateObject, rcore, hload.world, hwrite]
      simpa [Core.onObject, hself] using hcore
    · refine hload.grows.trans (grows_setStateObject ?_)
      intro live hlive'
      rw [hlive] at hlive'
      cases hlive'
      exact hwithin object

theorem revertEntry_of_undo {entry : JournalEntry} {core : Core} {view : CacheView W}
    (hcore : undoCore env s.world entry (s.core env) = some core)
    (hview : undoCache entry s.cacheView = some view) :
    ∃ t, s.revertEntry env entry = .ok t ∧ t.core env = core ∧ t.cacheView = view ∧
      t.journal = s.journal ∧ Undone [entry] s t := by
  cases entry with
  | balanceChange account prev =>
    cases hview
    exact revertObject_of_undo _ (fun _ => rfl) (fun _ => ⟨id, fun _ => id⟩) hcore
  | nonceChange account prev =>
    cases hview
    exact revertObject_of_undo _ (fun _ => rfl) (fun _ => ⟨id, fun _ => id⟩) hcore
  | createContractChange account =>
    cases hview
    exact revertObject_of_undo _ (fun _ => rfl) (fun _ => ⟨id, fun _ => id⟩) hcore
  | codeChange account prevcode prevhash =>
    cases hview
    refine revertObject_of_undo _ (fun object => ?_) (fun _ => ⟨fun _ => rfl, fun _ => id⟩) hcore
    have hcode : (object.setCode prevhash prevcode).codeOf env s.world =
        prevcode.or (lookupCode env s.world prevhash) := StateObject.codeOf_eq _ _ _
    simp only [StateObject.view, hcode]
    rfl
  | storageChange account key prevalue =>
    cases hview
    refine revertObject_of_undo _ (fun object => ?_) (fun object => object.within_setState key prevalue) hcore
    simp only [StateObject.view, StateObject.storage_setState]
    rfl
  | selfDestructChange account =>
    cases hview
    cases hcore
    rcases hget : s.getStateObject env account with ⟨_ | object, r⟩
    · obtain ⟨rfl, hnone, haccount⟩ := getStateObject_none hget
      have habsent : (r.core env).objects account = none := by
        simp [StateDB.core, object_eq, hnone, haccount]
      refine ⟨r, by simp only [revertEntry, hget], (Core.forget_of_absent habsent).symm, rfl, rfl, ?_⟩
      exact .of_grows rfl rfl rfl (.refl r)
    · have hpresent : (s.core env).objects account = some (object.view env s.world account) := by
        simp [StateDB.core, StateDB.object, hget]
      have honObject : (s.core env).onObject account (fun view => { view with selfDestructed := false }) =
          some ((s.core env).forget [account]) := by
        rw [Core.forget_of_present hpresent, Core.onObject, hpresent]
        rfl
      obtain ⟨t, hrevert, hrest⟩ := revertObject_of_undo (fun object => object.setSelfDestructed false)
        (fun _ => rfl) (fun _ => ⟨id, fun _ => id⟩) honObject
      refine ⟨t, ?_, hrest⟩
      simpa only [revertObject, revertEntry, hget] using hrevert
  | createObjectChange account =>
    cases hview
    cases hcore
    refine ⟨s.removeStateObject account, rfl, ?_, rfl, rfl, rfl, rfl, rfl, ?_⟩
    · have hobjects : ((s.removeStateObject account).core env).objects =
          Function.update (s.core env).objects account (loadedView env s.world account) := by
        funext other
        by_cases h : other = account
        · subst h
          simp [StateDB.core, object_eq, removeStateObject, loadedView, world, Function.comp_def]
        · simp [StateDB.core, object_eq, removeStateObject, world, h]
      exact congrArg (fun objects => { s.core env with objects := objects }) hobjects
    · intro address object hobject hmem
      have hne : address ≠ account := by
        rintro rfl
        exact hmem List.mem_cons_self
      exact ⟨object, by simpa [removeStateObject, hne] using hobject, .refl object⟩
  | transientStorageChange account key prevalue =>
    cases hview
    cases hcore
    exact ⟨_, rfl, core_eq_of_objects rfl rfl, rfl, rfl, .of_grows rfl rfl rfl (.of_eq rfl)⟩
  | refundChange prev =>
    cases hview
    cases hcore
    exact ⟨_, rfl, core_eq_of_objects rfl rfl, rfl, rfl, .of_grows rfl rfl rfl (.of_eq rfl)⟩
  | addLogChange =>
    cases hview
    simp only [undoCore, JournalEntry.undoObject] at hcore
    split at hcore
    · cases hcore
    · rename_i hlogs
      cases hcore
      have hlogs' : ¬ s.logs = [] := hlogs
      refine ⟨{ s with logs := s.logs.dropLast }, by simp only [revertEntry, hlogs', if_false], ?_⟩
      exact ⟨core_eq_of_objects rfl rfl, rfl, rfl, .of_grows rfl rfl rfl (.of_eq rfl)⟩
  | accessListAddAccountChange address =>
    cases hview
    cases hcore
    exact ⟨_, rfl, core_eq_of_objects rfl rfl, rfl, rfl, .of_grows rfl rfl rfl (.of_eq rfl)⟩
  | accessListAddSlotChange address slot =>
    cases hview
    simp only [undoCore, JournalEntry.undoObject, Option.map_eq_some_iff] at hcore
    obtain ⟨list, hlist, rfl⟩ := hcore
    have hdelete : s.accessList.deleteSlot address slot = .ok list := by
      cases hresult : s.accessList.deleteSlot address slot with
      | ok found =>
        have hfound : (s.core env).accessList.deleteSlot address slot = .ok found := hresult
        rw [hfound] at hlist
        rw [Option.some.inj hlist]
      | error fault =>
        have hfault : (s.core env).accessList.deleteSlot address slot = .error fault := hresult
        rw [hfault] at hlist
        cases hlist
    refine ⟨{ s with accessList := list }, by simp only [revertEntry, hdelete]; rfl, ?_⟩
    exact ⟨core_eq_of_objects rfl rfl, rfl, rfl, .of_grows rfl rfl rfl (.of_eq rfl)⟩
  | precompileCallChange snapshot prevEvents prevProcessed =>
    cases hcore
    simp only [undoCache, Option.map_eq_some_iff] at hview
    obtain ⟨stores, hstores, rfl⟩ := hview
    cases hcache : s.cache with
    | none => simp [cacheView, cacheOrNew, hcache, Snapshots.new, Snapshots.revert] at hstores
    | some cache =>
      have hrevert : cache.stores.revert snapshot = some stores := by
        simpa [cacheView, cacheOrNew, hcache] using hstores
      refine ⟨{ s with cache := some ⟨stores, prevEvents⟩, processedEventsCount := prevProcessed }, ?_, ?_⟩
      · simp only [revertEntry, revertCache, hcache, hrevert]
        rfl
      · exact ⟨core_eq_of_objects rfl rfl, rfl, rfl, .of_grows rfl rfl rfl (.of_eq rfl)⟩

theorem revertEntries_of_undo {added older : List JournalEntry} {core : Core} {view : CacheView W}
    (hentries : s.journal.entries = added ++ older)
    (hcore : undoAll (undoCore env s.world) added (s.core env) = some core)
    (hview : undoAll undoCache added s.cacheView = some view) :
    ∃ t, revertEntries env added s = .ok t ∧ t.core env = core ∧ t.cacheView = view ∧
      t.journal.entries = older ∧ Undone added s t := by
  induction added generalizing s with
  | nil =>
    cases hcore
    cases hview
    exact ⟨s, rfl, rfl, rfl, hentries, .of_grows rfl rfl rfl (.refl s)⟩
  | cons entry rest ih =>
    rw [undoAll, Option.bind_eq_some_iff] at hcore hview
    obtain ⟨middle, hmiddle, hcore⟩ := hcore
    obtain ⟨middleView, hmiddleView, hview⟩ := hview
    obtain ⟨r, hrevert, rfl, rfl, hjournal, hundone⟩ := revertEntry_of_undo hmiddle hmiddleView
    have hworld : r.world = s.world := congrArg Ctx.world hundone.ctx
    have hdropped : (r.journal.dropLast).entries = rest ++ older := by
      rw [Journal.entries_dropLast, hjournal, hentries]
      rfl
    have hsame : { r with journal := r.journal.dropLast }.core env = r.core env :=
      core_eq_of_objects rfl rfl
    obtain ⟨t, hrest, htcore, htview, htjournal, htundone⟩ :=
      ih (s := { r with journal := r.journal.dropLast }) hdropped
        (by rw [hsame, ← hcore, ← hworld]; rfl) hview
    refine ⟨t, ?_, htcore, htview, htjournal, hundone.cons ⟨htundone.ctx, htundone.txIndex,
      htundone.revisions, htundone.survives⟩⟩
    rw [revertEntries, hrevert]
    exact hrest

end Entries

-- The state after a revert: as at the snapshot, except for the marks that undoing
-- has taken away and for what the getters have loaded.
structure Restored (env : Env W) (destructed : List Address) (s t : StateDB W) : Prop where
  ctx : t.ctx = s.ctx
  txIndex : t.txIndex = s.txIndex
  core : t.core env = (s.core env).forget destructed
  cacheView : t.cacheView = s.cacheView
  journal : t.journal = s.journal
  valid : t.revisions.valid = s.revisions.valid
  next : s.revisions.next ≤ t.revisions.next
  grows : s.Grows t

theorem Restored.logged {destructed : List Address} (h : Restored env destructed s t) :
    Logged env place destructed s t where
  ctx := h.ctx
  txIndex := h.txIndex
  journal := ⟨[], by rw [h.journal]; rfl, by simp [undoAll, h.core],
    ⟨_, rfl, Place.agree_of_eq h.cacheView⟩, by simp⟩
  revisions := by rw [h.valid]
  next := h.next
  grows := h.grows

theorem findIdx_snapshot (s : StateDB W) {valid later : List Revision}
    (hvalid : valid = s.revisions.valid ++ ⟨s.revisions.next, s.journal.length⟩ :: later) :
    valid.findIdx (fun revision => revision.id ≥ s.revisions.next) = s.revisions.valid.length := by
  have hold : s.revisions.valid.findIdx (fun revision => revision.id ≥ s.revisions.next) =
      s.revisions.valid.length := by
    apply List.findIdx_eq_length_of_false
    intro revision hrevision
    simpa using s.revisions.fresh revision hrevision
  rw [hvalid, List.findIdx_append, hold]
  simp [List.findIdx_cons]

theorem Logged.restored {destructed : List Address} (h : Logged env .evm destructed s.snapshot.2 t) :
    ∃ u, t.revertToSnapshot env s.snapshot.1 = .ok u ∧ Restored env destructed s u := by
  obtain ⟨added, hentries, hcore, ⟨view, hview, hagree⟩, hcreated⟩ := h.journal
  obtain rfl : view = s.snapshot.2.cacheView := hagree
  have hsame : s.snapshot.2.core env = s.core env := core_eq_of_objects rfl rfl
  rw [hsame, ← h.world] at hcore
  obtain ⟨u, hrevert, hucore, huview, hujournal, hundone⟩ := revertEntries_of_undo hentries hcore hview
  obtain ⟨later, hlater⟩ := h.revisions
  have hvalid : t.revisions.valid =
      s.revisions.valid ++ ⟨s.revisions.next, s.journal.length⟩ :: later := by
    rw [← hlater]
    simp [snapshot, Revisions.push]
  have hindex := findIdx_snapshot s hvalid
  have hlength : t.journal.length - s.journal.length = added.length := by
    have hsum : t.journal.length = added.length + s.journal.length := by
      rw [Journal.length, hentries, List.length_append]
      rfl
    omega
  have hjournal : revertJournal env t s.journal.length = .ok u := by
    rw [revertJournal, hlength, hentries, List.take_left]
    exact hrevert
  refine ⟨{ u with revisions := u.revisions.take s.revisions.valid.length }, ?_, ?_⟩
  · have hid : s.snapshot.1 = s.revisions.next := rfl
    have hfound : t.revisions.valid[s.revisions.valid.length]? =
        some ⟨s.revisions.next, s.journal.length⟩ := by
      rw [hvalid]
      simp
    simp only [revertToSnapshot, hid, hindex, hfound, ne_eq, not_true_eq_false, if_false, hjournal]
    rfl
  · have hrevisions : u.revisions = t.revisions := hundone.revisions
    refine ⟨hundone.ctx.trans h.ctx, hundone.txIndex.trans h.txIndex, ?_, huview,
      Journal.eq_of_entries hujournal, ?_, ?_, ?_⟩
    · rw [← hucore]
      exact core_eq_of_objects rfl rfl
    · simp [Revisions.take, hrevisions, hvalid]
    · have hnext : s.revisions.next + 1 ≤ t.revisions.next := h.next
      simp only [Revisions.take, hrevisions]
      omega
    · intro address object hobject
      obtain ⟨next, hnext, hwithin⟩ := h.grows address object hobject
      have hmem : .createObjectChange address ∉ added := by
        intro hmem
        have hnone : s.stateObjects address = none := hcreated address hmem
        rw [hobject] at hnone
        cases hnone
      obtain ⟨final, hfinal, hwithin'⟩ := hundone.survives address next hnext hmem
      exact ⟨final, hfinal, hwithin.trans hwithin'⟩

end PosChain.Evm
