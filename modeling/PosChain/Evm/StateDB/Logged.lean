import PosChain.Evm.Execution
import PosChain.Evm.StateDB.View

namespace PosChain.Evm

variable {W : Type}

namespace StateDB

def object (env : Env W) (s : StateDB W) (address : Address) : Option StateObject :=
  (s.getStateObject env address).1

def core (env : Env W) (s : StateDB W) : Core where
  objects address := (s.object env address).map fun object => object.view env s.world address
  transientStorage := s.transientStorage
  refund := s.refund
  logs := s.logs
  accessList := s.accessList

def cacheView (s : StateDB W) : CacheView W :=
  ⟨s.cacheOrNew, s.processedEventsCount⟩

section Objects

variable (env : Env W) (s : StateDB W) (address : Address)

theorem object_eq : s.object env address =
    (s.stateObjects address).or ((env.keeper.getAccount s.world address).map newObject) := by
  unfold object getStateObject
  cases s.stateObjects address with
  | some object => rfl
  | none => cases env.keeper.getAccount s.world address <;> rfl

theorem object_of_live {object : StateObject} (h : s.stateObjects address = some object) :
    s.object env address = some object := by
  rw [object_eq, h]
  rfl

theorem object_setStateObject (object : StateObject) (other : Address) :
    (s.setStateObject address object).object env other =
      if other = address then some object else s.object env other := by
  rw [object_eq, object_eq]
  by_cases h : other = address
  · subst h
    simp [setStateObject]
  · simp [setStateObject, h, world]

theorem core_setStateObject (object : StateObject) :
    (s.setStateObject address object).core env =
      { s.core env with
        objects := Function.update (s.core env).objects address (some (object.view env s.world address)) } := by
  have hobjects : ((s.setStateObject address object).core env).objects =
      Function.update (s.core env).objects address (some (object.view env s.world address)) := by
    funext other
    simp only [core, object_setStateObject]
    by_cases h : other = address
    · subst h
      simp [setStateObject, world]
    · simp [h, setStateObject, world]
  exact congrArg (fun objects => { s.core env with objects := objects }) hobjects

theorem getStateObject_cases :
    (∃ object, s.stateObjects address = some object ∧ s.getStateObject env address = (some object, s)) ∨
    (∃ account, s.stateObjects address = none ∧ env.keeper.getAccount s.world address = some account ∧
      s.getStateObject env address =
        (some (newObject account), s.setStateObject address (newObject account))) ∨
    (s.stateObjects address = none ∧ env.keeper.getAccount s.world address = none ∧
      s.getStateObject env address = (none, s)) := by
  unfold getStateObject
  cases hlive : s.stateObjects address with
  | some object => exact .inl ⟨object, rfl, rfl⟩
  | none =>
    cases haccount : env.keeper.getAccount s.world address with
    | some account => exact .inr (.inl ⟨account, rfl, rfl, rfl⟩)
    | none => exact .inr (.inr ⟨rfl, rfl, rfl⟩)

end Objects

section Getters

variable (env : Env W) (s : StateDB W) (address : Address)

theorem exist_eq : s.exist env address = ((s.core env).objects address).isSome := by
  simp only [exist, core, object]
  cases (s.getStateObject env address).1 <;> rfl

theorem getBalance_eq :
    s.getBalance env address = ((s.core env).objects address).elim 0 fun view => view.account.balance := by
  simp only [getBalance, core, object]
  cases (s.getStateObject env address).1 <;> rfl

theorem getNonce_eq :
    s.getNonce env address = ((s.core env).objects address).elim 0 fun view => view.account.nonce := by
  simp only [getNonce, core, object]
  cases (s.getStateObject env address).1 <;> rfl

theorem getCode_eq : s.getCode env address = ((s.core env).objects address).bind fun view => view.code := by
  simp only [getCode, core, object]
  cases (s.getStateObject env address).1 <;> rfl

theorem getCodeHash_eq :
    s.getCodeHash env address =
      ((s.core env).objects address).elim Ethereum.zeroHash fun view => view.account.codeHash := by
  simp only [getCodeHash, core, object]
  cases (s.getStateObject env address).1 <;> rfl

theorem getState_eq (key : Hash) :
    s.getState env address key =
      ((s.core env).objects address).elim Ethereum.zeroHash fun view => view.storage key := by
  simp only [getState, core, object]
  cases (s.getStateObject env address).1 <;> rfl

theorem hasSelfDestructed_eq :
    s.hasSelfDestructed env address =
      ((s.core env).objects address).elim false fun view => view.selfDestructed := by
  simp only [hasSelfDestructed, core, object]
  cases (s.getStateObject env address).1 <;> rfl

theorem isNewContract_eq :
    s.isNewContract env address =
      ((s.core env).objects address).elim false fun view => view.newContract := by
  simp only [isNewContract, core, object]
  cases (s.getStateObject env address).1 <;> rfl

end Getters

def Grows (s t : StateDB W) : Prop :=
  ∀ address object, s.stateObjects address = some object →
    ∃ next, t.stateObjects address = some next ∧ object.Within next

theorem Grows.refl (s : StateDB W) : Grows s s :=
  fun _ object h => ⟨object, h, .refl object⟩

theorem Grows.trans {s t u : StateDB W} (h : Grows s t) (h' : Grows t u) : Grows s u := by
  intro address object hobject
  obtain ⟨next, hnext, hwithin⟩ := h address object hobject
  obtain ⟨final, hfinal, hwithin'⟩ := h' address next hnext
  exact ⟨final, hfinal, hwithin.trans hwithin'⟩

theorem Grows.of_eq {s t : StateDB W} (h : t.stateObjects = s.stateObjects) : Grows s t :=
  fun _ object hobject => ⟨object, by rw [h]; exact hobject, .refl object⟩

theorem grows_setStateObject {s : StateDB W} {address : Address} {next : StateObject}
    (h : ∀ object, s.stateObjects address = some object → object.Within next) :
    Grows s (s.setStateObject address next) := by
  intro other object hobject
  by_cases heq : other = address
  · subst heq
    exact ⟨next, by simp [setStateObject], h object hobject⟩
  · exact ⟨object, by simpa [setStateObject, heq] using hobject, .refl object⟩

end StateDB

-- What undoing may leave of the cache context. Code in the EVM is undone exactly; the
-- action of a precompile keeps only the snapshots below it, and the entry of its call
-- does the rest.
def Place.agree : Place → CacheView W → CacheView W → Prop
  | .evm => Eq
  | .action _ => fun p q => p.cache.stores.below = q.cache.stores.below

section Agree

variable {place : Place}

theorem Place.agree_refl (p : CacheView W) : place.agree p p := by
  cases place <;> rfl

theorem Place.agree_trans {p q r : CacheView W} (h : place.agree p q) (h' : place.agree q r) :
    place.agree p r := by
  cases place <;> exact Eq.trans h h'

theorem Place.agree_of_eq {p q : CacheView W} (h : p = q) : place.agree p q := by
  subst h
  exact place.agree_refl p

theorem undoCache_agree (entry : JournalEntry) (p q next : CacheView W) (h : place.agree p q)
    (hundo : undoCache entry p = some next) :
    ∃ other, undoCache entry q = some other ∧ place.agree next other := by
  cases place with
  | evm =>
    obtain rfl : p = q := h
    exact ⟨next, hundo, rfl⟩
  | action handled =>
    cases entry with
    | precompileCallChange snapshot prevEvents prevProcessed =>
      simp only [undoCache, Option.map_eq_some_iff] at hundo
      obtain ⟨stores, hstores, rfl⟩ := hundo
      have hother := Snapshots.revert_of_below h hstores
      exact ⟨⟨⟨stores, prevEvents⟩, prevProcessed⟩, by simp [undoCache, hother], rfl⟩
    | _ =>
      cases hundo
      exact ⟨q, rfl, h⟩

end Agree

-- The later state has entries on top of the journal of the earlier one, and undoing
-- them leads back, except that the self-destructed accounts among those named have
-- lost their mark.
structure Logged (env : Env W) (place : Place) (destructed : List Address) (s t : StateDB W) : Prop where
  ctx : t.ctx = s.ctx
  txIndex : t.txIndex = s.txIndex
  journal : ∃ added, t.journal.entries = added ++ s.journal.entries ∧
    undoAll (undoCore env s.world) added (t.core env) = some ((s.core env).forget destructed) ∧
    (∃ view, undoAll undoCache added t.cacheView = some view ∧ place.agree view s.cacheView) ∧
    ∀ address, .createObjectChange address ∈ added → s.stateObjects address = none
  revisions : s.revisions.valid <+: t.revisions.valid
  next : s.revisions.next ≤ t.revisions.next
  grows : s.Grows t

namespace Logged

variable {env : Env W} {place : Place} {s t u : StateDB W}

theorem world {destructed : List Address} (h : Logged env place destructed s t) : t.world = s.world :=
  congrArg Ctx.world h.ctx

theorem trans {first second : List Address} (h : Logged env place first s t)
    (h' : Logged env place second t u) : Logged env place (first ++ second) s u := by
  obtain ⟨added, hentries, hcore, ⟨view, hview, hagree⟩, hcreated⟩ := h.journal
  obtain ⟨added', hentries', hcore', ⟨view', hview', hagree'⟩, hcreated'⟩ := h'.journal
  have hforget := undoAll_map (undoCore env s.world) (undoCore_forget env s.world second) added (t.core env)
  rw [hcore, Option.map_some, Core.forget_forget] at hforget
  obtain ⟨final, hfinal, hend⟩ :=
    undoAll_agree undoCache undoCache_agree added (symm_agree hagree') hview
  refine ⟨h'.ctx.trans h.ctx, h'.txIndex.trans h.txIndex,
    ⟨added' ++ added, ?_, ?_, ⟨final, ?_, ?_⟩, ?_⟩, h.revisions.trans h'.revisions,
    h.next.trans h'.next, h.grows.trans h'.grows⟩
  · rw [hentries', hentries, List.append_assoc]
  · rw [h.world] at hcore'
    exact undoAll_append_eq _ hcore' hforget
  · exact undoAll_append_eq _ hview' hfinal
  · exact Place.agree_trans (symm_agree hend) hagree
  · intro address hmem
    rcases List.mem_append.mp hmem with hlater | hearlier
    · cases hlive : s.stateObjects address with
      | none => rfl
      | some object =>
        obtain ⟨next, hnext, -⟩ := h.grows address object hlive
        rw [hcreated' address hlater] at hnext
        cases hnext
    · exact hcreated address hearlier
where
  symm_agree {place : Place} {p q : CacheView W} (h : place.agree p q) : place.agree q p := by
    cases place <;> exact Eq.symm h

-- A step without an entry that the getters do not see.
theorem of_same (hctx : t.ctx = s.ctx) (htx : t.txIndex = s.txIndex) (hjournal : t.journal = s.journal)
    (hcore : t.core env = s.core env) (hcache : place.agree t.cacheView s.cacheView)
    (hrevisions : t.revisions = s.revisions) (hgrows : s.Grows t) : Logged env place [] s t where
  ctx := hctx
  txIndex := htx
  journal := ⟨[], by rw [hjournal]; rfl, by simp [undoAll, hcore], ⟨_, rfl, hcache⟩, by simp⟩
  revisions := by rw [hrevisions]
  next := by rw [hrevisions]
  grows := hgrows

theorem refl (s : StateDB W) : Logged env place [] s s :=
  of_same rfl rfl rfl rfl (Place.agree_refl _) rfl (.refl s)

theorem of_entry {entry : JournalEntry} {destructed : List Address} (hctx : t.ctx = s.ctx)
    (htx : t.txIndex = s.txIndex) (hjournal : t.journal = s.journal.append entry)
    (hcore : undoCore env s.world entry (t.core env) = some ((s.core env).forget destructed))
    (hentry : undoCache entry t.cacheView = some s.cacheView)
    (hcreated : ∀ address, entry = .createObjectChange address → s.stateObjects address = none)
    (hrevisions : t.revisions = s.revisions) (hgrows : s.Grows t) : Logged env place destructed s t where
  ctx := hctx
  txIndex := htx
  journal := by
    refine ⟨[entry], by rw [hjournal]; rfl, by simp [undoAll, hcore],
      ⟨s.cacheView, by simp [undoAll, hentry], Place.agree_refl _⟩, ?_⟩
    intro address hmem
    exact hcreated address (List.mem_singleton.mp hmem).symm
  revisions := by rw [hrevisions]
  next := by rw [hrevisions]
  grows := hgrows

end Logged

end PosChain.Evm
