import PosChain.Evm.Execution.Logged

namespace PosChain.Evm

open StateDB

variable {W : Type} {env : Env W} {s t : StateDB W} {address other : Address} {object next : StateObject}

-- What the getters count of an account. An account that does not exist has nothing.
@[ext] structure Figures where
  nonce : UInt64
  balance : Uint256
  destructed : Bool
  created : Bool

def ObjectView.figures (view : ObjectView) : Figures :=
  ⟨view.account.nonce, view.account.balance, view.selfDestructed, view.newContract⟩

def StateObject.figures (object : StateObject) : Figures :=
  ⟨object.account.nonce, object.account.balance, object.selfDestructed, object.newContract⟩

def StateDB.figures (env : Env W) (s : StateDB W) (address : Address) : Figures :=
  ((s.core env).objects address).elim ⟨0, 0, false, false⟩ ObjectView.figures

section Figures

theorem figures_nonce : (s.figures env address).nonce = s.getNonce env address := by
  rw [figures, getNonce_eq]
  cases (s.core env).objects address <;> rfl

theorem figures_destructed : (s.figures env address).destructed = s.hasSelfDestructed env address := by
  rw [figures, hasSelfDestructed_eq]
  cases (s.core env).objects address <;> rfl

theorem figures_created : (s.figures env address).created = s.isNewContract env address := by
  rw [figures, isNewContract_eq]
  cases (s.core env).objects address <;> rfl

theorem figures_of_objects (h : (t.core env).objects = (s.core env).objects) :
    t.figures env address = s.figures env address := by
  rw [figures, h, figures]

theorem figures_of_live (h : s.stateObjects address = some object) :
    s.figures env address = object.figures := by
  simp [figures, core, s.object_of_live env address h]
  rfl

theorem figures_setStateObject :
    (s.setStateObject address next).figures env = Function.update (s.figures env) address next.figures := by
  funext other
  rw [figures, core_setStateObject]
  by_cases h : other = address
  · subst h
    simp
    rfl
  · simp [h, figures]

theorem figures_change (entry : JournalEntry) :
    (s.change address entry next).figures env = Function.update (s.figures env) address next.figures := by
  have happend : (s.append entry).figures env = s.figures env :=
    funext fun _ => figures_of_objects (congrArg Core.objects (core_append entry))
  rw [change, figures_setStateObject, happend]

-- Getting an object, or making one where there is none, changes no figure.
structure Found (env : Env W) (s : StateDB W) (address : Address) (object : StateObject) (t : StateDB W) :
    Prop where
  same : t.figures env = s.figures env
  object : object.figures = s.figures env address

theorem found_of_getStateObject (hget : s.getStateObject env address = (some object, t)) :
    Found env s address object t := by
  have hsame : t.figures env = s.figures env :=
    funext fun other => figures_of_objects (congrArg Core.objects (same_of_getStateObject hget).1)
  refine ⟨hsame, ?_⟩
  rw [← hsame, figures_of_live (live_of_getStateObject hget)]

theorem found_createObject (hnone : s.stateObjects address = none)
    (haccount : env.keeper.getAccount s.world address = none) :
    Found env s address (newObject env.emptyAccount) (s.createObject env address).2 := by
  have hself : (newObject env.emptyAccount).figures = s.figures env address := by
    simp [figures, core, object_eq, hnone, haccount]
    rfl
  refine ⟨?_, hself⟩
  rw [createObject, figures_change, hself, Function.update_eq_self]

theorem found_of_getOrNew (hget : s.getOrNewStateObject env address = (object, t)) :
    Found env s address object t := by
  rcases getOrNewStateObject_cases env s address with ⟨found, r, hfound, h⟩ | ⟨hnone, haccount, h⟩
  · rw [h] at hget
    cases hget
    exact found_of_getStateObject hfound
  · rw [h] at hget
    have hnew := found_createObject hnone haccount
    rw [createObject] at hget hnew
    cases hget
    exact hnew

-- The object that was found is written back with other figures.
def edited (env : Env W) (s : StateDB W) (address : Address) (edit : Figures → Figures) : Address → Figures :=
  Function.update (s.figures env) address (edit (s.figures env address))

theorem edited_id : edited env s address id = s.figures env :=
  Function.update_eq_self ..

theorem Found.set (h : Found env s address object t) (hnext : next.figures = object.figures) :
    (t.setStateObject address next).figures env = s.figures env := by
  rw [figures_setStateObject, h.same, hnext, h.object, Function.update_eq_self]

theorem Found.change (h : Found env s address object t) {edit : Figures → Figures} (entry : JournalEntry)
    (hnext : next.figures = edit object.figures) :
    (t.change address entry next).figures env = edited env s address edit := by
  rw [figures_change, h.same, hnext, h.object, edited]

end Figures

def Op.nonceAt (o : Op) (other : Address) (nonce : UInt64) : UInt64 :=
  match o with
  | .setNonce address written => if other = address then written else nonce
  | _ => nonce

def Op.balanceAt (o : Op) (other : Address) (balance : Uint256) : Uint256 :=
  match o with
  | .addBalance address amount => if other = address then balance + amount else balance
  | .subBalance address amount => if other = address then balance - amount else balance
  | .transfer sender recipient amount =>
    let balance := if other = sender then balance - amount else balance
    if other = recipient then balance + amount else balance
  | _ => balance

def Op.creates : Op → List Address
  | .createContract address => [address]
  | _ => []

structure Op.Effect (o : Op) (other : Address) (before after : Figures) : Prop where
  nonce : after.nonce = o.nonceAt other before.nonce
  balance : after.balance = o.balanceAt other before.balance
  destructed : after.destructed = true → before.destructed = true ∨ other ∈ o.destructs
  created : after.created = true → before.created = true ∨ other ∈ o.creates

section Effects

theorem Op.Effect.of_same {o : Op} (hnonce : ∀ nonce, o.nonceAt other nonce = nonce)
    (hbalance : ∀ balance, o.balanceAt other balance = balance) (h : t.figures env = s.figures env) :
    o.Effect other (s.figures env other) (t.figures env other) := by
  rw [h]
  exact ⟨(hnonce _).symm, (hbalance _).symm, .inl, .inl⟩

theorem Op.Effect.of_edit {o : Op} {edit : Figures → Figures} (h : t.figures env = edited env s address edit)
    (hself : other = address → o.Effect other (s.figures env other) (edit (s.figures env other)))
    (hother : other ≠ address → o.Effect other (s.figures env other) (s.figures env other)) :
    o.Effect other (s.figures env other) (t.figures env other) := by
  rw [h, edited]
  by_cases heq : other = address
  · rw [heq, Function.update_self, ← heq]
    exact hself heq
  · rw [Function.update_of_ne heq]
    exact hother heq

theorem figures_addBalance (amount : Uint256) :
    (s.addBalance env address amount).figures env =
      edited env s address fun figures => { figures with balance := figures.balance + amount } := by
  unfold addBalance
  rcases hget : s.getOrNewStateObject env address with ⟨object, t⟩
  have hfound := found_of_getOrNew hget
  dsimp only
  split
  · rename_i hzero
    rw [hfound.same, hzero, ← edited_id]
    exact congrArg _ (funext fun figures => by simp)
  · exact hfound.change _ rfl

theorem figures_subBalance (amount : Uint256) (h : s.subBalance env address amount = .ok t) :
    t.figures env = edited env s address fun figures => { figures with balance := figures.balance - amount } := by
  unfold subBalance at h
  rcases hget : s.getOrNewStateObject env address with ⟨object, r⟩
  have hfound := found_of_getOrNew hget
  rw [hget] at h
  dsimp only at h
  split at h
  · rename_i hzero
    cases h
    rw [hfound.same, hzero, ← edited_id]
    exact congrArg _ (funext fun figures => by simp)
  · split at h
    · cases h
    · cases h
      exact hfound.change _ rfl

theorem figures_loadState_object (world : W) (key : Hash) :
    (object.loadState env world address key).figures = object.figures := by
  unfold StateObject.loadState
  split <;> rfl

theorem figures_setState (key value : Hash) :
    (s.setState env address key value).figures env = s.figures env := by
  unfold setState
  rcases hget : s.getOrNewStateObject env address with ⟨object, t⟩
  have hfound := found_of_getOrNew hget
  dsimp only
  split
  · exact hfound.set (figures_loadState_object t.world key)
  · exact (hfound.change _ (figures_loadState_object t.world key)).trans edited_id

theorem figures_loadObject : (s.loadObject env address).figures env = s.figures env := by
  unfold loadObject
  rcases hget : s.getStateObject env address with ⟨_ | object, t⟩
  · rw [(getStateObject_none hget).1]
  · exact (found_of_getStateObject hget).same

theorem figures_loadCode : (s.loadCode env address).figures env = s.figures env := by
  unfold loadCode
  rcases hget : s.getStateObject env address with ⟨_ | object, t⟩
  · rw [(getStateObject_none hget).1]
  · exact (found_of_getStateObject hget).set rfl

theorem figures_loadState (key : Hash) : (s.loadState env address key).figures env = s.figures env := by
  unfold loadState
  rcases hget : s.getStateObject env address with ⟨_ | object, t⟩
  · rw [(getStateObject_none hget).1]
  · exact (found_of_getStateObject hget).set (figures_loadState_object t.world key)

theorem figures_selfDestruct (env : Env W) (s : StateDB W) (address : Address) :
    (s.selfDestruct env address).figures env = s.figures env ∨
      (s.selfDestruct env address).figures env =
        edited env s address fun figures => { figures with destructed := true } := by
  unfold selfDestruct
  rcases hget : s.getStateObject env address with ⟨_ | object, t⟩
  · rw [(getStateObject_none hget).1]
    exact .inl rfl
  · exact .inr ((found_of_getStateObject hget).change _ rfl)

theorem figures_createContract (h : s.createContract env address = .ok t) :
    t.figures env = s.figures env ∨
      t.figures env = edited env s address fun figures => { figures with created := true } := by
  unfold createContract at h
  rcases hget : s.getStateObject env address with ⟨_ | object, r⟩
  · rw [hget] at h
    cases h
  · have hfound := found_of_getStateObject hget
    rw [hget] at h
    dsimp only at h
    split at h
    · cases h
      exact .inl hfound.same
    · cases h
      exact .inr (hfound.change _ rfl)

theorem figures_createAccount (h : s.exist env address = false) :
    (s.createAccount env address).figures env = s.figures env := by
  rcases hget : s.getStateObject env address with ⟨_ | object, t⟩
  · obtain ⟨-, hnone, haccount⟩ := getStateObject_none hget
    exact (found_createObject hnone haccount).same
  · rw [exist, hget] at h
    cases h

theorem figures_of_live_eq (hctx : t.ctx = s.ctx) (hobjects : t.stateObjects = s.stateObjects) :
    t.figures env = s.figures env :=
  funext fun _ => figures_of_objects (objects_eq_of_objects hctx hobjects)

theorem Op.effect_addBalance (amount : Uint256) (other : Address) :
    (Op.addBalance address amount).Effect other (s.figures env other)
      ((s.addBalance env address amount).figures env other) :=
  .of_edit (figures_addBalance amount) (fun heq => ⟨rfl, (if_pos heq).symm, .inl, .inl⟩)
    fun hne => ⟨rfl, (if_neg hne).symm, .inl, .inl⟩

theorem Op.effect_subBalance {amount : Uint256} (h : s.subBalance env address amount = .ok t) (other : Address) :
    (Op.subBalance address amount).Effect other (s.figures env other) (t.figures env other) :=
  .of_edit (figures_subBalance amount h) (fun heq => ⟨rfl, (if_pos heq).symm, .inl, .inl⟩)
    fun hne => ⟨rfl, (if_neg hne).symm, .inl, .inl⟩

theorem Op.effect {o : Op} (h : o.apply env s = .ok t) (other : Address) :
    o.Effect other (s.figures env other) (t.figures env other) := by
  cases o with
  | loadObject address =>
    cases h
    exact .of_same (fun _ => rfl) (fun _ => rfl) figures_loadObject
  | loadCode address =>
    cases h
    exact .of_same (fun _ => rfl) (fun _ => rfl) figures_loadCode
  | loadState address key =>
    cases h
    exact .of_same (fun _ => rfl) (fun _ => rfl) (figures_loadState key)
  | addBalance address amount =>
    cases h
    exact effect_addBalance amount other
  | subBalance address amount => exact effect_subBalance h other
  | transfer sender recipient amount =>
    simp only [Op.apply, Check.bind_eq_ok, Check.pure_eq_ok] at h
    obtain ⟨r, hsub, rfl⟩ := h
    have hspent := effect_subBalance hsub other
    have hreceived : (Op.addBalance recipient amount).Effect other (r.figures env other)
      ((r.addBalance env recipient amount).figures env other) := effect_addBalance amount other
    refine ⟨hreceived.nonce.trans hspent.nonce, ?_, fun hmark => ?_, fun hmark => ?_⟩
    · rw [hreceived.balance, hspent.balance]
      rfl
    · exact hspent.destructed ((hreceived.destructed hmark).resolve_right List.not_mem_nil)
    · exact hspent.created ((hreceived.created hmark).resolve_right List.not_mem_nil)
  | setNonce address nonce =>
    cases h
    have hwritten : (s.setNonce env address nonce).figures env =
      edited env s address fun figures => { figures with nonce := nonce } := (found_of_getOrNew rfl).change _ rfl
    exact .of_edit hwritten (fun heq => ⟨(if_pos heq).symm, rfl, .inl, .inl⟩)
      fun hne => ⟨(if_neg hne).symm, rfl, .inl, .inl⟩
  | setCode address code =>
    cases h
    exact .of_same (fun _ => rfl) (fun _ => rfl) (((found_of_getOrNew rfl).change _ rfl).trans edited_id)
  | setState address key value =>
    cases h
    exact .of_same (fun _ => rfl) (fun _ => rfl) (figures_setState key value)
  | setTransientState address key value =>
    cases h
    refine .of_same (fun _ => rfl) (fun _ => rfl) ?_
    unfold changeTransientState
    dsimp only
    split
    · rfl
    · exact figures_of_live_eq rfl rfl
  | selfDestruct address =>
    cases h
    rcases figures_selfDestruct env s address with hsame | hmarked
    · exact .of_same (fun _ => rfl) (fun _ => rfl) hsame
    · exact .of_edit hmarked (fun heq => ⟨rfl, rfl, fun _ => .inr (List.mem_singleton.mpr heq), .inl⟩)
        fun _ => ⟨rfl, rfl, .inl, .inl⟩
  | createAccount address =>
    cases h
    refine .of_same (fun _ => rfl) (fun _ => rfl) ?_
    split
    · exact figures_loadObject
    · rename_i hexist
      exact figures_createAccount (by simpa using hexist)
  | createContract address =>
    rcases figures_createContract h with hsame | hmarked
    · exact .of_same (fun _ => rfl) (fun _ => rfl) hsame
    · exact .of_edit hmarked (fun heq => ⟨rfl, rfl, .inl, fun _ => .inr (List.mem_singleton.mpr heq)⟩)
        fun _ => ⟨rfl, rfl, .inl, .inl⟩
  | addLog log =>
    cases h
    exact .of_same (fun _ => rfl) (fun _ => rfl) (figures_of_live_eq rfl rfl)
  | addRefund gas =>
    cases h
    exact .of_same (fun _ => rfl) (fun _ => rfl) (figures_of_live_eq rfl rfl)
  | subRefund gas =>
    refine .of_same (fun _ => rfl) (fun _ => rfl) ?_
    simp only [Op.apply, StateDB.subRefund] at h
    split at h
    · cases h
    · cases h
      exact figures_of_live_eq rfl rfl
  | addAddressToAccessList address =>
    cases h
    refine .of_same (fun _ => rfl) (fun _ => rfl) ?_
    unfold StateDB.addAddressToAccessList
    rcases s.accessList.addAddress address with ⟨_ | _, list⟩
    · rfl
    · exact figures_of_live_eq rfl rfl
  | addSlotToAccessList address slot =>
    refine .of_same (fun _ => rfl) (fun _ => rfl) ?_
    simp only [Op.apply, StateDB.addSlotToAccessList, Check.bind_eq_ok, Check.pure_eq_ok] at h
    obtain ⟨⟨addressAdded, slotAdded, list⟩, -, rfl⟩ := h
    cases addressAdded <;> cases slotAdded <;> exact figures_of_live_eq rfl rfl

end Effects

section Frames

theorem figures_snapshot : s.snapshot.2.figures env other = s.figures env other :=
  figures_of_objects (objects_eq_of_objects rfl rfl)

theorem figures_cacheOnly (h : CacheOnly s t) : t.figures env other = s.figures env other :=
  figures_of_objects (congrArg Core.objects h.core)

-- A revert takes marks of self-destruction away.
theorem figures_restored {destructed : List Address} (h : Restored env destructed s t) :
    t.figures env other =
      if other ∈ destructed then { s.figures env other with destructed := false } else s.figures env other := by
  rw [figures, h.core, figures]
  by_cases hmem : other ∈ destructed
  · rw [if_pos hmem]
    cases hobject : (s.core env).objects other <;> simp [Core.forget, hmem, hobject, ObjectView.figures]
  · rw [if_neg hmem]
    simp [Core.forget, hmem]

theorem applyEvent_cases {event : Event} (h : s.applyEvent env event = .ok t) :
    t = s ∨ (∃ address amount, s.subBalance env address amount = .ok t) ∨
      ∃ address amount, t = s.addBalance env address amount := by
  cases event with
  | coinSpent spender amount =>
    simp only [applyEvent] at h
    split at h
    · exact .inl (Except.ok.inj h).symm
    · rw [Check.bind_eq_ok] at h
      obtain ⟨parsed, -, hsub⟩ := h
      exact .inr (.inl ⟨_, parsed, hsub⟩)
  | coinReceived receiver amount =>
    simp only [applyEvent] at h
    split at h
    · exact .inl (Except.ok.inj h).symm
    · simp only [Check.bind_eq_ok, Check.pure_eq_ok] at h
      obtain ⟨parsed, -, rfl⟩ := h
      exact .inr (.inr ⟨_, parsed, rfl⟩)
  | other type => exact .inl (Except.ok.inj h).symm

theorem afterBalanceChange_keeps (kept : StateDB W → Prop)
    (hadd : ∀ r address amount, kept r → kept (r.addBalance env address amount))
    (hsub : ∀ r next address amount, kept r → r.subBalance env address amount = .ok next → kept next)
    {prevEventsLen : Nat} {u : Unit} (h : kept s)
    (hrun : (afterBalanceChange env prevEventsLen).run s = .ok u t) : kept t := by
  have hends : Ends ((afterBalanceChange env prevEventsLen).run s) (fun _ next => kept next) kept := by
    refine ends_get_bind (ends_forM ?_ _ h)
    intro entry r hr
    refine ends_get_bind ?_
    split
    · exact ends_pure hr
    · refine ends_bind (fun next state => kept next ∧ state = r) (ends_lift ?_ ?_) ?_
      · intro next hnext
        refine ⟨?_, rfl⟩
        rcases applyEvent_cases hnext with rfl | ⟨address, amount, hspent⟩ | ⟨address, amount, rfl⟩
        · exact hr
        · exact hsub r next address amount hr hspent
        · exact hadd r address amount hr
      · intro _ _
        exact hr
      · rintro next _ ⟨hnext, rfl⟩
        exact hnext
  exact hends.of_ok hrun

end Frames

end PosChain.Evm
