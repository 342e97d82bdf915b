import PosChain.Evm.StateDB.Logged

namespace PosChain.Evm

open StateDB

variable {W : Type} {env : Env W} {place : Place} {s t : StateDB W} {address : Address}
  {object next : StateObject}

-- Loading an object, a code or a slot is not seen by the getters.
section Loads

theorem logged_setStateObject (hobject : s.object env address = some object)
    (hview : next.view env s.world address = object.view env s.world address)
    (hwithin : ∀ live, s.stateObjects address = some live → live.Within next) :
    Logged env place [] s (s.setStateObject address next) := by
  refine .of_same rfl rfl rfl ?_ (Place.agree_of_eq rfl) rfl (grows_setStateObject hwithin)
  have hself : (s.core env).objects address = some (object.view env s.world address) := by
    simp [core, hobject]
  rw [core_setStateObject, hview, ← hself, Function.update_eq_self]

theorem logged_setLive (hlive : s.stateObjects address = some object)
    (hview : next.view env s.world address = object.view env s.world address)
    (hwithin : object.Within next) : Logged env place [] s (s.setStateObject address next) := by
  refine logged_setStateObject (s.object_of_live env address hlive) hview ?_
  intro live hlive'
  rw [hlive] at hlive'
  cases hlive'
  exact hwithin

section

variable (hget : s.getStateObject env address = (some object, t))

include hget

theorem live_of_getStateObject :
    t.stateObjects address = some object := by
  rcases s.getStateObject_cases env address with ⟨live, hlive, h⟩ | ⟨account, -, -, h⟩ | ⟨-, -, h⟩
  · rw [h] at hget
    obtain ⟨hobject, rfl⟩ := Prod.mk.inj hget
    exact hobject ▸ hlive
  · rw [h] at hget
    obtain ⟨hobject, rfl⟩ := Prod.mk.inj hget
    cases hobject
    simp [setStateObject]
  · rw [h] at hget
    cases hget

theorem same_of_getStateObject :
    t.core env = s.core env ∧ t.cacheView = s.cacheView ∧ t.journal = s.journal ∧
      t.revisions = s.revisions := by
  rcases s.getStateObject_cases env address with ⟨live, -, h⟩ | ⟨account, hnone, haccount, h⟩ | ⟨-, -, h⟩
  · rw [h] at hget
    cases hget
    exact ⟨rfl, rfl, rfl, rfl⟩
  · rw [h] at hget
    cases hget
    refine ⟨?_, rfl, rfl, rfl⟩
    have hself : (s.core env).objects address = some ((newObject account).view env s.world address) := by
      simp [core, object_eq, hnone, haccount]
    rw [core_setStateObject, ← hself, Function.update_eq_self]
  · rw [h] at hget
    cases hget

theorem logged_of_getStateObject :
    Logged env place [] s t := by
  rcases s.getStateObject_cases env address with ⟨live, hlive, h⟩ | ⟨account, hnone, -, h⟩ | ⟨-, -, h⟩
  · rw [h] at hget
    cases hget
    exact .refl s
  · rw [h] at hget
    obtain ⟨hobject, rfl⟩ := Prod.mk.inj hget
    refine logged_setStateObject (by rw [StateDB.object, h]) rfl ?_
    intro live hlive
    rw [hnone] at hlive
    cases hlive
  · rw [h] at hget
    cases hget

end

theorem getStateObject_none (hget : s.getStateObject env address = (none, t)) :
    t = s ∧ s.stateObjects address = none ∧ env.keeper.getAccount s.world address = none := by
  rcases s.getStateObject_cases env address with
    ⟨live, hlive, h⟩ | ⟨account, hnone, haccount, h⟩ | ⟨hnone, haccount, h⟩
  · rw [h] at hget
    cases hget
  · rw [h] at hget
    cases hget
  · rw [h] at hget
    exact ⟨(Prod.mk.inj hget).2.symm, hnone, haccount⟩

theorem logged_loadObject : Logged env place [] s (s.loadObject env address) := by
  unfold loadObject
  rcases hget : s.getStateObject env address with ⟨_ | object, t⟩
  · rw [(getStateObject_none hget).1]
    exact .refl s
  · exact logged_of_getStateObject hget

theorem logged_loadCode : Logged env place [] s (s.loadCode env address) := by
  unfold loadCode
  rcases hget : s.getStateObject env address with ⟨_ | object, t⟩
  · rw [(getStateObject_none hget).1]
    exact .refl s
  · have hlive := live_of_getStateObject hget
    exact (logged_of_getStateObject hget).trans (logged_setLive hlive (by simp) ⟨id, fun _ => id⟩)

theorem logged_loadState (key : Hash) : Logged env place [] s (s.loadState env address key) := by
  unfold StateDB.loadState
  rcases hget : s.getStateObject env address with ⟨_ | object, t⟩
  · rw [(getStateObject_none hget).1]
    exact .refl s
  · have hlive := live_of_getStateObject hget
    exact (logged_of_getStateObject hget).trans
      (logged_setLive hlive (by simp) (object.within_loadState env _ address key))

end Loads

-- A change of an object, and what undoing its entry makes of it.
section Changes

theorem core_append (entry : JournalEntry) : (s.append entry).core env = s.core env := by
  have hobjects : ((s.append entry).core env).objects = (s.core env).objects := by
    funext other
    simp only [core, object_eq]
    rfl
  exact congrArg (fun objects => { s.core env with objects := objects }) hobjects

theorem core_change (entry : JournalEntry) :
    (s.change address entry next).core env =
      { s.core env with
        objects := Function.update (s.core env).objects address (some (next.view env s.world address)) } := by
  rw [change, core_setStateObject, core_append]
  rfl

theorem journal_change (entry : JournalEntry) :
    (s.change address entry next).journal = s.journal.append entry :=
  rfl

theorem grows_change (hlive : s.stateObjects address = some object) (hwithin : object.Within next)
    (entry : JournalEntry) : s.Grows (s.change address entry next) := by
  refine grows_setStateObject (s := s.append entry) ?_
  intro live hlive'
  have hsame : s.stateObjects address = some live := hlive'
  rw [hlive] at hsame
  cases hsame
  exact hwithin

theorem logged_change {entry : JournalEntry} {write : ObjectView → ObjectView}
    (hlive : s.stateObjects address = some object)
    (hentry : entry.undoObject env s.world = some (address, write))
    (hview : write (next.view env s.world address) = object.view env s.world address)
    (hwithin : object.Within next) : Logged env place [] s (s.change address entry next) := by
  refine .of_entry rfl rfl (journal_change entry) ?_ ?_ ?_ rfl (grows_change hlive hwithin entry)
  · have hself : (s.core env).objects address = some (object.view env s.world address) := by
      simp [core, s.object_of_live env address hlive]
    rw [core_change]
    simp only [undoCore, hentry, Core.onObject, Function.update_self, Option.map_some, hview,
      Function.update_idem, Core.forget_nil]
    rw [← hself, Function.update_eq_self]
  · cases entry with
    | precompileCallChange snapshot prevEvents prevProcessed => cases hentry
    | _ => rfl
  · intro created hcreated
    subst hcreated
    cases hentry

theorem logged_createObject (hnone : s.stateObjects address = none)
    (haccount : env.keeper.getAccount s.world address = none) :
    Logged env place [] s (s.createObject env address).2 := by
  refine .of_entry rfl rfl (journal_change (.createObjectChange address)) ?_ rfl ?_ rfl ?_
  · have hself : (s.core env).objects address = none := by
      simp [core, s.object_eq env address, hnone, haccount]
    have hloaded : loadedView env s.world address = none := by
      simp [loadedView, haccount]
    rw [createObject, core_change]
    simp only [undoCore, JournalEntry.undoObject, Function.update_idem, hloaded, Core.forget_nil]
    rw [← hself, Function.update_eq_self]
  · intro created hcreated
    obtain rfl := JournalEntry.createObjectChange.inj hcreated
    exact hnone
  · refine grows_setStateObject (s := s.append _) ?_
    intro live hlive
    have hsame : s.stateObjects address = some live := hlive
    rw [hnone] at hsame
    cases hsame

theorem getOrNewStateObject_cases (env : Env W) (s : StateDB W) (address : Address) :
    (∃ object t, s.getStateObject env address = (some object, t) ∧
      s.getOrNewStateObject env address = (object, t)) ∨
    (s.stateObjects address = none ∧ env.keeper.getAccount s.world address = none ∧
      s.getOrNewStateObject env address = s.createObject env address) := by
  unfold getOrNewStateObject
  rcases hfound : s.getStateObject env address with ⟨_ | found, t⟩
  · obtain ⟨rfl, hnone, haccount⟩ := getStateObject_none hfound
    exact .inr ⟨hnone, haccount, rfl⟩
  · exact .inl ⟨found, t, rfl, rfl⟩

theorem live_of_getOrNew (hget : s.getOrNewStateObject env address = (object, t)) :
    t.stateObjects address = some object := by
  rcases getOrNewStateObject_cases env s address with
    ⟨found, r, hfound, h⟩ | ⟨-, -, h⟩
  · rw [h] at hget
    cases hget
    exact live_of_getStateObject hfound
  · rw [h, createObject] at hget
    cases hget
    simp [change, setStateObject]

theorem logged_of_getOrNew (hget : s.getOrNewStateObject env address = (object, t)) :
    Logged env place [] s t := by
  rcases getOrNewStateObject_cases env s address with
    ⟨found, r, hfound, h⟩ | ⟨hnone, haccount, h⟩
  · rw [h] at hget
    cases hget
    exact logged_of_getStateObject hfound
  · rw [h] at hget
    have hlogged : Logged env place [] s (s.createObject env address).2 :=
      logged_createObject hnone haccount
    rwa [hget] at hlogged

end Changes

section Setters

theorem logged_addBalance (amount : Uint256) : Logged env place [] s (s.addBalance env address amount) := by
  unfold addBalance
  rcases hget : s.getOrNewStateObject env address with ⟨object, t⟩
  have hload : Logged env place [] s t := logged_of_getOrNew hget
  dsimp only
  split
  · exact hload
  · exact hload.trans (logged_change (live_of_getOrNew hget) rfl rfl ⟨id, fun _ => id⟩)

theorem logged_subBalance (amount : Uint256) (h : s.subBalance env address amount = .ok t) :
    Logged env place [] s t := by
  unfold subBalance at h
  rcases hget : s.getOrNewStateObject env address with ⟨object, r⟩
  have hload : Logged env place [] s r := logged_of_getOrNew hget
  rw [hget] at h
  dsimp only at h
  split at h
  · cases h
    exact hload
  · split at h
    · cases h
    · cases h
      exact hload.trans (logged_change (live_of_getOrNew hget) rfl rfl ⟨id, fun _ => id⟩)

theorem logged_setNonce (nonce : UInt64) : Logged env place [] s (s.setNonce env address nonce) := by
  unfold StateDB.setNonce
  rcases hget : s.getOrNewStateObject env address with ⟨object, t⟩
  have hload : Logged env place [] s t := logged_of_getOrNew hget
  exact hload.trans (logged_change (live_of_getOrNew hget) rfl rfl ⟨id, fun _ => id⟩)

theorem logged_setCode (code : Option Bytes) : Logged env place [] s (s.setCode env address code) := by
  unfold StateDB.setCode
  rcases hget : s.getOrNewStateObject env address with ⟨object, t⟩
  have hload : Logged env place [] s t := logged_of_getOrNew hget
  refine hload.trans (logged_change (live_of_getOrNew hget) rfl ?_ ⟨fun _ => rfl, fun _ => id⟩)
  have hcode : (object.codeOf env t.world).or (lookupCode env t.world object.account.codeHash) =
      object.codeOf env t.world := by
    rw [StateObject.codeOf_eq]
    cases object.code <;> simp
  simp only [StateObject.view, hcode]
  rfl

theorem logged_setState (key value : Hash) : Logged env place [] s (s.setState env address key value) := by
  unfold StateDB.setState
  rcases hget : s.getOrNewStateObject env address with ⟨object, t⟩
  have hload : Logged env place [] s t := logged_of_getOrNew hget
  have hlive : t.stateObjects address = some object := live_of_getOrNew hget
  have hwithin := object.within_loadState env t.world address key
  dsimp only
  split
  · exact hload.trans (logged_setLive hlive (by simp) hwithin)
  · refine hload.trans (logged_change hlive rfl ?_
      (hwithin.trans ((object.loadState env t.world address key).within_setState key value)))
    have hview := object.view_loadState env t.world address key
    have hstorage := (object.loadState env t.world address key).storage_setState env t.world address key value
    have hsame : (object.loadState env t.world address key).getState env t.world address =
        object.getState env t.world address := congrArg ObjectView.storage hview
    have hset : ((object.loadState env t.world address key).setState key value).view env t.world address =
        { object.view env t.world address with
          storage := Function.update (object.getState env t.world address) key value } := by
      rw [← hview, ← hsame, ← hstorage]
      rfl
    simp only [hset, Function.update_idem, Function.update_eq_self]
    rfl

theorem logged_selfDestruct : Logged env place [address] s (s.selfDestruct env address) := by
  unfold StateDB.selfDestruct
  rcases hget : s.getStateObject env address with ⟨_ | object, t⟩
  · obtain ⟨rfl, hnone, haccount⟩ := getStateObject_none hget
    have hforget : (t.core env).forget [address] = t.core env :=
      Core.forget_of_absent (by simp [core, object_eq, hnone, haccount])
    have hrefl : Logged env place [] t t := .refl t
    obtain ⟨added, hentries, hundo, hrest⟩ := hrefl.journal
    rw [Core.forget_nil] at hundo
    exact { hrefl with journal := ⟨added, hentries, by rw [hforget]; exact hundo, hrest⟩ }
  · have hlive := live_of_getStateObject hget
    have hload : Logged env place [] s t := logged_of_getStateObject hget
    have hwithin : object.Within (object.setSelfDestructed true) := ⟨id, fun _ => id⟩
    dsimp only
    refine hload.trans (.of_entry rfl rfl (journal_change (.selfDestructChange address)) ?_ rfl ?_ rfl
      (grows_change hlive hwithin _))
    · have hself : (t.core env).objects address = some (object.view env t.world address) := by
        simp [core, t.object_of_live env address hlive]
      have hmarked : ((t.change address (.selfDestructChange address)
          (object.setSelfDestructed true)).core env).objects address =
            some ((object.setSelfDestructed true).view env t.world address) := by
        rw [core_change]
        simp
      simp only [undoCore, JournalEntry.undoObject, Core.forget_of_present hmarked,
        Core.forget_of_present hself]
      rw [core_change]
      simp only [Function.update_idem]
      rfl
    · intro created hcreated
      cases hcreated

theorem logged_createAccount (h : s.exist env address = false) :
    Logged env place [] s (s.createAccount env address) := by
  rcases hget : s.getStateObject env address with ⟨_ | object, t⟩
  · obtain ⟨-, hnone, haccount⟩ := getStateObject_none hget
    exact logged_createObject hnone haccount
  · simp [exist, hget] at h

theorem logged_createContract (h : s.createContract env address = .ok t) : Logged env place [] s t := by
  unfold createContract at h
  rcases hget : s.getStateObject env address with ⟨_ | object, r⟩
  · rw [hget] at h
    cases h
  · have hload : Logged env place [] s r := logged_of_getStateObject hget
    rw [hget] at h
    dsimp only at h
    split at h
    · cases h
      exact hload
    · rename_i hnew
      cases h
      refine hload.trans (logged_change (live_of_getStateObject hget) rfl ?_ ⟨id, fun _ => id⟩)
      have hfalse : object.newContract = false := by simpa using hnew
      simp only [StateObject.view, hfalse]
      rfl

end Setters

section Counters

theorem objects_eq_of_objects (hctx : t.ctx = s.ctx) (hobjects : t.stateObjects = s.stateObjects) :
    (t.core env).objects = (s.core env).objects := by
  have hworld : t.world = s.world := congrArg Ctx.world hctx
  funext other
  simp only [core, object_eq, hobjects, hworld]

theorem core_eq_of_objects (hctx : t.ctx = s.ctx) (hobjects : t.stateObjects = s.stateObjects) :
    t.core env = ⟨(s.core env).objects, t.transientStorage, t.refund, t.logs, t.accessList⟩ := by
  have hsame : (t.core env).objects = (s.core env).objects := objects_eq_of_objects hctx hobjects
  rw [← hsame]
  rfl

theorem logged_append {entry : JournalEntry} (hctx : t.ctx = s.ctx) (htx : t.txIndex = s.txIndex)
    (hjournal : t.journal = s.journal.append entry) (hobjects : t.stateObjects = s.stateObjects)
    (hcore : undoCore env s.world entry
      ⟨(s.core env).objects, t.transientStorage, t.refund, t.logs, t.accessList⟩ = some (s.core env))
    (hentry : undoCache entry t.cacheView = some s.cacheView)
    (hcreated : ∀ address, entry ≠ .createObjectChange address) (hrevisions : t.revisions = s.revisions) :
    Logged env place [] s t := by
  refine .of_entry hctx htx hjournal ?_ hentry (fun created h => absurd h (hcreated created)) hrevisions
    (.of_eq hobjects)
  rw [core_eq_of_objects hctx hobjects, hcore, Core.forget_nil]

theorem logged_changeTransientState (key value : Hash) :
    Logged env place [] s (s.changeTransientState address key value) := by
  unfold changeTransientState
  dsimp only
  split
  · exact .refl s
  · refine logged_append rfl rfl
      (rfl : _ = s.journal.append (.transientStorageChange address key (s.transientStorage address key)))
      rfl ?_ rfl (by simp) rfl
    simp only [undoCore, JournalEntry.undoObject, setTransientState, append, Function.update_self,
      Function.update_idem, Function.update_eq_self]
    rfl

theorem logged_addLog (log : Log) : Logged env place [] s (s.addLog log) := by
  refine logged_append rfl rfl (rfl : _ = s.journal.append .addLogChange) rfl ?_ rfl (by simp) rfl
  simp [undoCore, JournalEntry.undoObject, addLog, append]
  rfl

theorem logged_addRefund (gas : UInt64) : Logged env place [] s (s.addRefund gas) := by
  refine logged_append rfl rfl (rfl : _ = s.journal.append (.refundChange s.refund)) rfl ?_ rfl (by simp) rfl
  rfl

theorem logged_subRefund (gas : UInt64) (h : s.subRefund gas = .ok t) : Logged env place [] s t := by
  unfold subRefund at h
  split at h
  · cases h
  · cases h
    refine logged_append rfl rfl (rfl : _ = s.journal.append (.refundChange s.refund)) rfl ?_ rfl
      (by simp) rfl
    rfl

theorem logged_addAddressToAccessList : Logged env place [] s (s.addAddressToAccessList address) := by
  unfold addAddressToAccessList
  cases hcontains : s.accessList.containsAddress address with
  | true =>
    simp only [AccessList.addAddress, hcontains, if_true, Bool.false_eq_true, if_false]
    exact .refl s
  | false =>
    have hdelete := AccessList.deleteAddress_addAddress hcontains
    simp only [AccessList.addAddress, hcontains, Bool.false_eq_true, if_false, if_true] at hdelete ⊢
    refine logged_append rfl rfl (rfl : _ = s.journal.append (.accessListAddAccountChange address)) rfl ?_
      rfl (by simp) rfl
    simp only [undoCore, JournalEntry.undoObject, hdelete]
    rfl

theorem logged_slotEntry {accessList : AccessList} {slot : Hash}
    (h : accessList.deleteSlot address slot = .ok s.accessList) :
    Logged env place [] s
      { s.append (.accessListAddSlotChange address slot) with accessList := accessList } := by
  refine logged_append rfl rfl (rfl : _ = s.journal.append (.accessListAddSlotChange address slot)) rfl ?_ rfl
    (by simp) rfl
  simp only [undoCore, JournalEntry.undoObject, h]
  rfl

theorem logged_addressEntry (h : s.accessList.addresses address = none) :
    Logged env place [] s
      { s.append (.accessListAddAccountChange address) with
        accessList := s.accessList.setAddress address (some none) } := by
  refine logged_append rfl rfl (rfl : _ = s.journal.append (.accessListAddAccountChange address)) rfl ?_ rfl
    (by simp) rfl
  have hdelete : (s.accessList.setAddress address (some none)).deleteAddress address = s.accessList := by
    rw [AccessList.deleteAddress, AccessList.setAddress_setAddress, AccessList.setAddress_self h]
  simp only [undoCore, JournalEntry.undoObject, hdelete]
  rfl

theorem logged_addSlotToAccessList (slot : Hash) (h : s.addSlotToAccessList address slot = .ok t) :
    Logged env place [] s t := by
  unfold addSlotToAccessList AccessList.addSlot at h
  cases haddress : s.accessList.addresses address with
  | none =>
    rw [haddress] at h
    cases h
    refine (logged_addressEntry haddress).trans (logged_slotEntry ?_)
    exact AccessList.deleteSlot_openSlots s.accessList address slot
  | some entry =>
    cases entry with
    | none =>
      rw [haddress] at h
      cases h
      refine logged_slotEntry ?_
      rw [AccessList.deleteSlot_openSlots, AccessList.setAddress_self haddress]
    | some index =>
      rw [haddress] at h
      dsimp only at h
      cases hset : s.accessList.slots[index]? with
      | none =>
        rw [hset] at h
        cases h
      | some set =>
        rw [hset] at h
        dsimp only at h
        split at h
        · cases h
          exact .refl s
        · rename_i hslot
          cases h
          exact logged_slotEntry (AccessList.deleteSlot_setSlots haddress hset hslot)

end Counters

def Op.destructs : Op → List Address
  | .selfDestruct address => [address]
  | _ => []

theorem Op.logged {o : Op} (h : o.apply env s = .ok t) : Logged env place o.destructs s t := by
  cases o with
  | loadObject address =>
    cases h
    exact logged_loadObject
  | loadCode address =>
    cases h
    exact logged_loadCode
  | loadState address key =>
    cases h
    exact logged_loadState key
  | addBalance address amount =>
    cases h
    exact logged_addBalance amount
  | subBalance address amount => exact logged_subBalance amount h
  | transfer sender recipient amount =>
    simp only [Op.apply, Check.bind_eq_ok, Check.pure_eq_ok] at h
    obtain ⟨r, hsub, rfl⟩ := h
    exact (logged_subBalance amount hsub).trans (logged_addBalance amount)
  | setNonce address nonce =>
    cases h
    exact logged_setNonce nonce
  | setCode address code =>
    cases h
    exact logged_setCode code
  | setState address key value =>
    cases h
    exact logged_setState key value
  | setTransientState address key value =>
    cases h
    exact logged_changeTransientState key value
  | selfDestruct address =>
    cases h
    exact logged_selfDestruct
  | createAccount address =>
    cases h
    split
    · exact logged_loadObject
    · rename_i hexist
      exact logged_createAccount (by simpa using hexist)
  | createContract address => exact logged_createContract h
  | addLog log =>
    cases h
    exact logged_addLog log
  | addRefund gas =>
    cases h
    exact logged_addRefund gas
  | subRefund gas => exact logged_subRefund gas h
  | addAddressToAccessList address =>
    cases h
    exact logged_addAddressToAccessList
  | addSlotToAccessList address slot => exact logged_addSlotToAccessList slot h

end PosChain.Evm
