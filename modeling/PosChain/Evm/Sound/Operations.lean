import PosChain.Evm.Sound

namespace PosChain.Evm

open StateDB

variable {R : Type} {config : Config} {known : Set Bytes} {s t : StateDB (World R)} {address : Address}
  {object next : StateObject} {pending : List Event}

section Loads

section

variable (h : Sound config known s pending)

include h

theorem Sound.of_core (hctx : t.ctx = s.ctx)
    (hstores : t.stores = s.stores) (hdirty : ∀ address, t.Dirty address ↔ s.Dirty address) (hgrows : s.Grows t)
    (hcore : (t.core (VmKeeper.env config)).objects = (s.core (VmKeeper.env config)).objects) :
    Sound config known t pending := by
  refine h.of_same hctx hstores hdirty hgrows ?_
  intro other view hview
  rw [hcore] at hview
  exact ⟨view, hview, .refl view⟩

theorem Sound.load
    (hget : s.getStateObject (VmKeeper.env config) address = (some object, t)) :
    Sound config known t pending := by
  have hlogged : Logged (VmKeeper.env config) .evm [] s t := logged_of_getStateObject hget
  obtain ⟨hcore, hcache, hjournal, -⟩ := same_of_getStateObject hget
  have hstores : t.stores = s.stores := congrArg (fun view => view.cache.stores.current) hcache
  refine h.of_core hlogged.ctx hstores ?_ hlogged.grows (congrArg Core.objects hcore)
  intro other
  rw [Dirty, hjournal, Dirty]

theorem Sound.setLive (hlive : s.stateObjects address = some object)
    (hview : next.view (VmKeeper.env config) s.world address =
      object.view (VmKeeper.env config) s.world address)
    (hwithin : object.Within next) : Sound config known (s.setStateObject address next) pending := by
  have hgrows : s.Grows (s.setStateObject address next) := by
    refine grows_setStateObject fun live hlive' => ?_
    rw [hlive] at hlive'
    cases hlive'
    exact hwithin
  refine h.of_core rfl rfl (fun _ => Iff.rfl) hgrows ?_
  have hself : (s.core (VmKeeper.env config)).objects address =
      some (object.view (VmKeeper.env config) s.world address) := by
    simp [core, s.object_of_live _ address hlive]
  rw [core_setStateObject, hview, ← hself, Function.update_eq_self]

theorem Sound.loadObject :
    Sound config known (s.loadObject (VmKeeper.env config) address) pending := by
  unfold StateDB.loadObject
  rcases hget : s.getStateObject (VmKeeper.env config) address with ⟨_ | object, t⟩
  · rw [(getStateObject_none hget).1]
    exact h
  · exact h.load hget

theorem Sound.loadCode :
    Sound config known (s.loadCode (VmKeeper.env config) address) pending := by
  unfold StateDB.loadCode
  rcases hget : s.getStateObject (VmKeeper.env config) address with ⟨_ | object, t⟩
  · rw [(getStateObject_none hget).1]
    exact h
  · exact (h.load hget).setLive (live_of_getStateObject hget) (by simp) ⟨id, fun _ => id⟩

theorem Sound.loadState (key : Hash) :
    Sound config known (s.loadState (VmKeeper.env config) address key) pending := by
  unfold StateDB.loadState
  rcases hget : s.getStateObject (VmKeeper.env config) address with ⟨_ | object, t⟩
  · rw [(getStateObject_none hget).1]
    exact h
  · exact (h.load hget).setLive (live_of_getStateObject hget) (by simp)
      (object.within_loadState _ _ address key)

end

end Loads

section Edits

theorem Sound.viewOf (h : Sound config known s pending) (hlive : s.stateObjects address = some object) :
    ViewSound config known s address (object.view (VmKeeper.env config) s.world address) := by
  apply h.views
  simp [core, s.object_of_live _ address hlive]

theorem not_written (hlive : s.stateObjects address = some object) {key : Hash}
    (h : key ∉ object.dirtyStorage) : ¬ s.Written address key := by
  rintro ⟨found, hfound, hkey⟩
  rw [hlive] at hfound
  cases hfound
  exact h hkey

theorem newCode_of_pending (hlive : s.stateObjects address = some object) (h : s.CodePending address) :
    object.newCode ≠ none := by
  obtain ⟨found, hfound, hnew⟩ := h
  rw [hlive] at hfound
  cases hfound
  exact hnew

section

variable (h : Sound config known s pending)

include h

-- A change of the nonce, the balance or the mark of an account. It is in the journal
-- afterwards, so nothing is asked of what was changed.
theorem Sound.edit {entry : JournalEntry}
    (hlive : s.stateObjects address = some object) (hentry : entry.dirtied = some address)
    (hexempt : ¬ Exempt config s.world address) (hcode : next.code = object.code)
    (hpending : next.newCode = object.newCode) (hslots : next.dirtyStorage = object.dirtyStorage)
    (horigin : next.originStorage = object.originStorage) (hwithin : object.Within next)
    (hhash : next.account.codeHash = object.account.codeHash)
    (hlocked : next.account.lockedBalance = object.account.lockedBalance)
    (hnew : next.newContract = object.newContract)
    (hmark : next.selfDestructed = true → object.newContract = true) :
    Sound config known (s.change address entry next) pending := by
  have hview := h.viewOf hlive
  have hdirty : (s.change address entry next).Dirty address := (dirty_change address).mpr (.inl hentry)
  have hcodeOf : next.codeOf (VmKeeper.env config) s.world = object.codeOf (VmKeeper.env config) s.world := by
    rw [StateObject.codeOf_eq, StateObject.codeOf_eq, hcode, hhash]
  have hstorage : next.getState (VmKeeper.env config) s.world address =
      object.getState (VmKeeper.env config) s.world address := by
    funext key
    simp only [StateObject.getState, StateObject.getCommittedState, hslots, horigin]
  refine h.change ?_ ?_ ⟨?_, ?_, ?_, ?_, ?_, ?_, ?_⟩
  · intro live hlive'
    rw [hlive] at hlive'
    cases hlive'
    exact hwithin
  · intro other hother
    rw [hentry] at hother
    exact ⟨(Option.some.inj hother).symm, hexempt⟩
  · intro key hkey
    rw [written_change, hslots] at hkey
    have hslot := hview.slots key (not_written hlive hkey)
    simp only [StateObject.view] at hslot ⊢
    rw [hstorage]
    exact hslot
  · intro code hfound
    simp only [StateObject.view] at hfound ⊢
    rw [hcodeOf] at hfound
    rw [hhash]
    exact hview.code code hfound
  · intro hne
    simp only [StateObject.view] at hne ⊢
    rw [hhash] at hne ⊢
    rw [hcodeOf, codePending_change, hpending]
    obtain ⟨hsome, hfound⟩ := hview.coded hne
    exact ⟨hsome, hfound.imp_right (newCode_of_pending hlive)⟩
  · simp only [StateObject.view, hlocked]
    exact hview.locked
  · simp only [StateObject.view, hnew]
    exact hview.fresh
  · intro hdestructed
    simp only [StateObject.view, hnew]
    exact ⟨hmark hdestructed, hdirty⟩
  · exact fun hclean => absurd hdirty hclean

theorem Sound.create (hnone : s.stateObjects address = none) (hexempt : ¬ Exempt config s.world address) :
    Sound config known (s.createObject (VmKeeper.env config) address).2 pending := by
  have hdirty : (s.change address (.createObjectChange address)
      (newObject (VmKeeper.env (R := R) config).emptyAccount)).Dirty address :=
    (dirty_change address).mpr (.inl rfl)
  have hcode : (newObject (VmKeeper.env (R := R) config).emptyAccount).codeOf (VmKeeper.env config)
      s.world = none := by
    rw [StateObject.codeOf_eq]
    simp [newObject, lookupCode, Env.emptyAccount]
  refine h.change ?_ ?_ ⟨?_, ?_, ?_, rfl, ?_, ?_, fun hclean => absurd hdirty hclean⟩
  · intro live hlive
    rw [hnone] at hlive
    cases hlive
  · intro other hother
    exact ⟨(Option.some.inj hother).symm, hexempt⟩
  · intro key _
    rfl
  · intro code hfound
    simp only [StateObject.view] at hfound
    rw [hcode] at hfound
    cases hfound
  · intro hne
    exact absurd rfl hne
  · intro hnew
    cases hnew
  · intro hmark
    cases hmark

theorem Sound.writeSlot (hlive : s.stateObjects address = some object)
    (hexempt : ¬ Exempt config s.world address) (key prev value : Hash) :
    Sound config known (s.change address (.storageChange address key prev) (object.setState key value))
      pending := by
  have hview := h.viewOf hlive
  have hdirty : (s.change address (.storageChange address key prev) (object.setState key value)).Dirty
      address := (dirty_change address).mpr (.inl rfl)
  refine h.change ?_ ?_ ⟨?_, hview.code, ?_, hview.locked, hview.fresh, ?_, fun hclean => absurd hdirty hclean⟩
  · intro live hlive'
    rw [hlive] at hlive'
    cases hlive'
    exact object.within_setState key value
  · intro other hother
    exact ⟨(Option.some.inj hother).symm, hexempt⟩
  · intro other hother
    rw [written_change, StateObject.setState, Std.ExtTreeMap.mem_insert, not_or] at hother
    have hne : other ≠ key := by
      rintro rfl
      exact hother.1 Std.ReflCmp.compare_self
    have hslot := hview.slots other (not_written hlive hother.2)
    simp only [StateObject.view, StateObject.storage_setState] at hslot ⊢
    rw [Function.update_of_ne hne, hslot]
    rfl
  · intro hne
    obtain ⟨hsome, hfound⟩ := hview.coded hne
    refine ⟨hsome, hfound.imp_right fun hpending => codePending_change.mpr ?_⟩
    have hcode := newCode_of_pending hlive hpending
    exact hcode
  · intro hmark
    exact ⟨(hview.destructed hmark).1, hdirty⟩

-- A contract is new at an address without storage and without locked coins.
theorem Sound.markNew (hlive : s.stateObjects address = some object)
    (hfresh : s.world.lockedCoin address = 0 ∧ ∀ key, s.world.getState address key = Ethereum.zeroHash) :
    Sound config known (s.change address (.createContractChange address) (object.setNewContract true))
      pending := by
  have hview := h.viewOf hlive
  refine h.change ?_ ?_ ⟨?_, hview.code, ?_, hview.locked, fun _ => hfresh, ?_, ?_⟩
  · intro live hlive'
    rw [hlive] at hlive'
    cases hlive'
    exact ⟨id, fun _ => id⟩
  · intro other hother
    cases hother
  · intro key hkey
    rw [written_change] at hkey
    exact hview.slots key (not_written hlive hkey)
  · intro hne
    obtain ⟨hsome, hfound⟩ := hview.coded hne
    refine ⟨hsome, hfound.imp_right fun hpending => codePending_change.mpr ?_⟩
    have hcode := newCode_of_pending hlive hpending
    exact hcode
  · intro hmark
    exact ⟨rfl, (dirty_change address).mpr (.inr (hview.destructed hmark).2)⟩
  · intro hclean
    exact hview.untouched fun hold => hclean ((dirty_change address).mpr (.inr hold))

theorem Sound.getOrNew (hexempt : ¬ Exempt config s.world address)
    (hget : s.getOrNewStateObject (VmKeeper.env config) address = (object, t)) :
    Sound config known t pending := by
  rcases getOrNewStateObject_cases (VmKeeper.env config) s address with
    ⟨found, r, hfound, hcase⟩ | ⟨hnone, -, hcase⟩
  · rw [hcase] at hget
    cases hget
    exact h.load hfound
  · have hcreated := h.create hnone hexempt
    rw [← hcase, hget] at hcreated
    exact hcreated

end

theorem exempt_of_getOrNew (hget : s.getOrNewStateObject (VmKeeper.env config) address = (object, t))
    (hexempt : ¬ Exempt config s.world address) : ¬ Exempt config t.world address := by
  have hlogged : Logged (VmKeeper.env config) .evm [] s t := logged_of_getOrNew hget
  rw [hlogged.world]
  exact hexempt

end Edits

section Setters

variable (h : Sound config known s pending) (hexempt : ¬ Exempt config s.world address)

include h hexempt

theorem Sound.addBalance (amount : Uint256) :
    Sound config known (s.addBalance (VmKeeper.env config) address amount) pending := by
  unfold StateDB.addBalance
  rcases hget : s.getOrNewStateObject (VmKeeper.env config) address with ⟨object, t⟩
  have hsound := h.getOrNew hexempt hget
  have hlive := live_of_getOrNew hget
  dsimp only
  split
  · exact hsound
  · exact hsound.edit hlive rfl (exempt_of_getOrNew hget hexempt) rfl rfl rfl rfl ⟨id, fun _ => id⟩ rfl rfl rfl
      fun hmark => ((hsound.viewOf hlive).destructed hmark).1

theorem Sound.subBalance (amount : Uint256)
    (hsub : s.subBalance (VmKeeper.env config) address amount = .ok t) : Sound config known t pending := by
  unfold StateDB.subBalance at hsub
  rcases hget : s.getOrNewStateObject (VmKeeper.env config) address with ⟨object, r⟩
  have hsound := h.getOrNew hexempt hget
  have hlive := live_of_getOrNew hget
  rw [hget] at hsub
  dsimp only at hsub
  split at hsub
  · cases hsub
    exact hsound
  · split at hsub
    · cases hsub
    · cases hsub
      exact hsound.edit hlive rfl (exempt_of_getOrNew hget hexempt) rfl rfl rfl rfl ⟨id, fun _ => id⟩ rfl rfl
        rfl fun hmark => ((hsound.viewOf hlive).destructed hmark).1

theorem Sound.setNonce (nonce : UInt64) :
    Sound config known (s.setNonce (VmKeeper.env config) address nonce) pending := by
  unfold StateDB.setNonce
  rcases hget : s.getOrNewStateObject (VmKeeper.env config) address with ⟨object, t⟩
  have hsound := h.getOrNew hexempt hget
  have hlive := live_of_getOrNew hget
  exact hsound.edit hlive rfl (exempt_of_getOrNew hget hexempt) rfl rfl rfl rfl ⟨id, fun _ => id⟩ rfl rfl rfl
    fun hmark => ((hsound.viewOf hlive).destructed hmark).1

-- The code that is set has to be known, as has the empty one.
theorem Sound.setCode (code : Option Bytes) (hcode : code.getD [] ∈ known) :
    Sound config known (s.setCode (VmKeeper.env config) address code) pending := by
  unfold StateDB.setCode
  rcases hget : s.getOrNewStateObject (VmKeeper.env config) address with ⟨object, t⟩
  have hsound := h.getOrNew hexempt hget
  have hlive := live_of_getOrNew hget
  have hview := hsound.viewOf hlive
  dsimp only
  have hdirty : (t.change address (.codeChange address (object.codeOf (VmKeeper.env config) t.world)
      object.account.codeHash) (object.setCode ((VmKeeper.env (R := R) config).keccak256 (code.getD []))
        code)).Dirty address := (dirty_change address).mpr (.inl rfl)
  have hcodeOf : (object.setCode ((VmKeeper.env (R := R) config).keccak256 (code.getD [])) code).codeOf
      (VmKeeper.env config) t.world = code := by
    rw [StateObject.codeOf_eq]
    cases code with
    | none => simp [StateObject.setCode, lookupCode, Env.emptyCodeHash]
    | some bytes => simp [StateObject.setCode]
  refine hsound.change ?_ ?_ ⟨?_, ?_, ?_, hview.locked, hview.fresh, ?_, fun hclean => absurd hdirty hclean⟩
  · intro live hlive'
    rw [hlive] at hlive'
    cases hlive'
    exact ⟨fun _ => rfl, fun _ => id⟩
  · intro other hother
    exact ⟨(Option.some.inj hother).symm, exempt_of_getOrNew hget hexempt⟩
  · intro key hkey
    rw [written_change] at hkey
    exact hview.slots key (not_written hlive hkey)
  · intro bytes hfound
    simp only [StateObject.view] at hfound
    rw [hcodeOf] at hfound
    subst hfound
    exact ⟨hcode, rfl⟩
  · intro hne
    simp only [StateObject.view, hcodeOf]
    cases code with
    | none => exact absurd rfl hne
    | some bytes =>
      have hcontent : bytes ≠ [] := by
        rintro rfl
        exact hne rfl
      refine ⟨Option.some_ne_none bytes, .inr (codePending_change.mpr ?_)⟩
      simp [StateObject.newCode, StateObject.setCode, hcontent]
  · intro hmark
    exact ⟨(hview.destructed hmark).1, hdirty⟩

theorem Sound.setState (key value : Hash) :
    Sound config known (s.setState (VmKeeper.env config) address key value) pending := by
  unfold StateDB.setState
  rcases hget : s.getOrNewStateObject (VmKeeper.env config) address with ⟨object, t⟩
  have hsound := h.getOrNew hexempt hget
  have hlive := live_of_getOrNew hget
  have hwithin := object.within_loadState (VmKeeper.env config) t.world address key
  dsimp only
  split
  · exact hsound.setLive hlive (by simp) hwithin
  · have hloaded := hsound.setLive hlive (object.view_loadState (VmKeeper.env config) t.world address key) hwithin
    have hcached : (t.setStateObject address
        (object.loadState (VmKeeper.env config) t.world address key)).stateObjects address =
          some (object.loadState (VmKeeper.env config) t.world address key) := by
      simp [setStateObject]
    have hexempt' : ¬ Exempt config t.world address := exempt_of_getOrNew hget hexempt
    have hslot := hloaded.writeSlot hcached hexempt' key
      (object.getState (VmKeeper.env config) t.world address key) value
    simpa [StateDB.change, setStateObject, append] using hslot

end Setters

section Counters

theorem Sound.counter (h : Sound config known s pending) (hctx : t.ctx = s.ctx) (hcache : t.cache = s.cache)
    (hobjects : t.stateObjects = s.stateObjects) (hdirty : ∀ address, t.Dirty address ↔ s.Dirty address) :
    Sound config known t pending := by
  have hstores : t.stores = s.stores := by
    simp only [StateDB.stores, cacheOrNew, world, hcache, hctx]
  exact h.of_core hctx hstores hdirty (.of_eq hobjects) (objects_eq_of_objects hctx hobjects)

theorem dirty_append {entry : JournalEntry} (hentry : entry.dirtied = none)
    (hjournal : t.journal = s.journal.append entry) (other : Address) : t.Dirty other ↔ s.Dirty other := by
  simp [Dirty, hjournal, hentry]

variable (h : Sound config known s pending)

include h

theorem Sound.changeTransientState (key value : Hash) :
    Sound config known (s.changeTransientState address key value) pending := by
  unfold StateDB.changeTransientState
  dsimp only
  split
  · exact h
  · exact h.counter rfl rfl rfl (dirty_append rfl rfl)

theorem Sound.subRefund (gas : UInt64) (hsub : s.subRefund gas = .ok t) : Sound config known t pending := by
  unfold StateDB.subRefund at hsub
  split at hsub
  · cases hsub
  · cases hsub
    exact h.counter rfl rfl rfl (dirty_append rfl rfl)

theorem Sound.addAddressToAccessList : Sound config known (s.addAddressToAccessList address) pending := by
  unfold StateDB.addAddressToAccessList
  rcases s.accessList.addAddress address with ⟨added, accessList⟩
  cases added with
  | false => exact h
  | true => exact h.counter rfl rfl rfl (dirty_append rfl rfl)

theorem Sound.addSlotToAccessList (slot : Hash) (hadd : s.addSlotToAccessList address slot = .ok t) :
    Sound config known t pending := by
  simp only [StateDB.addSlotToAccessList, Check.bind_eq_ok, Check.pure_eq_ok] at hadd
  obtain ⟨⟨addressAdded, slotAdded, accessList⟩, -, rfl⟩ := hadd
  have hfirst : Sound config known
      (if addressAdded then s.append (.accessListAddAccountChange address) else s) pending := by
    split
    · exact h.counter rfl rfl rfl (dirty_append rfl rfl)
    · exact h
  have hsecond : Sound config known (if slotAdded then
      (if addressAdded then s.append (.accessListAddAccountChange address) else s).append
        (.accessListAddSlotChange address slot)
      else if addressAdded then s.append (.accessListAddAccountChange address) else s) pending := by
    split
    · exact hfirst.counter rfl rfl rfl (dirty_append rfl rfl)
    · exact hfirst
  exact hsecond.counter rfl rfl rfl fun _ => Iff.rfl

end Counters

theorem Sound.selfDestruct (h : Sound config known s pending) (hexempt : ¬ Exempt config s.world address)
    (hnew : s.isNewContract (VmKeeper.env config) address = true) :
    Sound config known (s.selfDestruct (VmKeeper.env config) address) pending := by
  unfold StateDB.selfDestruct
  rcases hget : s.getStateObject (VmKeeper.env config) address with ⟨_ | object, t⟩
  · rw [(getStateObject_none hget).1]
    exact h
  · have hlogged : Logged (VmKeeper.env config) .evm [] s t := logged_of_getStateObject hget
    have hmarked : object.newContract = true := by
      simpa [isNewContract, hget] using hnew
    exact (h.load hget).edit (live_of_getStateObject hget) rfl (by rw [hlogged.world]; exact hexempt)
      rfl rfl rfl rfl ⟨id, fun _ => id⟩ rfl rfl rfl fun _ => hmarked

theorem Sound.createAccount (h : Sound config known s pending) (hexempt : ¬ Exempt config s.world address)
    (hexist : s.exist (VmKeeper.env config) address = false) :
    Sound config known (s.createAccount (VmKeeper.env config) address) pending := by
  rcases hget : s.getStateObject (VmKeeper.env config) address with ⟨_ | object, t⟩
  · exact h.create (getStateObject_none hget).2.1 hexempt
  · simp [exist, hget] at hexist

theorem Sound.createContract (h : Sound config known s pending)
    (hfresh : s.world.lockedCoin address = 0 ∧ ∀ key, s.world.getState address key = Ethereum.zeroHash)
    (hcreate : s.createContract (VmKeeper.env config) address = .ok t) : Sound config known t pending := by
  unfold StateDB.createContract at hcreate
  rcases hget : s.getStateObject (VmKeeper.env config) address with ⟨_ | object, r⟩
  · rw [hget] at hcreate
    cases hcreate
  · have hlogged : Logged (VmKeeper.env config) .evm [] s r := logged_of_getStateObject hget
    rw [hget] at hcreate
    dsimp only at hcreate
    split at hcreate
    · cases hcreate
      exact h.load hget
    · cases hcreate
      exact (h.load hget).markNew (live_of_getStateObject hget) (by rw [hlogged.world]; exact hfresh)

def Op.touches : Op → List Address
  | .addBalance address _ => [address]
  | .subBalance address _ => [address]
  | .transfer sender recipient _ => [sender, recipient]
  | .setNonce address _ => [address]
  | .setCode address _ => [address]
  | .setState address _ _ => [address]
  | .selfDestruct address => [address]
  | .createAccount address => [address]
  | _ => []

-- The operations that the EVM issues: it writes no exempt account, sets codes whose
-- hashes differ, destructs contracts of the same transaction only, and creates a
-- contract only at an address without storage, which has no locked coins.
def Op.Regular (config : Config) (known : Set Bytes) (s : StateDB (World R)) (o : Op) : Prop :=
  (∀ address ∈ o.touches, ¬ Exempt config s.world address) ∧
    match o with
    | .setCode _ code => code.getD [] ∈ known
    | .selfDestruct address => s.isNewContract (VmKeeper.env config) address = true
    | .createContract address =>
      s.world.lockedCoin address = 0 ∧ ∀ key, s.world.getState address key = Ethereum.zeroHash
    | _ => True

theorem Op.sound {o : Op} (h : Sound config known s pending) (hregular : o.Regular config known s)
    (happly : o.apply (VmKeeper.env config) s = .ok t) : Sound config known t pending := by
  obtain ⟨htouches, hguard⟩ := hregular
  cases o with
  | loadObject address =>
    cases happly
    exact h.loadObject
  | loadCode address =>
    cases happly
    exact h.loadCode
  | loadState address key =>
    cases happly
    exact h.loadState key
  | addBalance address amount =>
    cases happly
    exact h.addBalance (htouches address List.mem_cons_self) amount
  | subBalance address amount => exact h.subBalance (htouches address List.mem_cons_self) amount happly
  | transfer sender recipient amount =>
    simp only [Op.apply, Check.bind_eq_ok, Check.pure_eq_ok] at happly
    obtain ⟨r, hsub, rfl⟩ := happly
    have hmiddle := h.subBalance (htouches sender List.mem_cons_self) amount hsub
    have hlogged : Logged (VmKeeper.env config) .evm [] s r := logged_subBalance amount hsub
    have hrecipient := htouches recipient (List.mem_cons_of_mem _ List.mem_cons_self)
    rw [← hlogged.world] at hrecipient
    exact hmiddle.addBalance hrecipient amount
  | setNonce address nonce =>
    cases happly
    exact h.setNonce (htouches address List.mem_cons_self) nonce
  | setCode address code =>
    cases happly
    exact h.setCode (htouches address List.mem_cons_self) code hguard
  | setState address key value =>
    cases happly
    exact h.setState (htouches address List.mem_cons_self) key value
  | setTransientState address key value =>
    cases happly
    exact h.changeTransientState key value
  | selfDestruct address =>
    cases happly
    exact h.selfDestruct (htouches address List.mem_cons_self) hguard
  | createAccount address =>
    cases happly
    split
    · exact h.loadObject
    · rename_i hexist
      exact h.createAccount (htouches address List.mem_cons_self) (by simpa using hexist)
  | createContract address => exact h.createContract hguard happly
  | addLog log =>
    cases happly
    exact h.counter rfl rfl rfl (dirty_append (rfl : JournalEntry.addLogChange.dirtied = none) rfl)
  | addRefund gas =>
    cases happly
    exact h.counter rfl rfl rfl (dirty_append (rfl : (JournalEntry.refundChange s.refund).dirtied = none) rfl)
  | subRefund gas => exact h.subRefund gas happly
  | addAddressToAccessList address =>
    cases happly
    exact h.addAddressToAccessList
  | addSlotToAccessList address slot => exact h.addSlotToAccessList slot happly

end PosChain.Evm
