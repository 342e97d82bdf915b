import PosChain.Evm.Execution.Getters
import PosChain.Evm.Storage
import PosChain.Evm.Transition.Steps

namespace PosChain.Evm

open StateDB

variable {R : Type} {config : Config}

def World.BadSlot (w : World R) (address : Address) (key : Hash) : Prop :=
  ∃ value, (w.storage address)[key]? = some value ∧
    ¬ (value.length = 32 ∧ Ethereum.bytesToHash value ≠ Ethereum.zeroHash)

-- The native actions of precompiles leave the storage of contracts alone and remove no
-- account.
def Step.LeavesStorage : Step (World R) → Prop
  | .op _ _ => True
  | .native _ before after => after.world.storage = before.world.storage ∧
      ∀ address, before.world.accounts address ≠ none → after.world.accounts address ≠ none
  | .reenter _ => True

-- A commit that starts from this state writes no zero to a slot.
def StateDB.WritesNoZero (s : StateDB (World R)) : Prop :=
  ∀ address object, s.Dirty address → s.stateObjects address = some object →
    object.selfDestructed = false → ∀ key : Hash, object.dirtyStorage[key]? ≠ some Ethereum.zeroHash

-- A flush may have written zeros. The next commit writes these slots again, or deletes
-- their account.
def StateDB.ZerosPending (s : StateDB (World R)) : Prop :=
  ∀ address key, s.stores.BadSlot address key →
    s.Dirty address ∧ s.Written address key ∧ s.stores.accounts address ≠ none

theorem clean_iff {w : World R} : w.Clean ↔ ∀ address key, ¬ w.BadSlot address key := by
  constructor
  · rintro h address key ⟨value, hstored, hbad⟩
    exact hbad (h address key value hstored)
  · intro h address key value hstored
    by_contra hbad
    exact h address key ⟨value, hstored, hbad⟩

section Steps

variable {s t : StateDB (World R)}

section

variable (h : s.ZerosPending)

include h

theorem StateDB.ZerosPending.mono (hstores : t.stores = s.stores)
    (hdirty : ∀ address, s.Dirty address → t.Dirty address) (hgrows : s.Grows t) : t.ZerosPending := by
  intro address key hbad
  rw [hstores] at hbad ⊢
  obtain ⟨hold, hwritten, haccount⟩ := h address key hbad
  exact ⟨hdirty address hold, written_of_grows hgrows hwritten, haccount⟩

theorem StateDB.ZerosPending.logged {destructed : List Address}
    (hlogged : Logged (VmKeeper.env config) .evm destructed s t) (hstores : t.stores = s.stores) :
    t.ZerosPending :=
  h.mono hstores (fun _ => dirty_of_logged hlogged) hlogged.grows

theorem StateDB.ZerosPending.op {o : Op}
    (happly : o.apply (VmKeeper.env config) s = .ok t) : t.ZerosPending := by
  have hlogged : Logged (VmKeeper.env config) .evm o.destructs s t := Op.logged happly
  exact h.logged hlogged (stores_of_same (Op.frame happly) hlogged.ctx)

-- A bad slot after a commit is a zero that the commit has written.
theorem StateDB.ZerosPending.committed {ctx next : Ctx (World R)} {address : Address} {key : Hash}
    (hstart : ctx.world = s.stores) (hrun : (s.commitWithCtx (VmKeeper.env config)).run ctx = .ok () next)
    (hbad : next.world.BadSlot address key) :
    ∃ object, s.Dirty address ∧ s.stateObjects address = some object ∧ object.selfDestructed = false ∧
      object.dirtyStorage[key]? = some Ethereum.zeroHash ∧ next.world.accounts address ≠ none := by
  obtain ⟨value, hstored, hvalue⟩ := hbad
  have hstored' : (next.world.record address).storage[key]? = some value := hstored
  have hbefore : (ctx.world.record address).storage[key]? = some value →
      s.Dirty address ∧ s.Written address key ∧ (ctx.world.record address).auth ≠ none := by
    intro hold
    rw [hstart] at hold ⊢
    exact h address key ⟨value, hold, hvalue⟩
  have hrecords := committedRecords_of_ok (nodup_sortedDirties s.journal) hrun
  rcases hrecords.cases address with ⟨hclean, hsame⟩ | ⟨object, number, hdirty, hlive, hmark, hrecord⟩ |
    ⟨object, hdirty, hlive, hmark, hrecord | ⟨hrecord, hauth⟩⟩
  · rw [hsame] at hstored'
    exact absurd (hbefore hstored').1 hclean
  · have haccount : next.world.accounts address ≠ none := by
      change (next.world.record address).auth ≠ none
      rw [hrecord]
      exact Option.some_ne_none _
    rw [hrecord] at hstored'
    have hslot := (getElem?_writeSlots _ _ key).symm.trans hstored'
    cases hfound : object.dirtyStorage[key]? with
    | none =>
      rw [hfound] at hslot
      obtain ⟨found, hfoundLive, hmem⟩ := (hbefore hslot).2.1
      obtain rfl := Option.some.inj (hlive.symm.trans hfoundLive)
      rw [← Std.ExtTreeMap.isSome_getElem?_iff_mem, hfound] at hmem
      cases hmem
    | some hash =>
      rw [hfound] at hslot
      obtain rfl : hash.bytes = value := Option.some.inj hslot
      have hzero : hash = Ethereum.zeroHash := by
        by_contra hne
        exact hvalue ⟨hash.length_eq, by rw [bytesToHash_bytes]; exact hne⟩
      exact ⟨object, hdirty, hlive, hmark, hfound.trans (congrArg some hzero), haccount⟩
  · rw [hrecord] at hstored'
    simp [Record.empty] at hstored'
  · rw [hrecord] at hstored'
    exact absurd hauth (hbefore hstored').2.2

theorem StateDB.ZerosPending.flush {u : Unit}
    (hrun : (flushToCacheCtx (VmKeeper.env config)).run s = .ok u t) : t.ZerosPending := by
  obtain ⟨next, hnext, rfl⟩ := flushToCacheCtx_ok hrun
  intro address key hbad
  obtain ⟨object, hdirty, hlive, -, hzero, haccount⟩ := h.committed rfl hnext hbad
  refine ⟨hdirty, ⟨object, hlive, ?_⟩, haccount⟩
  rw [← Std.ExtTreeMap.isSome_getElem?_iff_mem, hzero]
  rfl

-- A commit leaves no bad slot if and only if it writes no zero.
theorem StateDB.ZerosPending.clean_iff {next : Ctx (World R)}
    (hrun : (s.commitWithCtx (VmKeeper.env config)).run s.writeCache = .ok () next) :
    next.world.Clean ↔ s.WritesNoZero := by
  constructor
  · intro hclean address object hdirty hlive hmark key hzero
    have hrecords := committedRecords_of_ok (nodup_sortedDirties s.journal) hrun
    rcases hrecords.cases address with ⟨hnot, -⟩ | ⟨found, number, -, hfound, -, hrecord⟩ |
      ⟨found, -, hfound, hdestructed, -⟩
    · exact hnot hdirty
    · obtain rfl := Option.some.inj (hlive.symm.trans hfound)
      have hstored : (next.world.record address).storage[key]? = some Ethereum.zeroHash.bytes := by
        rw [hrecord]
        refine (getElem?_writeSlots _ _ key).trans ?_
        rw [hzero]
        rfl
      exact (hclean address key _ hstored).2 (bytesToHash_bytes _)
    · obtain rfl := Option.some.inj (hlive.symm.trans hfound)
      rw [hmark] at hdestructed
      cases hdestructed
  · intro hwrites
    rw [PosChain.Evm.clean_iff]
    intro address key hbad
    obtain ⟨object, hdirty, hlive, hmark, hzero, -⟩ := h.committed (writeCache_world s) hrun hbad
    exact hwrites address object hdirty hlive hmark key hzero

end

end Steps

theorem zerosPending_invariant (config : Config) :
    Invariant (VmKeeper.env config) (Step.LeavesStorage (R := R)) (fun _ _ m => m.db.ZerosPending) where
  issue h _ happly := h.op happly
  snapshot h := h.mono rfl (fun _ => id) (.of_eq rfl)
  revert h _ hrestored := by
    have hstores := congrArg (fun view => view.cache.stores.current) hrestored.cacheView
    have hlogged : Logged (VmKeeper.env config) .evm _ _ _ := hrestored.logged
    exact h.logged hlogged hstores
  enter := by
    intro base m db handled h hflush
    have hentering : (entering m.db).ZerosPending :=
      h.mono rfl (fun _ ⟨entry, hmem, hdirtied⟩ => ⟨entry, List.mem_cons_of_mem _ hmem, hdirtied⟩) (.of_eq rfl)
    exact hentering.flush hflush
  native := by
    intro base m handled after h ⟨hstorage, haccounts⟩ address key hbad
    have hbefore : m.db.stores.BadSlot address key := by
      obtain ⟨value, hstored, hvalue⟩ := hbad
      refine ⟨value, ?_, hvalue⟩
      change (after.world.storage address)[key]? = some value at hstored
      rw [hstorage] at hstored
      exact hstored
    obtain ⟨hdirty, hwritten, haccount⟩ := h address key hbefore
    exact ⟨hdirty, hwritten, haccounts address haccount⟩
  reenter h _ := h
  flush _ h hflush := h.flush hflush
  handle h hrun := afterBalanceChange_keeps StateDB.ZerosPending
    (fun r address amount hr => hr.op (o := .addBalance address amount) rfl)
    (fun r next address amount hr hsub => hr.op (o := .subBalance address amount) hsub) h hrun
  unhandled h := h
  leave _ _ h := h

-- A committed message leaves no zero in the storage of any account if and only if its
-- commit writes none.
theorem message_clean_iff {chain : Chain (World R)} {msg : Ethereum.Message} {w : World R} {txIndex : Nat}
    {out : UInt64 × Option String} {ran : Machine (World R)} {next : Ctx (World R)} (hclean : w.Clean)
    (hrun : (chain.runMessage (VmKeeper.env config) msg false).run ⟨.new ⟨w, []⟩ txIndex, []⟩ = .ok out ran)
    (hregular : HistoryMeets Step.LeavesStorage ran)
    (hcommit : (ran.db.commitWithCtx (VmKeeper.env config)).run ran.db.writeCache = .ok () next) :
    next.world.Clean ↔ ran.db.WritesNoZero := by
  have hstart : (StateDB.new (⟨w, []⟩ : Ctx (World R)) txIndex).ZerosPending := fun address key hbad =>
    absurd hbad (PosChain.Evm.clean_iff.mp hclean address key)
  have hkeeps := (zerosPending_invariant config).keeps (R := R) []
    (fun accessList h => h.mono rfl (fun _ => id) (.of_eq rfl)) chain msg
  exact (hkeeps.runMessage (fun _ => hstart) hrun hregular).clean_iff hcommit

end PosChain.Evm
