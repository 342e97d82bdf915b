import PosChain.Evm.Execution.Logged
import PosChain.Evm.Sound.Operations

namespace PosChain.Evm

open StateDB

variable {R : Type} {config : Config} {known : Set Bytes} {s t : StateDB (World R)} {address : Address}
  {object : StateObject} {pending : List Event}

theorem Sound.fits (h : Sound config known s pending) (hlive : s.stateObjects address = some object) :
    object.Fits config known := by
  intro code hcode
  apply (h.viewOf hlive).code
  simp [StateObject.view, StateObject.codeOf_eq, hcode]

theorem nodup_sortedDirties (journal : Journal) : journal.sortedDirties.Nodup := by
  refine Std.ExtTreeMap.distinct_keys.imp ?_
  intro first second hne heq
  exact hne (by rw [heq]; exact Std.ReflCmp.compare_self)

theorem dirty_iff (other : Address) : other ∈ s.journal.sortedDirties ↔ s.Dirty other :=
  s.journal.mem_sortedDirties other

theorem slot_empty (key : Hash) : Record.empty.slot key = Ethereum.zeroHash := by
  simp [Record.slot, Record.empty]

theorem bytesToHash_bytes (hash : Hash) : Ethereum.bytesToHash hash.bytes = hash := by
  apply Hash.eq_of_bytes
  simp [Ethereum.bytesToHash, Ethereum.rightAligned, hash.length_eq]

theorem getElem?_writeSlots (slots : Std.ExtTreeMap Hash Bytes) (written : Std.ExtTreeMap Hash Hash) (key : Hash) :
    (StateObject.writeSlots slots written)[key]? =
      (written[key]?).elim slots[key]? fun value : Hash => some value.bytes := by
  refine read_foldl_toList (fun slots key (value : Hash) => slots.insert key value.bytes)
    (fun (slots : Std.ExtTreeMap Hash Bytes) (key : Hash) => slots[key]?) (fun value => some value.bytes)
    ?_ ?_ written slots key
  · intro slots other value
    simp
  · intro slots other value found hne
    simp [Std.ExtTreeMap.getElem?_insert, hne]

theorem slot_writeSlots (record : Record) (written : Std.ExtTreeMap Hash Hash) (key : Hash) :
    Record.slot { record with storage := StateObject.writeSlots record.storage written } key =
      (written[key]?).getD (record.slot key) := by
  simp only [Record.slot, getElem?_writeSlots]
  cases hfound : written[key]? with
  | none => rfl
  | some value => simp [value.length_eq, bytesToHash_bytes]

theorem CommittedRecords.cases {ctx next : Ctx (World R)}
    (h : CommittedRecords config s s.journal.sortedDirties ctx next) (address : Address) :
    (¬ s.Dirty address ∧ next.world.record address = ctx.world.record address) ∨
    (∃ object number, s.Dirty address ∧ s.stateObjects address = some object ∧
      object.selfDestructed = false ∧
      next.world.record address =
        { Record.stored config number object.account (ctx.world.record address) with
          storage := StateObject.writeSlots (ctx.world.record address).storage object.dirtyStorage }) ∨
    (∃ object, s.Dirty address ∧ s.stateObjects address = some object ∧ object.selfDestructed = true ∧
      (next.world.record address = .empty ∨
        next.world.record address = ctx.world.record address ∧ (ctx.world.record address).auth = none)) := by
  by_cases hdirty : s.Dirty address
  · obtain ⟨object, number, hlive, hrecord⟩ := h.records address ((dirty_iff address).mpr hdirty)
    unfold StateObject.committedRecord at hrecord
    cases hmark : object.selfDestructed with
    | false =>
      rw [hmark] at hrecord
      exact .inr (.inl ⟨object, number, hdirty, hlive, hmark, hrecord⟩)
    | true =>
      rw [hmark, if_pos rfl] at hrecord
      refine .inr (.inr ⟨object, hdirty, hlive, hmark, ?_⟩)
      split at hrecord
      · rename_i hskipped
        exact .inr ⟨hrecord, hskipped.2⟩
      · exact .inl hrecord
  · exact .inl ⟨hdirty, h.others address fun hmem => hdirty ((dirty_iff address).mp hmem)⟩

theorem fresh_of_destructed (h : Sound config known s pending) (hlive : s.stateObjects address = some object)
    (hmark : object.selfDestructed = true) :
    s.world.lockedCoin address = 0 ∧ ∀ key, s.world.getState address key = Ethereum.zeroHash := by
  have hview := h.viewOf hlive
  exact hview.fresh (hview.destructed hmark).1

section Flushed

variable {next : Ctx (World R)} (h : Sound config known s [])
  (hall : CommittedAll config known s s.journal.sortedDirties s.cacheCtx next)

include h hall

theorem flushed_slot (address : Address) (key : Hash) (hkey : ¬ s.Written address key) :
    next.world.getState address key = s.world.getState address key := by
  have hstores : (s.cacheCtx.world.record address).slot key = s.world.getState address key :=
    h.tracks.slots address key hkey
  rw [World.getState_eq]
  rcases hall.cases address with ⟨-, hrecord⟩ | ⟨object, number, -, hlive, -, hrecord⟩ |
    ⟨object, -, hlive, hmark, hrecord | ⟨hrecord, -⟩⟩
  · rw [hrecord, hstores]
  · have hfree : object.dirtyStorage[key]? = none := by
      apply Std.ExtTreeMap.getElem?_eq_none
      exact fun hmem => hkey ⟨object, hlive, hmem⟩
    have hslots := slot_writeSlots (Record.stored config number object.account (s.cacheCtx.world.record address))
      object.dirtyStorage key
    rw [hrecord]
    refine hslots.trans ?_
    rw [hfree]
    exact hstores
  · rw [hrecord, slot_empty, (fresh_of_destructed h hlive hmark).2 key]
  · rw [hrecord, hstores]

theorem flushed_locked (address : Address) (hexempt : ¬ Exempt config s.world address) :
    next.world.lockedCoin address = s.world.lockedCoin address := by
  have hstores : (s.cacheCtx.world.record address).locked = s.world.lockedCoin address :=
    h.tracks.locked address hexempt
  rw [World.lockedCoin_eq]
  rcases hall.cases address with ⟨-, hrecord⟩ | ⟨object, number, -, hlive, -, hrecord⟩ |
    ⟨object, -, hlive, hmark, hrecord | ⟨hrecord, -⟩⟩
  · rw [hrecord, hstores]
  · rw [hrecord, ← hstores]
    exact VmKeeper.stored_locked config number object.account (s.cacheCtx.world.record address)
  · rw [hrecord, (fresh_of_destructed h hlive hmark).1]
    rfl
  · rw [hrecord, hstores]

theorem flushed_module (address : Address) (hmodule : next.world.isModule address = true) :
    Exempt config s.world address := by
  apply h.tracks.modules address
  rw [World.isModule_eq] at hmodule
  rcases hall.cases address with ⟨-, hrecord⟩ | ⟨object, number, -, hlive, -, hrecord⟩ |
    ⟨object, -, hlive, hmark, hrecord | ⟨hrecord, -⟩⟩
  · rw [hrecord] at hmodule
    exact hmodule
  · rw [hrecord] at hmodule
    exact (VmKeeper.stored_isModule config number object.account (s.cacheCtx.world.record address)).symm.trans
      hmodule
  · rw [hrecord] at hmodule
    cases hmodule
  · rw [hrecord] at hmodule
    exact hmodule

theorem flushed_clean (address : Address) (hnone : next.world.accounts address = none) :
    next.world.balances address = 0 ∧ next.world.codeHashes[address]? = none ∧
      ∀ key, next.world.getState address key = Ethereum.zeroHash := by
  have hauth : (next.world.record address).auth = none := hnone
  have hstores : (s.cacheCtx.world.record address).auth = none →
      (s.cacheCtx.world.record address).balance = 0 ∧ (s.cacheCtx.world.record address).codeHash = none ∧
        ∀ key, (s.cacheCtx.world.record address).slot key = Ethereum.zeroHash :=
    h.stores.clean address
  have hclean : (next.world.record address).balance = 0 ∧ (next.world.record address).codeHash = none ∧
      ∀ key, (next.world.record address).slot key = Ethereum.zeroHash := by
    rcases hall.cases address with ⟨-, hrecord⟩ | ⟨object, number, -, hlive, -, hrecord⟩ |
      ⟨object, -, hlive, hmark, hrecord | ⟨hrecord, -⟩⟩
    · rw [hrecord] at hauth ⊢
      exact hstores hauth
    · rw [hrecord] at hauth
      cases hauth
    · rw [hrecord]
      exact ⟨rfl, rfl, slot_empty⟩
    · rw [hrecord] at hauth ⊢
      exact hstores hauth
  exact hclean

-- The code of an account that is written is in the stores, or it is written as well.
theorem flushed_code (hlive : s.stateObjects address = some object) (hdirty : s.Dirty address)
    (hne : object.account.codeHash ≠ config.emptyCodeHash) :
    next.world.codes object.account.codeHash ≠ none := by
  obtain ⟨-, hfound⟩ := (h.viewOf hlive).coded hne
  rcases hfound with hstored | hpending
  · obtain ⟨code, hcode⟩ := Option.ne_none_iff_exists'.mp hstored
    have hkept := hall.kept object.account.codeHash code hne hcode
    rw [hkept]
    exact Option.some_ne_none code
  · obtain ⟨code, hcode⟩ := Option.ne_none_iff_exists'.mp (newCode_of_pending hlive hpending)
    have hstored := hall.stored address ((dirty_iff address).mpr hdirty) object code hlive hcode
    rw [hstored]
    exact Option.some_ne_none code

theorem flushed_hash (address : Address) (codeHash : Hash)
    (hfound : next.world.codeHashes[address]? = some codeHash) :
    codeHash ≠ config.emptyCodeHash ∧ next.world.codes codeHash ≠ none := by
  have hhash : (next.world.record address).codeHash = some codeHash := hfound
  have hstores : (s.cacheCtx.world.record address).codeHash = some codeHash →
      codeHash ≠ config.emptyCodeHash ∧ next.world.codes codeHash ≠ none := by
    intro hold
    obtain ⟨hne, hcodes⟩ := h.stores.hashes address codeHash hold
    obtain ⟨code, hcode⟩ := Option.ne_none_iff_exists'.mp hcodes
    rw [hall.kept codeHash code hne hcode]
    exact ⟨hne, Option.some_ne_none code⟩
  rcases hall.cases address with ⟨-, hrecord⟩ | ⟨object, number, hdirty, hlive, -, hrecord⟩ |
    ⟨object, -, hlive, hmark, hrecord | ⟨hrecord, -⟩⟩
  · rw [hrecord] at hhash
    exact hstores hhash
  · rw [hrecord] at hhash
    simp only [Record.stored, ite_eq_iff, Option.some.injEq, reduceCtorEq, and_false, false_or] at hhash
    obtain ⟨hne, rfl⟩ := hhash
    exact ⟨hne, flushed_code h hall hlive hdirty hne⟩
  · rw [hrecord] at hhash
    cases hhash
  · rw [hrecord] at hhash
    exact hstores hhash

theorem flushed_consistent : next.world.Consistent config known :=
  ⟨flushed_clean h hall, flushed_hash h hall, hall.fit⟩

theorem Sound.flushed (hctx : t.ctx = s.ctx) (hstores : t.stores = next.world)
    (hobjects : t.stateObjects = s.stateObjects) (hjournal : t.journal = s.journal) :
    Sound config known t [] := by
  have hworld : t.world = s.world := congrArg Ctx.world hctx
  have hdirty : ∀ other, t.Dirty other ↔ s.Dirty other := by
    intro other
    rw [Dirty, hjournal, Dirty]
  have hwritten : ∀ other key, t.Written other key ↔ s.Written other key := by
    intro other key
    rw [Written, hobjects, Written]
  have hcore : (t.core (VmKeeper.env config)).objects = (s.core (VmKeeper.env config)).objects :=
    objects_eq_of_objects hctx hobjects
  refine ⟨by rw [hworld]; exact h.origin, by rw [hstores]; exact flushed_consistent h hall,
    ⟨?_, ?_, ?_, ?_, ?_, ?_⟩, ?_, ?_⟩
  · intro other hexempt hclean
    rw [hworld] at hexempt
    rw [hdirty] at hclean
    have hsame : next.world.record other = s.stores.record other :=
      hall.others other fun hmem => hclean ((dirty_iff other).mp hmem)
    rw [hstores, hworld, World.nonce, World.getCodeHash_eq, World.spendableCoin_eq, hsame]
    exact h.tracks.accounts other hexempt hclean
  · intro other key hkey
    rw [hwritten] at hkey
    rw [hstores, hworld]
    exact flushed_slot h hall other key hkey
  · intro other key hclean
    rw [hdirty] at hclean
    have hsame : next.world.record other = s.stores.record other :=
      hall.others other fun hmem => hclean ((dirty_iff other).mp hmem)
    rw [hstores, hworld, World.getState_eq, hsame]
    exact h.tracks.clean other key hclean
  · intro other hexempt
    rw [hworld] at hexempt
    rw [hstores, hworld]
    exact flushed_locked h hall other hexempt
  · intro other hmodule
    rw [hstores] at hmodule
    rw [hworld]
    exact flushed_module h hall other hmodule
  · rw [hworld, hstores]
    exact h.tracks.codes.trans hall.kept
  · intro other view hview
    rw [hcore] at hview
    obtain ⟨hslots, hcode, hcoded, hlocked, hfresh, hdestructed, huntouched⟩ := h.views other view hview
    refine ⟨?_, hcode, ?_, ?_, ?_, ?_, ?_⟩
    · intro key hkey
      rw [hwritten] at hkey
      rw [hworld]
      exact hslots key hkey
    · intro hne
      obtain ⟨hsome, hfound⟩ := hcoded hne
      refine ⟨hsome, ?_⟩
      rw [hstores, CodePending, hobjects]
      refine hfound.imp_left fun hstored => ?_
      obtain ⟨code, hfoundCode⟩ := Option.ne_none_iff_exists'.mp hstored
      rw [hall.kept _ code hne hfoundCode]
      exact Option.some_ne_none code
    · rw [hworld]
      exact hlocked
    · rw [hworld]
      exact hfresh
    · intro hmark
      rw [hdirty]
      exact hdestructed hmark
    · intro hclean
      rw [hdirty] at hclean
      rw [hworld]
      exact huntouched hclean
  · intro other hother
    rw [hdirty] at hother
    rw [hobjects, hworld]
    exact h.dirty other hother

end Flushed

-- A flush writes the accounts of the journal to the stores and leaves the rest.
structure Flushed (s t : StateDB (World R)) : Prop where
  cacheOnly : CacheOnly s t
  events : t.cacheCtx.events = s.cacheCtx.events
  processed : t.processedEventsCount = s.cacheCtx.events.length
  others : ∀ address, ¬ s.Dirty address → t.stores.record address = s.stores.record address

theorem Sound.flush (h : Sound config known s []) (hinj : Set.InjOn config.keccak256 known)
    (hempty : [] ∈ known) {u : Unit} (hrun : (flushToCacheCtx (VmKeeper.env config)).run s = .ok u t) :
    Sound config known t [] ∧ Flushed s t := by
  obtain ⟨next, hnext, rfl⟩ := flushToCacheCtx_ok hrun
  have hall := committedAll_of_ok hinj hempty (fun _ _ hlive => h.fits hlive)
    (nodup_sortedDirties s.journal) h.stores.fit hnext
  refine ⟨h.flushed hall rfl rfl rfl rfl, ⟨⟨rfl, rfl⟩, hall.events, ?_, ?_⟩⟩
  · exact congrArg List.length hall.events
  · exact fun other hclean => hall.others other fun hmem => hclean ((dirty_iff other).mp hmem)

end PosChain.Evm
