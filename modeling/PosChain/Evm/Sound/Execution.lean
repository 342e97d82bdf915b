import PosChain.Evm.Execution.Invariant
import PosChain.Evm.Sound.Handler

namespace PosChain.Evm

open StateDB

variable {R : Type}

-- A native action that the events of the bank account for: the spendable coins of every
-- account that the EVM may write change by what they say, and nothing else of it does.
structure Mirrors (config : Config) (known : Set Bytes) (origin : World R) (handled : Bool)
    (before after : World R) (events : List Event) : Prop where
  held : ∀ event ∈ events, event.Held config origin
  quiet : handled = false → ∀ event ∈ events, event.Quiet config
  balances : ∀ address, ¬ Exempt config origin address →
    (after.spendableCoin address : Int) = before.spendableCoin address + moved events address
  nonces : ∀ address, ¬ Exempt config origin address → after.nonce address = before.nonce address
  locked : ∀ address, ¬ Exempt config origin address → after.lockedCoin address = before.lockedCoin address
  modules : ∀ address, after.isModule address = true → Exempt config origin address
  codeHashes : after.codeHashes = before.codeHashes
  codes : after.codes = before.codes
  slots : ∀ address key, after.getState address key = before.getState address key
  consistent : after.Consistent config known

def StateDB.pendingEvents (s : StateDB (World R)) : List Event :=
  s.cacheCtx.events.drop s.processedEventsCount

-- The steps of an execution as the EVM and the precompiles make them. An action calls
-- the EVM only when no event of the bank is waiting to be applied.
def Step.Regular (config : Config) (known : Set Bytes) (origin : World R) : Step (World R) → Prop
  | .op o db => o.Regular config known db
  | .native handled before after =>
    ∃ events, after.events = before.events ++ events ∧
      Mirrors config known origin handled before.world after.world events
  | .reenter db => ∀ event ∈ db.pendingEvents, event.Quiet config

-- No native action has changed the record of the address.
def KeptBy (history : List (Step (World R))) (address : Address) : Prop :=
  ∀ handled before after, .native handled before after ∈ history →
    after.world.record address = before.world.record address

structure Machine.Good (config : Config) (known : Set Bytes) (origin : World R) (base : List Event)
    (pending : List Event) (m : Machine (World R)) : Prop where
  world : m.db.world = origin
  sound : Sound config known m.db pending
  events : base <+: m.db.cacheCtx.events
  kept : ∀ address, ¬ m.db.Dirty address → KeptBy m.history address →
    m.db.stores.record address = origin.record address

-- While an action runs, the events from the last flush on are pending.
structure Machine.InAction (config : Config) (known : Set Bytes) (origin : World R) (base : List Event)
    (handled : Bool) (m : Machine (World R)) : Prop where
  good : m.Good config known origin base m.db.pendingEvents
  lower : base.length ≤ m.db.processedEventsCount
  upper : m.db.processedEventsCount ≤ m.db.cacheCtx.events.length
  held : ∀ event ∈ m.db.pendingEvents, event.Held config origin
  quiet : handled = false → ∀ event ∈ m.db.pendingEvents, event.Quiet config

def Place.Good (config : Config) (known : Set Bytes) (origin : World R) (base : List Event) :
    Place → Machine (World R) → Prop
  | .evm, m => m.Good config known origin base []
  | .action handled, m => m.InAction config known origin base handled

def AllRegular (config : Config) (known : Set Bytes) (origin : World R) (m : Machine (World R)) : Prop :=
  ∀ step ∈ m.history, step.Regular config known origin

section Steps

variable {config : Config} {known : Set Bytes} {origin : World R} {base pending : List Event}
  {m n : Machine (World R)} {place : Place}

theorem KeptBy.of_ran {env : Env (World R)} {address : Address} (h : KeptBy n.history address)
    (hran : Ran env place m n) : KeptBy m.history address := by
  obtain ⟨steps, hhistory, -⟩ := hran
  intro handled before after hmem
  apply h handled before after
  rw [hhistory]
  exact List.mem_append_right steps hmem

theorem Machine.Good.of_ran {settled : List Event} (h : m.Good config known origin base pending)
    (hran : Ran (VmKeeper.env config) place m n) (hcache : n.db.cacheCtx = m.db.cacheCtx)
    (hsound : Sound config known n.db settled) : n.Good config known origin base settled := by
  obtain ⟨steps, hhistory, hlogged⟩ := hran
  have hstores : n.db.stores = m.db.stores := congrArg Ctx.world hcache
  refine ⟨hlogged.world.trans h.world, hsound, by rw [hcache]; exact h.events, ?_⟩
  intro address hclean hkept
  rw [hstores]
  exact h.kept address (fun hdirty => hclean (dirty_of_logged hlogged hdirty))
    (hkept.of_ran ⟨steps, hhistory, hlogged⟩)

theorem good_issue {o : Op} {db : StateDB (World R)} (h : m.Good config known origin base [])
    (hregular : o.Regular config known m.db) (happly : o.apply (VmKeeper.env config) m.db = .ok db) :
    (m.record (.op o m.db) |>.setDb db).Good config known origin base [] := by
  have hlogged : Logged (VmKeeper.env config) .evm o.destructs m.db db := Op.logged happly
  have hran : Ran (VmKeeper.env config) .evm m (m.record (.op o m.db) |>.setDb db) :=
    ⟨[.op o m.db], rfl, hlogged.congr fun address => by simp [destructedIn]⟩
  exact h.of_ran hran ((Op.frame happly).cacheCtx hlogged.ctx) (Op.sound h.sound hregular happly)

theorem good_snapshot (h : m.Good config known origin base []) :
    (m.setDb m.db.snapshot.2).Good config known origin base [] :=
  ⟨h.world, h.sound.counter rfl rfl rfl fun _ => Iff.rfl, h.events, h.kept⟩

theorem Sound.restored {s t : StateDB (World R)} {destructed : List Address}
    (h : Sound config known s pending) (hrestored : Restored (VmKeeper.env config) destructed s t) :
    Sound config known t pending := by
  have hstores : t.stores = s.stores :=
    congrArg (fun view => view.cache.stores.current) hrestored.cacheView
  refine h.of_same hrestored.ctx hstores (fun other => by rw [Dirty, hrestored.journal, Dirty])
    hrestored.grows ?_
  intro other next hnext
  rw [hrestored.core] at hnext
  by_cases hmem : other ∈ destructed
  · simp only [Core.forget, hmem, if_true, Option.map_eq_some_iff] at hnext
    obtain ⟨view, hview, rfl⟩ := hnext
    exact ⟨view, hview, ⟨rfl, rfl, rfl, rfl, fun hmark => by cases hmark⟩⟩
  · simp only [Core.forget, hmem, if_false] at hnext
    exact ⟨next, hnext, .refl next⟩

theorem good_revert {steps : List (Step (World R))} (h : m.Good config known origin base [])
    (hhistory : n.history = steps ++ m.history)
    (hrestored : Restored (VmKeeper.env config) (destructedIn steps) m.db n.db) :
    n.Good config known origin base [] := by
  have hcache : n.db.cacheCtx = m.db.cacheCtx :=
    congrArg (fun view => Ctx.mk view.cache.stores.current view.cache.events) hrestored.cacheView
  have hran : Ran (VmKeeper.env config) .evm m n := ⟨steps, hhistory, hrestored.logged⟩
  exact h.of_ran hran hcache (h.sound.restored hrestored)

end Steps

section Actions

variable {config : Config} {known : Set Bytes} {origin : World R} {base pending : List Event}
  {m n : Machine (World R)} {handled : Bool}

theorem Sound.entering {s : StateDB (World R)} (h : Sound config known s pending) :
    Sound config known (entering s) pending := by
  have hjournal : (PosChain.Evm.entering s).journal = s.journal.append (.precompileCallChange
      s.cacheOrNew.stores.saved.length (Machine.held s).cacheCtx.events
      (Machine.held s).processedEventsCount) := rfl
  exact h.of_core rfl rfl (dirty_append rfl hjournal) (.of_eq rfl) (objects_eq_of_objects rfl rfl)

theorem good_entering (h : m.Good config known origin base []) :
    (m.setDb (entering m.db)).Good config known origin m.db.cacheCtx.events [] := by
  refine ⟨h.world, h.sound.entering, List.prefix_rfl, ?_⟩
  intro address hclean hkept
  apply h.kept address _ hkept
  rintro ⟨entry, hmem, hdirtied⟩
  exact hclean ⟨entry, List.mem_cons_of_mem _ hmem, hdirtied⟩

theorem inAction_flush (hinj : Set.InjOn config.keccak256 known) (hempty : [] ∈ known)
    (h : m.Good config known origin base []) {db : StateDB (World R)} {u : Unit}
    (hflush : (StateDB.flushToCacheCtx (VmKeeper.env config)).run m.db = .ok u db) :
    (m.setDb db).InAction config known origin base handled := by
  obtain ⟨hsound, hcache, hevents, hprocessed, hothers⟩ := h.sound.flush hinj hempty hflush
  have hpending : db.pendingEvents = [] := by
    rw [pendingEvents, hprocessed, hevents, List.drop_length]
  have hctx : db.ctx = m.db.ctx := by rw [hcache.rest]
  have hjournal : db.journal = m.db.journal := by rw [hcache.rest]
  refine ⟨⟨?_, by rw [Machine.setDb, hpending]; exact hsound, by rw [Machine.setDb, hevents]; exact h.events, ?_⟩,
    ?_, ?_, ?_, ?_⟩
  · exact (congrArg Ctx.world hctx).trans h.world
  · intro address hclean hkept
    have hclean' : ¬ m.db.Dirty address := by
      rw [Dirty, ← hjournal]
      exact hclean
    exact (hothers address hclean').trans (h.kept address hclean' hkept)
  · rw [Machine.setDb, hprocessed]
    exact h.events.length_le
  · rw [Machine.setDb, hprocessed, hevents]
  · rw [Machine.setDb, hpending]
    simp
  · rw [Machine.setDb, hpending]
    simp

theorem Sound.mirrored {s : StateDB (World R)} {after : Ctx (World R)} {events : List Event}
    (h : Sound config known s pending)
    (hmirrors : Mirrors config known s.world handled s.stores after.world events) :
    Sound config known (s.setCacheCtx after) (pending ++ events) := by
  have hcore : ((s.setCacheCtx after).core (VmKeeper.env config)).objects =
      (s.core (VmKeeper.env config)).objects := objects_eq_of_objects rfl rfl
  refine ⟨h.origin, hmirrors.consistent, ⟨?_, ?_, ?_, ?_, hmirrors.modules, ?_⟩, ?_, h.dirty⟩
  · intro address hexempt hclean
    obtain ⟨hnonce, hhash, hbalance⟩ := h.tracks.accounts address hexempt hclean
    refine ⟨(hmirrors.nonces address hexempt).trans hnonce, ?_, ?_⟩
    · have hsame : after.world.getCodeHash config address = s.stores.getCodeHash config address := by
        rw [World.getCodeHash, hmirrors.codeHashes, World.getCodeHash]
      exact hsame.trans hhash
    · have hafter := hmirrors.balances address hexempt
      rw [hbalance] at hafter
      rw [moved_append, ← Int.add_assoc]
      exact hafter
  · intro address key hkey
    exact (hmirrors.slots address key).trans (h.tracks.slots address key hkey)
  · intro address key hclean
    exact (hmirrors.slots address key).trans (h.tracks.clean address key hclean)
  · intro address hexempt
    exact (hmirrors.locked address hexempt).trans (h.tracks.locked address hexempt)
  · have hcodes : (s.setCacheCtx after).stores.codes = s.stores.codes := hmirrors.codes
    rw [hcodes]
    exact h.tracks.codes
  · intro address view hview
    rw [hcore] at hview
    obtain ⟨hslots, hcode, hcoded, hlocked, hfresh, hdestructed, huntouched⟩ := h.views address view hview
    refine ⟨hslots, hcode, ?_, hlocked, hfresh, hdestructed, huntouched⟩
    have hcodes : (s.setCacheCtx after).stores.codes = s.stores.codes := hmirrors.codes
    rw [hcodes]
    exact hcoded

theorem inAction_native {after : Ctx (World R)} (h : m.InAction config known origin base handled)
    (hregular : Step.Regular config known origin (.native handled m.db.cacheCtx after)) :
    (m.record (.native handled m.db.cacheCtx after) |>.setDb (m.db.setCacheCtx after)).InAction
      config known origin base handled := by
  obtain ⟨events, hevents, hmirrors⟩ := hregular
  have hpending : (m.db.setCacheCtx after).pendingEvents = m.db.pendingEvents ++ events := by
    change after.events.drop m.db.processedEventsCount = _
    rw [hevents, List.drop_append_of_le_length h.upper]
    rfl
  rw [← h.good.world] at hmirrors
  refine ⟨⟨h.good.world, ?_, ?_, ?_⟩, h.lower, ?_, ?_, ?_⟩
  · change Sound config known (m.db.setCacheCtx after)
      (m.db.setCacheCtx after).pendingEvents
    rw [hpending]
    exact h.good.sound.mirrored hmirrors
  · change base <+: after.events
    rw [hevents]
    exact h.good.events.trans (List.prefix_append _ _)
  · intro address hclean hkept
    have hstep : after.world.record address = m.db.cacheCtx.world.record address :=
      hkept handled _ _ List.mem_cons_self
    refine hstep.trans (h.good.kept address hclean ?_)
    intro earlier before after hmem
    exact hkept earlier before after (List.mem_cons_of_mem _ hmem)
  · change m.db.processedEventsCount ≤ after.events.length
    rw [hevents, List.length_append]
    exact Nat.le_add_right_of_le h.upper
  · intro event hmem
    change event ∈ (m.db.setCacheCtx after).pendingEvents at hmem
    rw [hpending, List.mem_append] at hmem
    rcases hmem with hold | hnew
    · exact h.held event hold
    · rw [← h.good.world]
      exact hmirrors.held event hnew
  · intro hunhandled event hmem
    change event ∈ (m.db.setCacheCtx after).pendingEvents at hmem
    rw [hpending, List.mem_append] at hmem
    rcases hmem with hold | hnew
    · exact h.quiet hunhandled event hold
    · exact hmirrors.quiet hunhandled event hnew

theorem Machine.Good.settle (h : m.Good config known origin base pending)
    (hquiet : ∀ event ∈ pending, event.Quiet config) : m.Good config known origin base [] := by
  refine ⟨h.world, h.sound.settle fun address hexempt _ => ?_, h.events, h.kept⟩
  rw [moved_quiet hquiet hexempt]
  rfl

-- The balance handler applies what is pending at the end of an action.
theorem good_afterBalanceChange {db : StateDB (World R)} (h : m.InAction config known origin base handled)
    (hrun : (StateDB.afterBalanceChange (VmKeeper.env config) base.length).run m.db = .ok () db) :
    (m.setDb db).Good config known origin base [] := by
  have hlogged : Logged (VmKeeper.env config) (.action handled) [] m.db db :=
    Ends.of_ok (a := ()) (t := db) (logged_afterBalanceChange base.length) hrun
  rw [StateDB.afterBalanceChange, run_get_bind] at hrun
  have hdrop : (m.db.cacheCtx.events.drop base.length).drop (m.db.processedEventsCount - base.length) =
      m.db.pendingEvents := by
    rw [List.drop_drop, Nat.add_sub_of_le h.lower]
    rfl
  obtain ⟨hsound, hcache, -⟩ := Sound.handleEvents (m.db.cacheCtx.events.drop base.length) base.length
    (by rw [hdrop]; exact h.good.sound) (by rw [hdrop, h.good.world]; exact h.held) hrun
  exact h.good.of_ran (.of_db rfl hlogged) (hcache.cacheCtx hlogged.ctx) hsound

theorem good_reenter (h : m.InAction config known origin base handled)
    (hquiet : ∀ event ∈ m.db.pendingEvents, event.Quiet config) :
    (m.record (.reenter m.db)).Good config known origin base [] := by
  have hsettled := h.good.settle hquiet
  refine ⟨hsettled.world, hsettled.sound, hsettled.events, ?_⟩
  intro address hclean hkept
  apply hsettled.kept address hclean
  exact fun earlier before after hmem => hkept earlier before after (List.mem_cons_of_mem _ hmem)

theorem good_invariant (hinj : Set.InjOn config.keccak256 known) (hempty : [] ∈ known) (origin : World R) :
    Invariant (VmKeeper.env config) (Step.Regular config known origin)
      (fun base place m => place.Good config known origin base m) where
  issue h hregular happly := good_issue h hregular happly
  snapshot h := good_snapshot h
  revert h hhistory hrestored := good_revert h hhistory hrestored
  enter := by
    intro base m db handled h hflush
    have hevents := (h.sound.entering.flush hinj hempty hflush).2.events
    rw [hevents]
    exact inAction_flush hinj hempty (good_entering h) hflush
  native h hregular := inAction_native h hregular
  reenter h hregular := good_reenter h hregular
  flush handled h hflush := inAction_flush hinj hempty h hflush
  handle h hrun := good_afterBalanceChange h hrun
  unhandled h := h.good.settle (h.quiet rfl)
  leave := by
    intro base m db n h hflush hn
    have hevents := (h.sound.entering.flush hinj hempty hflush).2.events
    rw [hevents] at hn
    exact ⟨hn.world, hn.sound, h.events.trans hn.events, hn.kept⟩

theorem good_exec (hinj : Set.InjOn config.keccak256 known) (hempty : [] ∈ known) {place : Place}
    (script : Script (World R) place) {m n : Machine (World R)} (base : List Event)
    (hrun : (Machine.exec (VmKeeper.env config) script).run m = .ok () n)
    (hregular : AllRegular config known origin n) (h : place.Good config known origin base m) :
    place.Good config known origin base n :=
  (good_invariant hinj hempty origin).exec script base hrun hregular h

end Actions

end PosChain.Evm
