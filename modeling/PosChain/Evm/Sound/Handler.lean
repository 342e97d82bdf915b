import PosChain.Evm.Execution.Cache
import PosChain.Evm.Sound.Flush

namespace PosChain.Evm

open StateDB

variable {R : Type} {config : Config} {known : Set Bytes} {s t : StateDB (World R)} {address : Address}
  {object : StateObject} {pending : List Event}

def Event.holder : Event → Option AccAddress
  | .coinSpent spender _ => some spender
  | .coinReceived receiver _ => some receiver
  | .other _ => none

def Event.Quiet (config : Config) (event : Event) : Prop :=
  ∀ holder, event.holder = some holder → config.blockedAddr holder = true

-- An event of a blocked account, or of an account that the EVM may write.
def Event.Held (config : Config) (origin : World R) (event : Event) : Prop :=
  ∀ holder, event.holder = some holder → config.blockedAddr holder = true ∨
    ∃ address : Address, address.bytes = holder ∧ ¬ Exempt config origin address

section Moves

theorem bytesToAddress_bytes (address : Address) : Ethereum.bytesToAddress address.bytes = address := by
  apply Address.eq_of_bytes
  simp [Ethereum.bytesToAddress, Ethereum.rightAligned, address.length_eq]

theorem moves_of_ne {event : Event} {holder : AccAddress} (h : event.holder ≠ some holder) :
    event.moves holder = 0 := by
  cases event with
  | coinSpent spender amount =>
    have hne : spender ≠ holder := fun heq => h (congrArg some heq)
    simp [Event.moves, hne]
  | coinReceived receiver amount =>
    have hne : receiver ≠ holder := fun heq => h (congrArg some heq)
    simp [Event.moves, hne]
  | other type => rfl

theorem moves_quiet {event : Event} {origin : World R} (hquiet : event.Quiet config)
    (hexempt : ¬ Exempt config origin address) : event.moves address.bytes = 0 := by
  apply moves_of_ne
  intro hholder
  exact hexempt (.inl (hquiet _ hholder))

theorem moved_cons (event : Event) (events : List Event) (address : Address) :
    moved (event :: events) address = event.moves address.bytes + moved events address := by
  simp [moved]

theorem moved_append (first second : List Event) (address : Address) :
    moved (first ++ second) address = moved first address + moved second address := by
  simp [moved]

theorem moved_quiet {events : List Event} {origin : World R} (hquiet : ∀ event ∈ events, event.Quiet config)
    (hexempt : ¬ Exempt config origin address) : moved events address = 0 := by
  induction events with
  | nil => rfl
  | cons event rest ih =>
    rw [moved_cons, moves_quiet (hquiet event List.mem_cons_self) hexempt,
      ih fun later hlater => hquiet later (List.mem_cons_of_mem _ hlater)]
    rfl

theorem Sound.settle {settled : List Event} (h : Sound config known s pending)
    (hmoved : ∀ address, ¬ Exempt config s.world address → ¬ s.Dirty address →
      moved pending address = moved settled address) : Sound config known s settled := by
  obtain ⟨horigin, hstores, ⟨haccounts, hslots, hsame, hlocked, hmodules, hcodes⟩, hviews, hdirty⟩ := h
  refine ⟨horigin, hstores, ⟨?_, hslots, hsame, hlocked, hmodules, hcodes⟩, hviews, hdirty⟩
  intro address hexempt hclean
  rw [← hmoved address hexempt hclean]
  exact haccounts address hexempt hclean

end Moves

section Frame

variable {env : Env (World R)}

structure SameCache (s t : StateDB (World R)) : Prop where
  cache : t.cache = s.cache
  processed : t.processedEventsCount = s.processedEventsCount

theorem stores_of_same {s t : StateDB (World R)} (hcache : SameCache s t) (hctx : t.ctx = s.ctx) :
    t.stores = s.stores := by
  simp only [StateDB.stores, cacheOrNew, world, hcache.cache, hctx]

theorem dirty_of_logged {env : Env (World R)} {place : Place} {destructed : List Address}
    {s t : StateDB (World R)} {address : Address} (hlogged : Logged env place destructed s t)
    (h : s.Dirty address) : t.Dirty address := by
  obtain ⟨added, hentries, -⟩ := hlogged.journal
  obtain ⟨entry, hmem, hdirtied⟩ := h
  exact ⟨entry, by rw [hentries]; exact List.mem_append_right added hmem, hdirtied⟩

namespace SameCache

theorem refl (s : StateDB (World R)) : SameCache s s :=
  ⟨rfl, rfl⟩

theorem trans {u : StateDB (World R)} (h : SameCache s t) (h' : SameCache t u) : SameCache s u :=
  ⟨h'.cache.trans h.cache, h'.processed.trans h.processed⟩

theorem cacheCtx (h : SameCache s t) (hctx : t.ctx = s.ctx) : t.cacheCtx = s.cacheCtx := by
  simp only [StateDB.cacheCtx, cacheOrNew, world, h.cache, hctx]

end SameCache

theorem Op.frame {o : Op} (h : o.apply env s = .ok t) : SameCache s t :=
  ⟨congrArg Outside.cache (Op.outside h), congrArg Outside.processedEventsCount (Op.outside h)⟩

theorem dirty_addBalance (env : Env (World R)) (s : StateDB (World R)) (address : Address) {amount : Uint256}
    (hne : amount ≠ 0) : (s.addBalance env address amount).Dirty address := by
  unfold addBalance
  dsimp only
  rw [if_neg hne]
  exact (dirty_change address).mpr (.inl rfl)

theorem dirty_subBalance {amount : Uint256} (hsub : s.subBalance env address amount = .ok t)
    (hne : amount ≠ 0) : t.Dirty address := by
  unfold subBalance at hsub
  dsimp only at hsub
  rw [if_neg hne] at hsub
  split at hsub
  · cases hsub
  · cases hsub
    exact (dirty_change address).mpr (.inl rfl)

theorem parseAmount_ok {type : String} {amount : Nat} {parsed : Uint256}
    (h : parseAmount type amount = .ok parsed) : parsed = 0 → amount = 0 := by
  unfold parseAmount at h
  split at h
  · rename_i hbound
    cases h
    intro hzero
    have hnat := congrArg BitVec.toNat hzero
    rw [BitVec.toNat_ofNat, Nat.mod_eq_of_lt hbound] at hnat
    exact hnat
  · cases h

end Frame

section Events

theorem Sound.applied {event : Event} (h : Sound config known t (event :: pending))
    (hdirty : ∀ address : Address, ¬ Exempt config t.world address → event.holder = some address.bytes →
      event.moves address.bytes ≠ 0 → t.Dirty address) : Sound config known t pending := by
  refine h.settle ?_
  intro address hexempt hclean
  have hzero : event.moves address.bytes = 0 := by
    by_cases hholder : event.holder = some address.bytes
    · by_contra hne
      exact hclean (hdirty address hexempt hholder hne)
    · exact moves_of_ne hholder
  rw [moved_cons, hzero, Int.zero_add]

theorem Sound.applyEvent {event : Event} (h : Sound config known s (event :: pending))
    (hheld : event.Held config s.world) (happly : s.applyEvent (VmKeeper.env config) event = .ok t) :
    Sound config known t pending ∧ SameCache s t ∧ t.world = s.world := by
  have hquiet : (∀ holder, event.holder = some holder → config.blockedAddr holder = true) →
      Sound config known s pending := by
    intro hblocked
    refine h.settle fun address hexempt _ => ?_
    rw [moved_cons, moves_quiet hblocked hexempt, Int.zero_add]
  cases event with
  | coinSpent spender amount =>
    simp only [StateDB.applyEvent] at happly
    split at happly
    · rename_i hblocked
      cases happly
      refine ⟨hquiet ?_, .refl s, rfl⟩
      rintro _ ⟨rfl⟩
      exact hblocked
    · rename_i hopen
      rw [Check.bind_eq_ok] at happly
      obtain ⟨parsed, hparsed, hsub⟩ := happly
      obtain ⟨address, rfl, hexempt⟩ := (hheld spender rfl).resolve_left hopen
      rw [bytesToAddress_bytes] at hsub
      have hlogged : Logged (VmKeeper.env config) .evm [] s t := logged_subBalance parsed hsub
      have hcache : SameCache s t := Op.frame (o := .subBalance address parsed) hsub
      refine ⟨(h.subBalance hexempt parsed hsub).applied ?_, hcache, hlogged.world⟩
      intro other _ hholder hmoves
      obtain rfl : address = other := Address.eq_of_bytes (Option.some.inj hholder)
      apply dirty_subBalance hsub
      intro hzero
      simp [Event.moves, parseAmount_ok hparsed hzero] at hmoves
  | coinReceived receiver amount =>
    simp only [StateDB.applyEvent] at happly
    split at happly
    · rename_i hblocked
      cases happly
      refine ⟨hquiet ?_, .refl s, rfl⟩
      rintro _ ⟨rfl⟩
      exact hblocked
    · rename_i hopen
      simp only [Check.bind_eq_ok, Check.pure_eq_ok] at happly
      obtain ⟨parsed, hparsed, rfl⟩ := happly
      obtain ⟨address, rfl, hexempt⟩ := (hheld receiver rfl).resolve_left hopen
      rw [bytesToAddress_bytes]
      have hlogged : Logged (VmKeeper.env config) .evm [] s
        (s.addBalance (VmKeeper.env config) address parsed) := logged_addBalance parsed
      have hcache : SameCache s (s.addBalance (VmKeeper.env config) address parsed) :=
        Op.frame (o := .addBalance address parsed) rfl
      refine ⟨(h.addBalance hexempt parsed).applied ?_, hcache, hlogged.world⟩
      intro other _ hholder hmoves
      obtain rfl : address = other := Address.eq_of_bytes (Option.some.inj hholder)
      apply dirty_addBalance
      intro hzero
      simp [Event.moves, parseAmount_ok hparsed hzero] at hmoves
  | other type =>
    cases happly
    exact ⟨hquiet (fun _ hnone => by cases hnone), .refl s, rfl⟩

-- The events from the first one that is not processed on are applied, each once.
theorem Sound.handleEvents (events : List Event) (start : Nat)
    (h : Sound config known s (events.drop (s.processedEventsCount - start)))
    (hheld : ∀ event ∈ events.drop (s.processedEventsCount - start), event.Held config s.world) {u : Unit}
    (hrun : ((events.zipIdx start).forM (handleEvent (VmKeeper.env config))).run s = .ok u t) :
    Sound config known t [] ∧ SameCache s t ∧ t.world = s.world := by
  induction events generalizing s start with
  | nil =>
    obtain rfl := (EStateM.Result.ok.inj hrun).2
    rw [List.drop_nil] at h
    exact ⟨h, .refl s, rfl⟩
  | cons event rest ih =>
    change ((handleEvent (VmKeeper.env config) (event, start) >>=
      fun _ => (rest.zipIdx (start + 1)).forM (handleEvent (VmKeeper.env config))).run s) = _ at hrun
    rw [run_bind_eq_ok] at hrun
    obtain ⟨_, r, hfirst, hrest⟩ := hrun
    rw [handleEvent, run_get_bind] at hfirst
    by_cases hprocessed : start < s.processedEventsCount
    · have hskip : s.isEventProcessed start = true := decide_eq_true hprocessed
      rw [if_pos hskip] at hfirst
      cases hfirst
      have hdrop : s.processedEventsCount - start = (s.processedEventsCount - (start + 1)) + 1 := by omega
      rw [hdrop, List.drop_succ_cons] at h hheld
      exact ih (start + 1) h hheld hrest
    · have hskip : ¬ s.isEventProcessed start = true := by
        simpa [isEventProcessed] using hprocessed
      rw [if_neg hskip, run_lift_bind] at hfirst
      obtain ⟨next, happly, hset⟩ := hfirst
      obtain rfl : next = r := (EStateM.Result.ok.inj hset).2
      have hdrop : s.processedEventsCount - start = 0 := by omega
      rw [hdrop, List.drop_zero] at h hheld
      obtain ⟨hsound, hcache, hworld⟩ := h.applyEvent (hheld event List.mem_cons_self) happly
      have hdrop' : next.processedEventsCount - (start + 1) = 0 := by
        rw [hcache.processed]
        omega
      have hlater : ∀ later ∈ rest, later.Held config next.world := by
        rw [hworld]
        exact fun later hmem => hheld later (List.mem_cons_of_mem _ hmem)
      have hlast := ih (start + 1) (by rw [hdrop', List.drop_zero]; exact hsound)
        (by rw [hdrop', List.drop_zero]; exact hlater) hrest
      exact ⟨hlast.1, hcache.trans hlast.2.1, hlast.2.2.trans hworld⟩

end Events

end PosChain.Evm
