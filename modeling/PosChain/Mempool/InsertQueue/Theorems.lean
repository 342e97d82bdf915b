import PosChain.Mempool.InsertQueue

namespace PosChain.Mempool

namespace InsertQueue

variable {Tx E : Type} {s t : InsertQueue Tx E} {record : Record Tx E}

section Record

variable (record : Record Tx E) (event : Event Tx E) (effect : Effect Tx E)

@[simp] theorem entered_concat : entered (record ++ [(event, effect)]) = entered record ++ enteredBy effect := by
  simp [entered]

@[simp] theorem inserted_concat :
    inserted (record ++ [(event, effect)]) = inserted record ++ insertedBy effect := by
  simp [inserted]

@[simp] theorem answered_concat :
    answered (record ++ [(event, effect)]) = answered record ++ answeredBy effect := by
  simp [answered]

theorem rejected_concat (sub : Nat) :
    rejected (record ++ [(event, effect)]) sub ↔ rejected record sub ∨ effect = .rejected sub := by
  simp only [rejected, List.mem_append, List.mem_singleton, Prod.mk.injEq, exists_or]
  grind

theorem ignored_concat (sub : Nat) :
    ignored (record ++ [(event, effect)]) sub ↔ ignored record sub ∨ effect = .ignored sub := by
  simp only [ignored, List.mem_append, List.mem_singleton, Prod.mk.injEq, exists_or]
  grind

end Record

-- The transactions that the loop has popped and not yet inserted, the results that
-- it has not yet sent, and the channel that it has sent on and not yet closed.
def held : QueueLoop Tx E → List (Nat × Tx)
  | .inserting batch => batch
  | _ => []

def owed : QueueLoop Tx E → List (Nat × E)
  | .sending rest => rest
  | .closing _ rest => rest
  | _ => []

def unclosed : QueueLoop Tx E → List Nat
  | .closing sub _ => [sub]
  | _ => []

-- A loop that has nothing in its hands and has not stopped by a panic.
def Bare (loop : QueueLoop Tx E) : Prop :=
  held loop = [] ∧ owed loop = [] ∧ unclosed loop = [] ∧ ∀ text, loop ≠ .panicked text

-- A channel on which nothing was sent, and one on which a result was.
def Open (subs : List (Subscription E)) (sub : Nat) : Prop :=
  subs[sub]? = some ⟨[], false⟩

def Sent (subs : List (Subscription E)) (entry : Nat × E) (closed : Bool) : Prop :=
  subs[entry.1]? = some ⟨[.result entry.2], closed⟩

def Reached (s : InsertQueue Tx E) (entry : Nat × E) : Prop :=
  Sent s.subs entry true ∨ Sent s.subs entry false ∧ entry.1 ∈ unclosed s.loop ∨ entry ∈ owed s.loop

-- What entered the queue was inserted, or is in the hands of the loop, or is still
-- in the queue, in this order.
structure Sound (s : InsertQueue Tx E) (record : Record Tx E) : Prop where
  bounded : (s.queue.length : Int) ≤ max 0 s.maxSize
  present : ∀ item ∈ s.queue, item.tx.isSome = true
  order : entered record = inserted record ++ (held s.loop ++ live s.queue)
  ascending : ((entered record).map Prod.fst).Pairwise (· < ·)
  made : ∀ entry ∈ entered record, entry.1 < s.subs.length
  fresh : ∀ entry ∈ held s.loop ++ live s.queue, Open s.subs entry.1
  reached : ∀ entry ∈ answered record, Reached s entry
  suffix : owed s.loop <:+ answered record
  unsent : ∀ entry ∈ owed s.loop, Open s.subs entry.1
  halfway : ∀ sub ∈ unclosed s.loop, ∃ err, (sub, err) ∈ answered record ∧ Sent s.subs (sub, err) false
  lost : ∃ lost, (inserted record).map Prod.fst = (answered record).map Prod.fst ++ lost ∧
    (lost ≠ [] → ∃ text, s.loop = .panicked text) ∧ ∀ sub ∈ lost, Open s.subs sub
  panicked : ∀ text, s.loop = .panicked text →
    ∃ event batch errs, (event, .inserted batch errs) ∈ record ∧ errs.length ≠ batch.length
  refused : ∀ sub, rejected record sub →
    s.subs[sub]? = some ⟨[.queueFull], true⟩ ∧ ∀ entry ∈ entered record, entry.1 ≠ sub
  nils : ∀ sub, ignored record sub →
    s.subs[sub]? = some ⟨[], true⟩ ∧ ∀ entry ∈ entered record, entry.1 ≠ sub
  awake : s.loop = .waiting → s.queue = [] ∨ s.signal = true ∨ s.signalling ≠ []

theorem sound_new (maxSize : Int) : Sound (new maxSize : InsertQueue Tx E) [] where
  bounded := by simp [new]
  present := by simp [new]
  order := rfl
  ascending := .nil
  made := by simp [entered]
  fresh := by simp [new, held, live]
  reached := by simp [answered]
  suffix := List.nil_suffix
  unsent := by simp [new, owed]
  halfway := by simp [new, unclosed]
  lost := ⟨[], rfl, by simp, by simp⟩
  panicked := by intro text h; cases h
  refused := by intro sub ⟨_, h⟩; cases h
  nils := by intro sub ⟨_, h⟩; cases h
  awake := by intro h; cases h

namespace Sound

variable {event : Event Tx E}

section

variable (h : Sound s record)

include h

-- Every channel that a result belongs to is one of a transaction that was handed to
-- insert, and no two results belong to one channel.
theorem keys_nodup : ((answered record).map Prod.fst).Nodup := by
  obtain ⟨lost, hkeys, -⟩ := h.lost
  have hall := h.ascending
  rw [h.order, List.map_append, hkeys, List.append_assoc] at hall
  exact (List.pairwise_append.mp hall).1.imp fun hlt => Nat.ne_of_lt hlt

theorem answered_lt {entry : Nat × E} (hentry : entry ∈ answered record)
    {later : Nat × Tx} (hlater : later ∈ held s.loop ++ live s.queue) : entry.1 < later.1 := by
  obtain ⟨lost, hkeys, -⟩ := h.lost
  have hall := h.ascending
  rw [h.order, List.map_append, hkeys] at hall
  refine (List.pairwise_append.mp hall).2.2 _ ?_ _ (List.mem_map_of_mem hlater)
  exact List.mem_append_left _ (List.mem_map_of_mem hentry)

theorem answered_mem {entry : Nat × E} (hentry : entry ∈ answered record) :
    ∃ first ∈ entered record, first.1 = entry.1 := by
  obtain ⟨lost, hkeys, -⟩ := h.lost
  have hmem : entry.1 ∈ (inserted record).map Prod.fst := by
    rw [hkeys]
    exact List.mem_append_left _ (List.mem_map_of_mem hentry)
  obtain ⟨first, hfirst, heq⟩ := List.mem_map.mp hmem
  refine ⟨first, ?_, heq⟩
  rw [h.order]
  exact List.mem_append_left _ hfirst

theorem eq_of_key {entry other : Nat × E} (hentry : entry ∈ answered record)
    (hother : other ∈ answered record) (hkey : entry.1 = other.1) : entry = other :=
  List.inj_on_of_nodup_map h.keys_nodup hentry hother hkey

theorem looped {effect : Effect Tx E} (hentered : enteredBy effect = [])
    (hrejected : ∀ sub, effect ≠ .rejected sub) (hignored : ∀ sub, effect ≠ .ignored sub)
    (hqueue : t.queue = s.queue ∨ t.queue = []) (hmax : t.maxSize = s.maxSize)
    (hlength : t.subs.length = s.subs.length)
    (hother : ∀ sub, (∀ entry ∈ entered record, entry.1 ≠ sub) → t.subs[sub]? = s.subs[sub]?)
    (order : inserted record ++ (held s.loop ++ live s.queue) =
      inserted record ++ insertedBy effect ++ (held t.loop ++ live t.queue))
    (fresh : ∀ entry ∈ held t.loop ++ live t.queue, Open t.subs entry.1)
    (reached : ∀ entry ∈ answered record ++ answeredBy effect, Reached t entry)
    (suffix : owed t.loop <:+ answered record ++ answeredBy effect)
    (unsent : ∀ entry ∈ owed t.loop, Open t.subs entry.1) (halfway : ∀ sub ∈ unclosed t.loop,
      ∃ err, (sub, err) ∈ answered record ++ answeredBy effect ∧ Sent t.subs (sub, err) false)
    (lost : ∃ lost, (inserted record ++ insertedBy effect).map Prod.fst =
        (answered record ++ answeredBy effect).map Prod.fst ++ lost ∧
      (lost ≠ [] → ∃ text, t.loop = .panicked text) ∧ ∀ sub ∈ lost, Open t.subs sub)
    (panicked : ∀ text, t.loop = .panicked text →
      ∃ event' batch errs, (event', .inserted batch errs) ∈ record ++ [(event, effect)] ∧
        errs.length ≠ batch.length)
    (awake : t.loop = .waiting → t.queue = [] ∨ t.signal = true ∨ t.signalling ≠ []) :
    Sound t (record ++ [(event, effect)]) := by
  refine ⟨?_, ?_, ?_, ?_, ?_, fresh, ?_, ?_, unsent, ?_, ?_, panicked, ?_, ?_, awake⟩
  · rcases hqueue with hqueue | hqueue
    · rw [hqueue, hmax]
      exact h.bounded
    · rw [hqueue]
      exact le_max_left _ _
  · rcases hqueue with hqueue | hqueue
    · rw [hqueue]
      exact h.present
    · rw [hqueue]
      intro item hitem
      cases hitem
  · rw [entered_concat, hentered, List.append_nil, inserted_concat, h.order, order]
  · rw [entered_concat, hentered, List.append_nil]
    exact h.ascending
  · rw [entered_concat, hentered, List.append_nil, hlength]
    exact h.made
  · rwa [answered_concat]
  · rwa [answered_concat]
  · rwa [answered_concat]
  · rwa [answered_concat, inserted_concat]
  · intro sub hsub
    rw [rejected_concat, or_iff_left (hrejected sub)] at hsub
    rw [entered_concat, hentered, List.append_nil, hother sub (h.refused sub hsub).2]
    exact h.refused sub hsub
  · intro sub hsub
    rw [ignored_concat, or_iff_left (hignored sub)] at hsub
    rw [entered_concat, hentered, List.append_nil, hother sub (h.nils sub hsub).2]
    exact h.nils sub hsub

theorem quiet (hqueue : t.queue = s.queue) (hsubs : t.subs = s.subs)
    (hmax : t.maxSize = s.maxSize) (hheld : held t.loop = held s.loop) (howed : owed t.loop = owed s.loop)
    (hhalfway : unclosed t.loop = unclosed s.loop)
    (hpanicked : ∀ text, t.loop = .panicked text ↔ s.loop = .panicked text)
    (hawake : t.loop = .waiting → t.queue = [] ∨ t.signal = true ∨ t.signalling ≠ []) :
    Sound t (record ++ [(event, .none)]) := by
  refine h.looped rfl nofun nofun (.inl hqueue) hmax (by rw [hsubs]) (fun _ _ => by rw [hsubs]) ?_ ?_ ?_ ?_ ?_ ?_
    ?_ ?_ hawake
  · simp [insertedBy, hheld, hqueue]
  · rw [hheld, hqueue, hsubs]
    exact h.fresh
  · intro entry hentry
    simp only [answeredBy, List.append_nil] at hentry
    rw [Reached, hsubs, hhalfway, howed]
    exact h.reached entry hentry
  · simpa [answeredBy, howed] using h.suffix
  · rw [howed, hsubs]
    exact h.unsent
  · rw [hhalfway, hsubs]
    simpa [answeredBy] using h.halfway
  · obtain ⟨lost, hkeys, hlost, hopen⟩ := h.lost
    refine ⟨lost, by simpa [insertedBy, answeredBy] using hkeys, fun hne => ?_, by rwa [hsubs]⟩
    obtain ⟨text, htext⟩ := hlost hne
    exact ⟨text, (hpanicked text).mpr htext⟩
  · intro text htext
    obtain ⟨event', batch, errs, hmem, hne⟩ := h.panicked text ((hpanicked text).mp htext)
    exact ⟨event', batch, errs, List.mem_append_left _ hmem, hne⟩

theorem moved {loop : QueueLoop Tx E} (signal : Bool) (hbefore : Bare s.loop)
    (hafter : Bare loop) (hawake : loop = .waiting → s.queue = []) :
    Sound { s with signal := signal, loop := loop } (record ++ [(event, .none)]) := by
  obtain ⟨hheld, howed, hunclosed, hrunning⟩ := hbefore
  obtain ⟨hheld', howed', hunclosed', hrunning'⟩ := hafter
  refine h.quiet rfl rfl rfl (hheld'.trans hheld.symm) (howed'.trans howed.symm)
    (hunclosed'.trans hunclosed.symm) ?_ fun hwaiting => .inl (hawake hwaiting)
  exact fun text => ⟨fun htext => absurd htext (hrunning' text), fun htext => absurd htext (hrunning text)⟩

end

theorem getElem?_grow {subs : List (Subscription E)} {sub : Nat} {found : Subscription E}
    (h : subs[sub]? = some found) (channel : Subscription E) : (subs ++ [channel])[sub]? = some found := by
  have hlt : sub < subs.length := (List.getElem?_eq_some_iff.mp h).1
  rwa [List.getElem?_append_left hlt]

theorem enteredBy_ascending (effect : Effect Tx E) : ((enteredBy effect).map Prod.fst).Pairwise (· < ·) := by
  cases effect with
  | entered sub tx => exact List.pairwise_singleton _ _
  | _ => exact .nil

-- What enters next enters under a channel of its own.
theorem outside {effect : Effect Tx E} {sub : Nat} {found : Subscription E} (hfound : s.subs[sub]? = some found)
    (hnot : ∀ entry ∈ entered record, entry.1 ≠ sub) (hnew : ∀ entry ∈ enteredBy effect, entry.1 = s.subs.length) :
    ∀ entry ∈ entered record ++ enteredBy effect, entry.1 ≠ sub := by
  intro entry hentry
  rcases List.mem_append.mp hentry with hold | hadded
  · exact hnot entry hold
  · rw [hnew entry hadded]
    exact (List.getElem?_eq_some_iff.mp hfound).1.ne'

section

variable (h : Sound s record)

include h

theorem pushed {effect : Effect Tx E} (channel : Subscription E)
    (hsubs : t.subs = s.subs ++ [channel]) (hloop : t.loop = s.loop)
    (hinserted : insertedBy effect = []) (hanswered : answeredBy effect = [])
    (hbounded : (t.queue.length : Int) ≤ max 0 t.maxSize) (hpresent : ∀ item ∈ t.queue, item.tx.isSome = true)
    (hlive : live t.queue = live s.queue ++ enteredBy effect)
    (hentered : ∀ entry ∈ enteredBy effect, entry.1 = s.subs.length ∧ channel = ⟨[], false⟩)
    (hrejected : ∀ sub, effect = .rejected sub → sub = s.subs.length ∧ channel = ⟨[.queueFull], true⟩)
    (hignored : ∀ sub, effect = .ignored sub → sub = s.subs.length ∧ channel = ⟨[], true⟩)
    (hawake : t.loop = .waiting → t.queue = [] ∨ t.signal = true ∨ t.signalling ≠ []) :
    Sound t (record ++ [(event, effect)]) := by
  have hlast : t.subs[s.subs.length]? = some channel := by rw [hsubs, List.getElem?_concat_length]
  have hkept : ∀ {sub : Nat} {found : Subscription E}, s.subs[sub]? = some found → t.subs[sub]? = some found := by
    intro sub found hfound
    rw [hsubs]
    exact getElem?_grow hfound channel
  have hnew : ∀ entry ∈ enteredBy effect, entry.1 = s.subs.length := fun entry hentry =>
    (hentered entry hentry).1
  have hnone : ∀ sub, (effect = .rejected sub ∨ effect = .ignored sub) → enteredBy effect = [] := by
    rintro sub (rfl | rfl) <;> rfl
  refine ⟨hbounded, hpresent, ?_, ?_, ?_, ?_, ?_, ?_, ?_, ?_, ?_, ?_, ?_, ?_, hawake⟩
  · rw [entered_concat, inserted_concat, hinserted, List.append_nil, hloop, hlive, h.order]
    simp only [List.append_assoc]
  · rw [entered_concat, List.map_append, List.pairwise_append]
    refine ⟨h.ascending, enteredBy_ascending effect, ?_⟩
    intro sub hsub later hlater
    obtain ⟨entry, hentry, rfl⟩ := List.mem_map.mp hsub
    obtain ⟨second, hsecond, rfl⟩ := List.mem_map.mp hlater
    rw [hnew second hsecond]
    exact h.made entry hentry
  · intro entry hentry
    rw [entered_concat] at hentry
    rw [hsubs, List.length_append, List.length_singleton]
    rcases List.mem_append.mp hentry with hold | hadded
    · exact Nat.lt_succ_of_lt (h.made entry hold)
    · rw [hnew entry hadded]
      exact Nat.lt_succ_self _
  · intro entry hentry
    rw [hloop, hlive, ← List.append_assoc] at hentry
    rcases List.mem_append.mp hentry with hold | hadded
    · exact hkept (h.fresh entry hold)
    · obtain ⟨hsub, hchannel⟩ := hentered entry hadded
      rw [Open, hsub, ← hchannel]
      exact hlast
  · intro entry hentry
    rw [answered_concat, hanswered, List.append_nil] at hentry
    rw [Reached, hloop]
    rcases h.reached entry hentry with hsent | ⟨hsent, hhalf⟩ | howed
    · exact .inl (hkept hsent)
    · exact .inr (.inl ⟨hkept hsent, hhalf⟩)
    · exact .inr (.inr howed)
  · rw [answered_concat, hanswered, List.append_nil, hloop]
    exact h.suffix
  · rw [hloop]
    intro entry hentry
    exact hkept (h.unsent entry hentry)
  · rw [answered_concat, hanswered, List.append_nil, hloop]
    intro sub hsub
    obtain ⟨err, hmem, hsent⟩ := h.halfway sub hsub
    exact ⟨err, hmem, hkept hsent⟩
  · rw [answered_concat, hanswered, List.append_nil, inserted_concat, hinserted, List.append_nil, hloop]
    obtain ⟨lost, hkeys, hlost, hopen⟩ := h.lost
    exact ⟨lost, hkeys, hlost, fun sub hsub => hkept (hopen sub hsub)⟩
  · intro text htext
    obtain ⟨event', batch, errs, hmem, hne⟩ := h.panicked text (hloop.symm.trans htext)
    exact ⟨event', batch, errs, List.mem_append_left _ hmem, hne⟩
  · intro sub hsub
    rw [rejected_concat] at hsub
    rw [entered_concat]
    rcases hsub with hold | hadded
    · obtain ⟨hfound, hnot⟩ := h.refused sub hold
      exact ⟨hkept hfound, outside hfound hnot hnew⟩
    · obtain ⟨rfl, hchannel⟩ := hrejected sub hadded
      rw [hnone _ (.inl hadded), List.append_nil, hlast, hchannel]
      exact ⟨rfl, fun entry hentry => (h.made entry hentry).ne⟩
  · intro sub hsub
    rw [ignored_concat] at hsub
    rw [entered_concat]
    rcases hsub with hold | hadded
    · obtain ⟨hfound, hnot⟩ := h.nils sub hold
      exact ⟨hkept hfound, outside hfound hnot hnew⟩
    · obtain ⟨rfl, hchannel⟩ := hignored sub hadded
      rw [hnone _ (.inr hadded), List.append_nil, hlast, hchannel]
      exact ⟨rfl, fun entry hentry => (h.made entry hentry).ne⟩

theorem push (tx : Option Tx) :
    Sound (s.push tx).2 (record ++ [(event, (s.push tx).1)]) := by
  unfold InsertQueue.push
  cases tx with
  | none =>
    refine h.pushed ⟨[], true⟩ rfl rfl rfl rfl h.bounded h.present ?_ ?_ ?_ ?_ h.awake
    · simp [enteredBy]
    · simp [enteredBy]
    · intro sub hsub
      cases hsub
    · intro sub hsub
      cases hsub
      exact ⟨rfl, rfl⟩
  | some tx =>
    dsimp only
    split
    · refine h.pushed ⟨[.queueFull], true⟩ rfl rfl rfl rfl h.bounded h.present ?_ ?_ ?_ ?_ h.awake
      · simp [enteredBy]
      · simp [enteredBy]
      · intro sub hsub
        cases hsub
        exact ⟨rfl, rfl⟩
      · intro sub hsub
        cases hsub
    · rename_i hroom
      refine h.pushed ⟨[], false⟩ rfl rfl rfl rfl ?_ ?_ ?_ ?_ ?_ ?_ ?_
      · simp only [List.length_append, List.length_singleton]
        omega
      · intro item hitem
        rcases List.mem_append.mp hitem with hold | hnew
        · exact h.present item hold
        · rw [List.mem_singleton.mp hnew]
          rfl
      · simp [live, enteredBy]
      · simp [enteredBy]
      · intro sub hsub
        cases hsub
      · intro sub hsub
        cases hsub
      · intro _
        exact .inr (.inr (by simp))

-- No nil transaction is in the queue, so that popping it closes no channel.
theorem popAll_eq : s.popAll = { s with queue := [], loop := .inserting (live s.queue) } := by
  have hnone : s.queue.filter (fun item => item.tx.isNone) = [] := by
    rw [List.filter_eq_nil_iff]
    intro item hitem
    simp [Option.isSome_iff_ne_none.mp (h.present item hitem)]
  rw [popAll, hnone]
  rfl

theorem keys_eq (hloop : ∀ text, s.loop ≠ .panicked text) :
    (inserted record).map Prod.fst = (answered record).map Prod.fst := by
  obtain ⟨lost, hkeys, hlost, -⟩ := h.lost
  have hnil : lost = [] := by
    by_contra hne
    obtain ⟨text, htext⟩ := hlost hne
    exact hloop text htext
  rw [hkeys, hnil, List.append_nil]

theorem settled (howed : owed s.loop = []) (hhalfway : unclosed s.loop = [])
    {entry : Nat × E} (hentry : entry ∈ answered record) : Sent s.subs entry true := by
  rcases h.reached entry hentry with hsent | ⟨-, hhalf⟩ | hmem
  · exact hsent
  · rw [hhalfway] at hhalf
    cases hhalf
  · rw [howed] at hmem
    cases hmem

theorem pop (hloop : s.loop = .popping) :
    Sound s.popAll (record ++ [(event, .none)]) := by
  have hfresh := h.fresh
  rw [h.popAll_eq]
  rw [hloop] at hfresh
  refine h.looped rfl nofun nofun (.inr rfl) rfl rfl (fun _ _ => rfl) ?_ ?_ ?_ ?_ nofun nofun ?_ nofun nofun
  · simp [hloop, insertedBy, held, live]
  · simpa [held, live] using hfresh
  · intro entry hentry
    simp only [answeredBy, List.append_nil] at hentry
    exact .inl (h.settled (by rw [hloop]; rfl) (by rw [hloop]; rfl) hentry)
  · exact List.nil_suffix
  · refine ⟨[], ?_, nofun, nofun⟩
    simpa [insertedBy, answeredBy] using h.keys_eq (by rw [hloop]; exact nofun)

theorem insert {batch : List (Nat × Tx)} (hloop : s.loop = .inserting batch)
    (errs : List E) : Sound (s.insertTxs batch errs) (record ++ [(event, .inserted batch errs)]) := by
  have hfresh := h.fresh
  have hkeys := h.keys_eq (by rw [hloop]; exact nofun)
  have hsettled : ∀ entry ∈ answered record, Sent s.subs entry true := fun entry hentry =>
    h.settled (by rw [hloop]; rfl) (by rw [hloop]; rfl) hentry
  rw [hloop] at hfresh
  unfold insertTxs
  split
  · rename_i hne
    refine h.looped rfl nofun nofun (.inl rfl) rfl rfl (fun _ _ => rfl) ?_ ?_ ?_ List.nil_suffix nofun nofun ?_ ?_
      nofun
    · simp [hloop, insertedBy, held]
    · intro entry hentry
      exact hfresh entry (List.mem_append_right _ hentry)
    · intro entry hentry
      rw [answeredBy, if_pos hne, List.append_nil] at hentry
      exact .inl (hsettled entry hentry)
    · refine ⟨batch.map Prod.fst, ?_, fun _ => ⟨_, rfl⟩, ?_⟩
      · rw [answeredBy, if_pos hne, List.append_nil, insertedBy, List.map_append, hkeys]
      · intro sub hsub
        obtain ⟨first, hfirst, rfl⟩ := List.mem_map.mp hsub
        exact hfresh first (List.mem_append_left _ hfirst)
    · intro text _
      exact ⟨event, batch, errs, List.mem_append_right _ (List.mem_singleton.mpr rfl), hne⟩
  · rename_i heq
    have hzip : ((batch.map Prod.fst).zip errs).map Prod.fst = batch.map Prod.fst := by
      rw [List.map_fst_zip]
      simp only [ne_eq, not_not] at heq
      simp [heq]
    have hopen : ∀ entry ∈ (batch.map Prod.fst).zip errs, Open s.subs entry.1 := by
      intro entry hentry
      have hmem : entry.1 ∈ batch.map Prod.fst := hzip ▸ List.mem_map_of_mem hentry
      obtain ⟨first, hfirst, hsub⟩ := List.mem_map.mp hmem
      rw [← hsub]
      exact hfresh first (List.mem_append_left _ hfirst)
    refine h.looped rfl nofun nofun (.inl rfl) rfl rfl (fun _ _ => rfl) ?_ ?_ ?_ ?_ hopen nofun ?_ nofun nofun
    · simp [hloop, insertedBy, held]
    · intro entry hentry
      exact hfresh entry (List.mem_append_right _ hentry)
    · intro entry hentry
      rw [answeredBy, if_neg heq] at hentry
      rcases List.mem_append.mp hentry with hold | hnew
      · exact .inl (hsettled entry hold)
      · exact .inr (.inr hnew)
    · rw [answeredBy, if_neg heq]
      exact List.suffix_append _ _
    · refine ⟨[], ?_, nofun, nofun⟩
      rw [answeredBy, if_neg heq, insertedBy, List.map_append, List.map_append, hkeys, hzip, List.append_nil]

theorem send_eq {sub : Nat} {err : E} {rest : List (Nat × E)} (hloop : s.loop = .sending ((sub, err) :: rest)) :
    s.send sub err rest = some { s with
      subs := s.subs.modify sub fun channel => { channel with sent := [.result err] }
      loop := .closing sub rest } := by
  have hopen : Open s.subs sub := h.unsent (sub, err) (by rw [hloop]; exact List.mem_cons_self)
  rw [InsertQueue.send, hopen]
  rfl

theorem closeSub_eq {sub : Nat} {rest : List (Nat × E)} (hloop : s.loop = .closing sub rest) :
    s.closeSub sub rest = some { s with
      subs := s.subs.modify sub fun channel => { channel with closed := true }
      loop := .sending rest } := by
  obtain ⟨err, -, hsent⟩ := h.halfway sub (by rw [hloop]; exact List.mem_singleton.mpr rfl)
  have hfound : s.subs[sub]? = some ⟨[.result err], false⟩ := hsent
  rw [InsertQueue.closeSub, hfound]
  rfl

theorem step_send {sub : Nat} {err : E} {rest : List (Nat × E)}
    (hloop : s.loop = .sending ((sub, err) :: rest)) :
    s.step .send = some (.none, { s with
      subs := s.subs.modify sub fun channel => { channel with sent := [.result err] }
      loop := .closing sub rest }) := by
  simp only [InsertQueue.step, hloop, h.send_eq hloop]
  rfl

theorem step_closeSub {sub : Nat} {rest : List (Nat × E)} (hloop : s.loop = .closing sub rest) :
    s.step .closeSub = some (.none, { s with
      subs := s.subs.modify sub fun channel => { channel with closed := true }
      loop := .sending rest }) := by
  simp only [InsertQueue.step, hloop, h.closeSub_eq hloop]
  rfl

end

section Written

variable (h : Sound s record) {key : Nat} {err : E} (hmem : (key, err) ∈ answered record)
  (write : Subscription E → Subscription E)

include h hmem

theorem modify_open {entry : Nat × Tx} (hentry : entry ∈ held s.loop ++ live s.queue) :
    Open (s.subs.modify key write) entry.1 := by
  rw [Open, List.getElem?_modify_ne _ _ (h.answered_lt hmem hentry).ne]
  exact h.fresh entry hentry

theorem modify_untouched {sub : Nat} (hnot : ∀ entry ∈ entered record, entry.1 ≠ sub) :
    (s.subs.modify key write)[sub]? = s.subs[sub]? := by
  obtain ⟨first, hfirst, hsub⟩ := h.answered_mem hmem
  have hne : key ≠ sub := fun heq => hnot first hfirst (hsub.trans heq)
  exact List.getElem?_modify_ne _ _ hne

theorem modify_other {entry : Nat × E} (hentry : entry ∈ answered record) (hne : entry ≠ (key, err)) :
    (s.subs.modify key write)[entry.1]? = s.subs[entry.1]? := by
  have hkey : key ≠ entry.1 := fun heq => hne (h.eq_of_key hentry hmem heq.symm)
  exact List.getElem?_modify_ne _ _ hkey

end Written

theorem send (h : Sound s record) {sub : Nat} {err : E} {rest : List (Nat × E)}
    (hloop : s.loop = .sending ((sub, err) :: rest)) :
    Sound { s with
      subs := s.subs.modify sub fun channel => { channel with sent := [.result err] }
      loop := .closing sub rest } (record ++ [(event, .none)]) := by
  have hopen : Open s.subs sub := h.unsent (sub, err) (by rw [hloop]; exact List.mem_cons_self)
  have hsuffix := h.suffix
  rw [hloop] at hsuffix
  have hmem : (sub, err) ∈ answered record := hsuffix.mem List.mem_cons_self
  have hsent : Sent (s.subs.modify sub fun channel => { channel with sent := [.result err] }) (sub, err) false := by
    rw [Sent, List.getElem?_modify_eq, hopen]
    rfl
  have hnodup : ((sub, err) :: rest).Nodup := ((hsuffix.sublist.map Prod.fst).nodup h.keys_nodup).of_map
  refine h.looped rfl nofun nofun (.inl rfl) rfl (List.length_modify _ _ _)
    (fun _ hnot => h.modify_untouched hmem _ hnot) ?_ ?_ ?_ ?_ ?_ ?_ ?_ nofun nofun
  · simp [hloop, insertedBy, held]
  · intro entry hentry
    have hold : entry ∈ held s.loop ++ live s.queue := by rw [hloop]; exact hentry
    exact h.modify_open hmem _ hold
  · intro entry hentry
    simp only [answeredBy, List.append_nil] at hentry
    by_cases heq : entry = (sub, err)
    · rw [heq]
      exact .inr (.inl ⟨hsent, List.mem_singleton.mpr rfl⟩)
    · rcases h.reached entry hentry with hold | ⟨-, hhalf⟩ | howed
      · exact .inl ((h.modify_other hmem _ hentry heq).trans hold)
      · rw [hloop] at hhalf
        cases hhalf
      · rw [hloop] at howed
        exact .inr (.inr ((List.mem_cons.mp howed).resolve_left heq))
  · simpa only [answeredBy, List.append_nil, owed] using (List.suffix_cons _ _).trans hsuffix
  · intro entry hentry
    have hne : entry ≠ (sub, err) := fun heq => (List.nodup_cons.mp hnodup).1 (heq ▸ hentry)
    have howed : entry ∈ owed s.loop := by rw [hloop]; exact List.mem_cons_of_mem _ hentry
    have hanswered : entry ∈ answered record := hsuffix.mem (List.mem_cons_of_mem _ hentry)
    exact (h.modify_other hmem _ hanswered hne).trans (h.unsent entry howed)
  · intro other hother
    rw [List.mem_singleton.mp hother]
    exact ⟨err, by simpa [answeredBy] using hmem, hsent⟩
  · refine ⟨[], ?_, nofun, nofun⟩
    simpa [insertedBy, answeredBy] using h.keys_eq (by rw [hloop]; exact nofun)

theorem closeSub (h : Sound s record) {sub : Nat} {rest : List (Nat × E)} (hloop : s.loop = .closing sub rest) :
    Sound { s with
      subs := s.subs.modify sub fun channel => { channel with closed := true }
      loop := .sending rest } (record ++ [(event, .none)]) := by
  obtain ⟨err, hmem, hhalf⟩ := h.halfway sub (by rw [hloop]; exact List.mem_singleton.mpr rfl)
  have hfound : s.subs[sub]? = some ⟨[.result err], false⟩ := hhalf
  have hsent : Sent (s.subs.modify sub fun channel => { channel with closed := true }) (sub, err) true := by
    rw [Sent, List.getElem?_modify_eq, hfound]
    rfl
  have hsuffix := h.suffix
  have hunsent := h.unsent
  rw [hloop] at hsuffix hunsent
  refine h.looped rfl nofun nofun (.inl rfl) rfl (List.length_modify _ _ _)
    (fun _ hnot => h.modify_untouched hmem _ hnot) ?_ ?_ ?_ ?_ ?_ nofun ?_ nofun nofun
  · simp [hloop, insertedBy, held]
  · intro entry hentry
    have hold : entry ∈ held s.loop ++ live s.queue := by rw [hloop]; exact hentry
    exact h.modify_open hmem _ hold
  · intro entry hentry
    simp only [answeredBy, List.append_nil] at hentry
    by_cases heq : entry = (sub, err)
    · rw [heq]
      exact .inl hsent
    · rcases h.reached entry hentry with hold | ⟨-, hkey⟩ | howed
      · exact .inl ((h.modify_other hmem _ hentry heq).trans hold)
      · rw [hloop] at hkey
        exact absurd (h.eq_of_key hentry hmem (List.mem_singleton.mp hkey)) heq
      · rw [hloop] at howed
        exact .inr (.inr howed)
  · simpa only [answeredBy, List.append_nil, owed] using hsuffix
  · intro entry hentry
    -- The channel that is being closed has a value on it, those of the rest have none.
    have hne : entry ≠ (sub, err) := by
      rintro rfl
      have hopen : s.subs[sub]? = some ⟨[], false⟩ := hunsent _ hentry
      rw [hfound] at hopen
      cases hopen
    exact (h.modify_other hmem _ (hsuffix.mem hentry) hne).trans (hunsent entry hentry)
  · refine ⟨[], ?_, nofun, nofun⟩
    simpa [insertedBy, answeredBy] using h.keys_eq (by rw [hloop]; exact nofun)

theorem step (h : Sound s record) {effect : Effect Tx E} (hstep : s.step event = some (effect, t)) :
    Sound t (record ++ [(event, effect)]) := by
  cases event with
  | push tx =>
    obtain ⟨rfl, rfl⟩ := Prod.mk.inj (Option.some.inj hstep)
    exact h.push tx
  | signal sub =>
    simp only [InsertQueue.step, silently] at hstep
    split at hstep
    · cases hstep
      exact h.quiet rfl rfl rfl rfl rfl rfl (fun _ => .rfl) fun _ => .inr (.inl rfl)
    · cases hstep
  | close =>
    simp only [InsertQueue.step, silently] at hstep
    split at hstep
    · cases hstep
    · cases hstep
      exact h.quiet rfl rfl rfl rfl rfl rfl (fun _ => .rfl) h.awake
  | look =>
    simp only [InsertQueue.step, silently] at hstep
    split at hstep
    · rename_i hloop
      cases hstep
      have hbare : Bare s.loop := by rw [hloop]; exact ⟨rfl, rfl, rfl, nofun⟩
      by_cases hempty : s.queue.length = 0
      · rw [if_pos hempty]
        exact h.moved s.signal hbare ⟨rfl, rfl, rfl, nofun⟩ fun _ => List.length_eq_zero_iff.mp hempty
      · rw [if_neg hempty]
        exact h.moved s.signal hbare ⟨rfl, rfl, rfl, nofun⟩ nofun
    · cases hstep
  | wake =>
    simp only [InsertQueue.step, silently] at hstep
    split at hstep
    · rename_i hloop
      split at hstep
      · cases hstep
        have hbare : Bare s.loop := by rw [hloop]; exact ⟨rfl, rfl, rfl, nofun⟩
        exact h.moved _ hbare ⟨rfl, rfl, rfl, nofun⟩ nofun
      · cases hstep
    · cases hstep
  | quit =>
    simp only [InsertQueue.step, silently] at hstep
    split at hstep
    · rename_i hloop
      split at hstep
      · cases hstep
        have hbare : Bare s.loop := by rw [hloop]; exact ⟨rfl, rfl, rfl, nofun⟩
        exact h.moved _ hbare ⟨rfl, rfl, rfl, nofun⟩ nofun
      · cases hstep
    · cases hstep
  | pop =>
    simp only [InsertQueue.step, silently] at hstep
    split at hstep
    · rename_i hloop
      cases hstep
      exact h.pop hloop
    · cases hstep
  | insert errs =>
    simp only [InsertQueue.step] at hstep
    split at hstep
    · rename_i batch hloop
      cases hstep
      exact h.insert hloop errs
    · cases hstep
  | send =>
    simp only [InsertQueue.step] at hstep
    split at hstep
    · rename_i sub err rest hloop
      rw [h.send_eq hloop] at hstep
      cases hstep
      exact h.send hloop
    · cases hstep
  | closeSub =>
    simp only [InsertQueue.step] at hstep
    split at hstep
    · rename_i sub rest hloop
      rw [h.closeSub_eq hloop] at hstep
      cases hstep
      exact h.closeSub hloop
    · cases hstep
  | next =>
    simp only [InsertQueue.step, silently] at hstep
    split at hstep
    · rename_i hloop
      cases hstep
      have hbare : Bare s.loop := by rw [hloop]; exact ⟨rfl, rfl, rfl, nofun⟩
      by_cases hdone : s.done = true
      · rw [if_pos hdone]
        exact h.moved s.signal hbare ⟨rfl, rfl, rfl, nofun⟩ nofun
      · rw [if_neg hdone]
        exact h.moved s.signal hbare ⟨rfl, rfl, rfl, nofun⟩ nofun
    · cases hstep

end Sound

theorem sound_run (maxSize : Int) (events : List (Event Tx E)) :
    Sound (Run.run step (new maxSize) events) (Run.accepted step (new maxSize) events) :=
  Run.run_history Sound (fun _ _ _ _ _ hstep h => h.step hstep) (new maxSize) events [] (sound_new maxSize)

end InsertQueue

end PosChain.Mempool
