import PosChain.Mempool.InsertQueue.Theorems

namespace PosChain.Mempool

namespace InsertQueue

variable {Tx E : Type} {s t : InsertQueue Tx E} {record : Record Tx E}

-- What the loop does next when nothing else moves, with a function for insert.
section Alone

variable (insert : List Tx → List E)

def loopEvent (s : InsertQueue Tx E) : Event Tx E :=
  match s.loop with
  | .looking => .look
  | .waiting => .wake
  | .popping => .pop
  | .inserting batch => .insert (insert (batch.map Prod.snd))
  | .sending [] => .next
  | .sending (_ :: _) => .send
  | .closing _ _ => .closeSub
  | .returned => .look
  | .panicked _ => .look

def advance (s : InsertQueue Tx E) : InsertQueue Tx E :=
  Run.after step s (loopEvent insert s)

end Alone

-- No push is between its two steps and the queue is not closed.
structure Calm (s : InsertQueue Tx E) (all : List (Nat × Tx)) : Prop where
  sound : ∃ record, Sound s record ∧ entered record = all
  notDone : s.done = false
  signalled : s.signalling = []

def Idle (s : InsertQueue Tx E) : Prop :=
  s.loop = .waiting ∧ s.queue = []

-- The loop alone comes to rest, with nothing more in the queue.
def Settles (insert : List Tx → List E) (all : List (Nat × Tx)) (s : InsertQueue Tx E) : Prop :=
  ∃ n, Idle ((advance insert)^[n] s) ∧ Calm ((advance insert)^[n] s) all

section Progress

variable {insert : List Tx → List E} {all : List (Nat × Tx)}

theorem advance_of_step {effect : Effect Tx E} {event : Event Tx E} (hevent : loopEvent insert s = event)
    (hstep : s.step event = some (effect, t)) : advance insert s = t := by
  rw [advance, hevent, Run.after_of_some hstep]

theorem Calm.next {effect : Effect Tx E} {event : Event Tx E} (h : Calm s all)
    (hevent : loopEvent insert s = event) (hstep : s.step event = some (effect, t))
    (hentered : enteredBy effect = []) (hdone : t.done = s.done) (hsignalling : t.signalling = s.signalling) :
    advance insert s = t ∧ Calm t all := by
  obtain ⟨record, hsound, hall⟩ := h.sound
  refine ⟨advance_of_step hevent hstep, ⟨⟨_, hsound.step hstep, ?_⟩, hdone.trans h.notDone,
    hsignalling.trans h.signalled⟩⟩
  rw [entered_concat, hentered, List.append_nil, hall]

theorem settles_of_advance (hadvance : advance insert s = t) (h : Settles insert all t) : Settles insert all s := by
  obtain ⟨n, hn⟩ := h
  refine ⟨n + 1, ?_⟩
  rw [Function.iterate_succ_apply, hadvance]
  exact hn

theorem settles_of_idle (h : Calm s all) (hidle : Idle s) : Settles insert all s :=
  ⟨0, hidle, h⟩

theorem settles_sending (rest : List (Nat × E)) (h : Calm s all) (hloop : s.loop = .sending rest)
    (hthen : ∀ t, Calm t all → t.loop = .looking → t.queue = s.queue → Settles insert all t) :
    Settles insert all s := by
  induction rest generalizing s with
  | nil =>
    have hevent : loopEvent insert s = .next := by rw [loopEvent, hloop]
    have hstep : s.step .next = some (.none, { s with loop := .looking }) := by
      simp [step, hloop, silently, h.notDone]
    obtain ⟨hadvance, hcalm⟩ := h.next hevent hstep rfl rfl rfl
    exact settles_of_advance hadvance (hthen _ hcalm rfl rfl)
  | cons entry rest ih =>
    obtain ⟨sub, err⟩ := entry
    obtain ⟨record, hsound, -⟩ := h.sound
    have hevent : loopEvent insert s = .send := by rw [loopEvent, hloop]
    obtain ⟨hadvance, hcalm⟩ := h.next hevent (hsound.step_send hloop) rfl rfl rfl
    refine settles_of_advance hadvance ?_
    obtain ⟨record', hsound', -⟩ := hcalm.sound
    obtain ⟨hadvance', hcalm'⟩ := hcalm.next (show loopEvent insert _ = .closeSub from rfl)
      (hsound'.step_closeSub rfl) rfl rfl rfl
    refine settles_of_advance hadvance' (ih hcalm' rfl ?_)
    intro t ht hlooking hqueue
    exact hthen t ht hlooking hqueue

theorem settles_looking_empty (h : Calm s all) (hloop : s.loop = .looking) (hqueue : s.queue = []) :
    Settles insert all s := by
  have hevent : loopEvent insert s = .look := by rw [loopEvent, hloop]
  have hstep : s.step .look = some (.none, { s with loop := .waiting }) := by
    simp [step, hloop, silently, hqueue]
  obtain ⟨hadvance, hcalm⟩ := h.next hevent hstep rfl rfl rfl
  exact settles_of_advance hadvance (settles_of_idle hcalm ⟨rfl, hqueue⟩)

section

variable (hlength : ∀ txs, (insert txs).length = txs.length)

include hlength

theorem settles_inserting {batch : List (Nat × Tx)} (h : Calm s all) (hloop : s.loop = .inserting batch)
    (hthen : ∀ t, Calm t all → t.loop = .looking → t.queue = s.queue → Settles insert all t) :
    Settles insert all s := by
  have hevent : loopEvent insert s = .insert (insert (batch.map Prod.snd)) := by rw [loopEvent, hloop]
  have hinsert : s.insertTxs batch (insert (batch.map Prod.snd)) =
      { s with loop := .sending ((batch.map Prod.fst).zip (insert (batch.map Prod.snd))) } := by
    rw [insertTxs, if_neg]
    simp [hlength]
  have hstep : s.step (.insert (insert (batch.map Prod.snd))) =
      some (.inserted batch (insert (batch.map Prod.snd)), s.insertTxs batch (insert (batch.map Prod.snd))) := by
    simp only [step, hloop]
  obtain ⟨hadvance, hcalm⟩ := h.next hevent hstep rfl (by rw [hinsert]) (by rw [hinsert])
  refine settles_of_advance hadvance ?_
  rw [hinsert] at hcalm ⊢
  exact settles_sending _ hcalm rfl hthen

theorem settles_popping (h : Calm s all) (hloop : s.loop = .popping) : Settles insert all s := by
  obtain ⟨record, hsound, -⟩ := h.sound
  have hevent : loopEvent insert s = .pop := by rw [loopEvent, hloop]
  have hstep : s.step .pop = some (.none, s.popAll) := by
    simp only [step, hloop]
    rfl
  obtain ⟨hadvance, hcalm⟩ := h.next hevent hstep rfl rfl rfl
  refine settles_of_advance hadvance (settles_inserting hlength hcalm rfl ?_)
  intro t ht hlooking hqueue
  exact settles_looking_empty ht hlooking hqueue

theorem settles_looking (h : Calm s all) (hloop : s.loop = .looking) : Settles insert all s := by
  by_cases hqueue : s.queue = []
  · exact settles_looking_empty h hloop hqueue
  · have hevent : loopEvent insert s = .look := by rw [loopEvent, hloop]
    have hstep : s.step .look = some (.none, { s with loop := .popping }) := by
      simp [step, hloop, silently, hqueue]
    obtain ⟨hadvance, hcalm⟩ := h.next hevent hstep rfl rfl rfl
    exact settles_of_advance hadvance (settles_popping hlength hcalm rfl)

theorem settles_waiting (h : Calm s all) (hloop : s.loop = .waiting) : Settles insert all s := by
  obtain ⟨record, hsound, -⟩ := h.sound
  rcases hsound.awake hloop with hqueue | hsignal | hsignalling
  · exact settles_of_idle h ⟨hloop, hqueue⟩
  · have hevent : loopEvent insert s = .wake := by rw [loopEvent, hloop]
    have hstep : s.step .wake = some (.none, { s with signal := false, loop := .looking }) := by
      simp [step, hloop, silently, hsignal]
    obtain ⟨hadvance, hcalm⟩ := h.next hevent hstep rfl rfl rfl
    exact settles_of_advance hadvance (settles_looking hlength hcalm rfl)
  · exact absurd h.signalled hsignalling

theorem settles_of_calm (h : Calm s all)
    (hreturned : s.loop ≠ .returned) (hpanicked : ∀ text, s.loop ≠ .panicked text) : Settles insert all s := by
  match hloop : s.loop with
  | .looking => exact settles_looking hlength h hloop
  | .waiting => exact settles_waiting hlength h hloop
  | .popping => exact settles_popping hlength h hloop
  | .inserting batch =>
    exact settles_inserting hlength h hloop fun t ht hlooking _ => settles_looking hlength ht hlooking
  | .sending rest =>
    exact settles_sending rest h hloop fun t ht hlooking _ => settles_looking hlength ht hlooking
  | .closing sub rest =>
    obtain ⟨record, hsound, -⟩ := h.sound
    have hevent : loopEvent insert s = .closeSub := by rw [loopEvent, hloop]
    obtain ⟨hadvance, hcalm⟩ := h.next hevent (hsound.step_closeSub hloop) rfl rfl rfl
    refine settles_of_advance hadvance (settles_sending rest hcalm rfl ?_)
    exact fun t ht hlooking _ => settles_looking hlength ht hlooking
  | .returned => exact absurd hloop hreturned
  | .panicked text => exact absurd hloop (hpanicked text)

end

end Progress

-- The loop returns from a closed queue only.
theorem step_kept {event : Event Tx E} {effect : Effect Tx E} (h : s.step event = some (effect, t)) :
    t.maxSize = s.maxSize ∧ ((s.loop = .returned → s.done = true) → t.loop = .returned → t.done = true) := by
  cases event with
  | push tx =>
    obtain ⟨-, rfl⟩ := Prod.mk.inj (Option.some.inj h)
    cases tx with
    | none => exact ⟨rfl, id⟩
    | some tx =>
      dsimp only
      split <;> exact ⟨rfl, id⟩
  | insert errs =>
    simp only [step] at h
    split at h
    · cases h
      rw [insertTxs]
      split <;> exact ⟨rfl, fun _ hloop => by cases hloop⟩
    · cases h
  | send => grind [step, InsertQueue.send, silently]
  | closeSub => grind [step, InsertQueue.closeSub, silently]
  | pop => grind [step, popAll, silently]
  | _ => grind [step, silently]

-- What a subscriber finds on its channel: nothing as yet, or the result that insert
-- returned for its transaction and the end of the channel.
def Delivery (s : InsertQueue Tx E) (record : Record Tx E) (sub : Nat) : Prop :=
  Open s.subs sub ∨ ∃ err, (sub, err) ∈ answered record ∧
    (Sent s.subs (sub, err) true ∨ Sent s.subs (sub, err) false ∧ ∃ rest, s.loop = .closing sub rest)

structure Delivers (maxSize : Int) (s : InsertQueue Tx E) (record : Record Tx E) : Prop where
  order : inserted record <+: entered record
  once : ((entered record).map Prod.fst).Nodup
  delivery : ∀ entry ∈ entered record, Delivery s record entry.1
  own : ((answered record).map Prod.fst).Nodup
  full : ∀ sub, rejected record sub → s.subs[sub]? = some ⟨[.queueFull], true⟩ ∧
    ∀ entry ∈ inserted record, entry.1 ≠ sub
  nils : ∀ sub, ignored record sub → s.subs[sub]? = some ⟨[], true⟩ ∧ ∀ entry ∈ inserted record, entry.1 ≠ sub
  bounded : (s.queue.length : Int) ≤ max 0 maxSize
  panics : ∀ text, s.loop = .panicked text →
    ∃ event batch errs, (event, .inserted batch errs) ∈ record ∧ errs.length ≠ batch.length
  awake : s.loop = .waiting → s.queue ≠ [] → s.signal = true ∨ s.signalling ≠ []
  progress : ∀ insert : List Tx → List E, (∀ txs, (insert txs).length = txs.length) → s.done = false →
    s.signalling = [] → (∀ text, s.loop ≠ .panicked text) →
    ∃ n, ∀ entry ∈ entered record, ∃ err, Sent ((advance insert)^[n] s).subs (entry.1, err) true

theorem Sound.delivery (h : Sound s record) {entry : Nat × Tx} (hentry : entry ∈ entered record) :
    Delivery s record entry.1 := by
  obtain ⟨lost, hkeys, -, hopen⟩ := h.lost
  rw [h.order] at hentry
  rcases List.mem_append.mp hentry with hinserted | hwaiting
  · have hmem : entry.1 ∈ (answered record).map Prod.fst ++ lost := hkeys ▸ List.mem_map_of_mem hinserted
    rcases List.mem_append.mp hmem with hanswered | hlost
    · obtain ⟨⟨sub, err⟩, hresult, heq⟩ := List.mem_map.mp hanswered
      obtain rfl : sub = entry.1 := heq
      rcases h.reached _ hresult with hsent | ⟨hsent, hhalf⟩ | howed
      · exact .inr ⟨err, hresult, .inl hsent⟩
      · refine .inr ⟨err, hresult, .inr ⟨hsent, ?_⟩⟩
        match hloop : s.loop with
        | .closing sub rest =>
          rw [hloop] at hhalf
          rw [List.mem_singleton.mp hhalf]
          exact ⟨rest, rfl⟩
        | .looking | .waiting | .popping | .inserting _ | .sending _ | .returned | .panicked _ =>
          rw [hloop] at hhalf
          cases hhalf
      · exact .inl (h.unsent _ howed)
    · exact .inl (hopen _ hlost)
  · exact .inl (h.fresh entry hwaiting)

theorem Sound.delivered_of_idle (h : Sound s record) (hidle : Idle s) {entry : Nat × Tx}
    (hentry : entry ∈ entered record) : ∃ err, Sent s.subs (entry.1, err) true := by
  obtain ⟨hloop, hqueue⟩ := hidle
  have horder := h.order
  rw [hloop, hqueue] at horder
  have hall : entered record = inserted record := by simpa [held, live] using horder
  have hkeys := h.keys_eq (by rw [hloop]; intro text h; cases h)
  have hmem : entry.1 ∈ (answered record).map Prod.fst := hkeys ▸ List.mem_map_of_mem (hall ▸ hentry)
  obtain ⟨⟨sub, err⟩, hresult, heq⟩ := List.mem_map.mp hmem
  obtain rfl : sub = entry.1 := heq
  exact ⟨err, h.settled (by rw [hloop]; rfl) (by rw [hloop]; rfl) hresult⟩

theorem delivers_in_order_once (maxSize : Int) (events : List (Event Tx E)) :
    Delivers maxSize (Run.run step (new maxSize) events) (Run.accepted step (new maxSize) events) := by
  have h := sound_run maxSize events
  have hmax : (Run.run step (new maxSize) events).maxSize = maxSize :=
    Run.run_invariant (fun s : InsertQueue Tx E => s.maxSize = maxSize)
      (fun _ _ _ _ hstep hs => (step_kept hstep).1.trans hs) _ events rfl
  have hpre : inserted (Run.accepted step (new maxSize) events) <+:
      entered (Run.accepted step (new maxSize) events) := by
    rw [h.order]
    exact List.prefix_append _ _
  refine ⟨hpre, h.ascending.imp Nat.ne_of_lt, fun _ => h.delivery, h.keys_nodup, ?_, ?_, ?_, h.panicked, ?_, ?_⟩
  · intro sub hsub
    obtain ⟨hfound, hnot⟩ := h.refused sub hsub
    exact ⟨hfound, fun entry hentry => hnot entry (hpre.mem hentry)⟩
  · intro sub hsub
    obtain ⟨hfound, hnot⟩ := h.nils sub hsub
    exact ⟨hfound, fun entry hentry => hnot entry (hpre.mem hentry)⟩
  · have hbounded := h.bounded
    rwa [hmax] at hbounded
  · intro hwaiting hqueue
    exact (h.awake hwaiting).resolve_left hqueue
  · intro insert hlength hdone hsignalling hpanicked
    have hreturned : (Run.run step (new maxSize) events).loop ≠ .returned := by
      intro hloop
      have hclosed := Run.run_invariant (fun s : InsertQueue Tx E => s.loop = .returned → s.done = true)
        (fun _ _ _ _ hstep => (step_kept hstep).2) (new maxSize) events (fun h => by cases h) hloop
      rw [hdone] at hclosed
      cases hclosed
    obtain ⟨n, hidle, hcalm⟩ := settles_of_calm hlength ⟨⟨_, h, rfl⟩, hdone, hsignalling⟩ hreturned hpanicked
    obtain ⟨record, hsound, hall⟩ := hcalm.sound
    exact ⟨n, fun entry hentry => hsound.delivered_of_idle hidle (hall ▸ hentry)⟩

-- The loop has found the queue empty and waits. A push has put its transaction in
-- the queue and not yet signalled.
theorem waits_before_signal :
    ∃ events : List (Event Unit Unit), ∃ s, Run.run step (new 10) events = s ∧
      s.loop = .waiting ∧ s.queue ≠ [] ∧ s.signal = false := by
  refine ⟨[.look, .push (some ())], _, rfl, ?_⟩
  decide

end InsertQueue

end PosChain.Mempool
