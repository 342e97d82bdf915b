import Mathlib.Data.List.Rotate
import PosChain.Rpc.Stream

namespace PosChain.Rpc

-- The queue of the segments is a ring: a buffer whose length is a power of two, in which
-- the items begin at the head and go on at the start of the buffer.
structure Queue (V : Type) where
  buf : List V
  head : Nat
  tail : Nat
  count : Nat

namespace Queue

variable {V : Type}

section Operations

variable [Inhabited V] (q : Queue V)

def minQueueLen : Nat := 16

def new : Queue V :=
  ⟨List.replicate minQueueLen default, 0, 0, 0⟩

-- A copy ends where the new buffer does.
def resize : Queue V :=
  let items := if q.head < q.tail then (q.buf.take q.tail).drop q.head
    else q.buf.drop q.head ++ q.buf.take q.tail
  ⟨(items ++ List.replicate (q.count * 2) default).take (q.count * 2), 0, q.count, q.count⟩

def place (elem : V) : Queue V :=
  { q with buf := q.buf.set q.tail elem, tail := (q.tail + 1) &&& (q.buf.length - 1), count := q.count + 1 }

def add (elem : V) : Queue V :=
  if q.count = q.buf.length then q.resize.place elem else q.place elem

-- A pointer to an item is its index in the buffer.
def getP (i : Int) : Check Nat :=
  let i := if i < 0 then i + q.count else i
  if i < 0 ∨ (q.count : Int) ≤ i then .error (.panic "queue: Get() called with index out of range")
  else .ok ((q.head + i.toNat) &&& (q.buf.length - 1))

def get (i : Int) : Check V := do
  let p ← q.getP i
  return q.buf.getD p default

def write (p : Nat) (elem : V) : Queue V :=
  { q with buf := q.buf.set p elem }

def behind : Queue V :=
  { q with head := (q.head + 1) &&& (q.buf.length - 1), count := q.count - 1 }

-- A buffer that is a quarter full is halved.
def remove : Check (V × Queue V) :=
  if q.count = 0 then .error (.panic "queue: Remove() called on empty queue")
  else .ok (q.buf.getD q.head default,
    if minQueueLen < q.buf.length ∧ (q.count - 1) * 4 = q.buf.length then q.behind.resize else q.behind)

end Operations

def items (q : Queue V) : List V :=
  (q.buf.rotate q.head).take q.count

structure Sound (q : Queue V) : Prop where
  power : ∃ k, q.buf.length = 2 ^ (k + 4)
  head_lt : q.head < q.buf.length
  count_le : q.count ≤ q.buf.length
  tail_eq : q.tail = (q.head + q.count) % q.buf.length

theorem new_sound [Inhabited V] : (new : Queue V).Sound :=
  ⟨⟨0, List.length_replicate⟩, by simp [new, minQueueLen], Nat.zero_le _, rfl⟩

-- Two items are in two cells of the ring.
theorem getElem?_set_index (q : Queue V) {i j : Nat} (hi : i < q.buf.length) (hj : j < q.buf.length) (elem : V) :
    (q.buf.set ((q.head + i) % q.buf.length) elem)[(q.head + j) % q.buf.length]? =
      if j = i then some elem else q.buf[(q.head + j) % q.buf.length]? := by
  by_cases heq : j = i
  · rw [if_pos heq, heq, List.getElem?_set_self (Nat.mod_lt _ (by omega))]
  · rw [if_neg heq, List.getElem?_set_ne]
    intro hsame
    have hmod : i ≡ j [MOD q.buf.length] := Nat.ModEq.add_left_cancel' q.head hsame
    exact heq (hmod.eq_of_lt_of_lt hi hj).symm

namespace Sound

variable {q : Queue V}

section

variable (h : q.Sound)

include h

-- The bitwise modulus.
theorem mask (x : Nat) : x &&& (q.buf.length - 1) = x % q.buf.length := by
  obtain ⟨k, hk⟩ := h.power
  rw [hk, Nat.and_two_pow_sub_one_eq_mod]

theorem length_items : q.items.length = q.count := by
  rw [items, List.length_take, List.length_rotate, Nat.min_eq_left h.count_le]

theorem getElem?_items {i : Nat} (hi : i < q.count) : q.items[i]? = q.buf[(q.head + i) % q.buf.length]? := by
  have hlt := hi.trans_le h.count_le
  rw [items, List.getElem?_take_of_lt hi, List.getElem?_rotate hlt, Nat.add_comm]

theorem items_eq {items : List V} (hlength : items.length = q.count)
    (hitems : ∀ i < q.count, q.buf[(q.head + i) % q.buf.length]? = items[i]?) : q.items = items := by
  apply List.ext_getElem?
  intro i
  by_cases hi : i < q.count
  · rw [h.getElem?_items hi, hitems i hi]
  · rw [List.getElem?_eq_none (by rw [h.length_items]; omega), List.getElem?_eq_none (by omega)]

-- One part of the buffer, or its end and its start.
theorem copied_eq (hpos : 0 < q.count) : (if q.head < q.tail then (q.buf.take q.tail).drop q.head
    else q.buf.drop q.head ++ q.buf.take q.tail) = q.items := by
  have hhead := h.head_lt
  have hcount := h.count_le
  have htail := h.tail_eq
  rw [items, List.rotate_eq_drop_append_take hhead.le, List.take_append, List.length_drop]
  by_cases hwrap : q.head + q.count < q.buf.length
  · rw [Nat.mod_eq_of_lt hwrap] at htail
    rw [if_pos (by omega), List.drop_take, htail, Nat.add_sub_cancel_left,
      Nat.sub_eq_zero_of_le (by omega), List.take_zero, List.append_nil]
  · rw [Nat.mod_eq_sub_mod (by omega), Nat.mod_eq_of_lt (by omega)] at htail
    have hall : (q.buf.drop q.head).take q.count = q.buf.drop q.head :=
      List.take_of_length_le (by rw [List.length_drop]; omega)
    rw [if_neg (by omega), hall, List.take_take, Nat.min_eq_left (by omega), htail]
    congr 2
    omega

theorem place_items (hroom : q.count < q.buf.length) (elem : V) :
    (q.place elem).Sound ∧ (q.place elem).items = q.items ++ [elem] := by
  have hlength : (q.place elem).buf.length = q.buf.length := List.length_set
  have hsound : (q.place elem).Sound := by
    refine ⟨by rw [hlength]; exact h.power, by rw [hlength]; exact h.head_lt, by rw [hlength]; exact hroom, ?_⟩
    change (q.tail + 1) &&& (q.buf.length - 1) = (q.head + (q.count + 1)) % (q.place elem).buf.length
    rw [hlength, h.mask, h.tail_eq, Nat.mod_add_mod, Nat.add_assoc]
  refine ⟨hsound, hsound.items_eq (by rw [List.length_append, h.length_items]; rfl) fun i hi => ?_⟩
  have hlt : i < q.count + 1 := hi
  change (q.buf.set q.tail elem)[(q.head + i) % (q.place elem).buf.length]? = _
  rw [hlength, h.tail_eq, q.getElem?_set_index hroom (by omega), List.getElem?_append, h.length_items]
  by_cases hlast : i = q.count
  · rw [if_pos hlast, if_neg (by omega), hlast, Nat.sub_self, List.getElem?_cons_zero]
  · rw [if_neg hlast, if_pos (by omega), h.getElem?_items (by omega)]

theorem behind_items {elem : V} {rest : List V} (hitems : q.items = elem :: rest) :
    q.behind.Sound ∧ q.behind.items = rest := by
  have hcount : q.count = rest.length + 1 := by rw [← h.length_items, hitems, List.length_cons]
  have hsound : q.behind.Sound := by
    refine ⟨h.power, ?_, (Nat.sub_le _ _).trans h.count_le, ?_⟩
    · change (q.head + 1) &&& (q.buf.length - 1) < _
      rw [h.mask]
      exact Nat.mod_lt _ ((Nat.zero_le _).trans_lt h.head_lt)
    · change q.tail = (((q.head + 1) &&& (q.buf.length - 1)) + (q.count - 1)) % q.buf.length
      rw [h.mask, Nat.mod_add_mod, h.tail_eq]
      congr 1
      omega
  refine ⟨hsound, hsound.items_eq (by change rest.length = q.count - 1; omega) fun i hi => ?_⟩
  have hlt : i + 1 < q.count := by
    change i < q.count - 1 at hi
    omega
  change q.buf[(((q.head + 1) &&& (q.buf.length - 1)) + i) % q.buf.length]? = _
  rw [h.mask, Nat.mod_add_mod, Nat.add_assoc, Nat.add_comm 1 i, ← h.getElem?_items hlt, hitems,
    List.getElem?_cons_succ]

theorem getP_eq {i : Nat} (hi : i < q.count) : q.getP i = .ok ((q.head + i) % q.buf.length) := by
  simp only [getP]
  rw [if_neg (show ¬ (i : Int) < 0 by omega), if_neg (by omega), Int.toNat_natCast, h.mask]

theorem getP_last {n : Nat} (hcount : q.count = n + 1) : q.getP (-1) = .ok ((q.head + n) % q.buf.length) := by
  have hindex : (if (-1 : Int) < 0 then -1 + (q.count : Int) else -1) = (n : Int) := by
    rw [if_pos (by decide), hcount]
    omega
  rw [← h.getP_eq (show n < q.count by omega)]
  simp only [getP, hindex]
  rw [if_neg (show ¬ (n : Int) < 0 by omega)]

end

variable [Inhabited V] (h : q.Sound)

include h

theorem resize_items {k : Nat} (hk : q.count * 2 = 2 ^ (k + 4)) :
    q.resize.Sound ∧ q.resize.items = q.items ∧ q.resize.count < q.resize.buf.length := by
  have hpos : 0 < q.count := by
    have := Nat.two_pow_pos (k + 4)
    omega
  have hbuf : q.resize.buf = (q.items ++ List.replicate (q.count * 2) default).take (q.count * 2) := by
    rw [resize, h.copied_eq hpos]
  have hlength : q.resize.buf.length = q.count * 2 := by
    rw [hbuf, List.length_take, List.length_append, List.length_replicate]
    omega
  have hroom : q.count < q.resize.buf.length := by omega
  have hsound : q.resize.Sound := by
    refine ⟨⟨k, hlength.trans hk⟩, (Nat.zero_le _).trans_lt hroom, hroom.le, ?_⟩
    change q.count = (0 + q.count) % q.resize.buf.length
    rw [Nat.zero_add, Nat.mod_eq_of_lt hroom]
  refine ⟨hsound, hsound.items_eq h.length_items fun i hi => ?_, hroom⟩
  have hlt : i < q.count := hi
  change q.resize.buf[(0 + i) % q.resize.buf.length]? = _
  rw [Nat.zero_add, Nat.mod_eq_of_lt (by omega), hbuf, List.getElem?_take_of_lt (by omega),
    List.getElem?_append_left (by rw [h.length_items]; exact hlt)]

theorem add_items (elem : V) : (q.add elem).Sound ∧ (q.add elem).items = q.items ++ [elem] := by
  unfold add
  by_cases hfull : q.count = q.buf.length
  · obtain ⟨k, hk⟩ := h.power
    have hdouble : q.count * 2 = 2 ^ (k + 1 + 4) := by rw [hfull, hk, ← pow_succ]
    obtain ⟨hsound, hitems, hroom⟩ := h.resize_items hdouble
    rw [if_pos hfull, ← hitems]
    exact hsound.place_items hroom elem
  · rw [if_neg hfull]
    exact h.place_items (lt_of_le_of_ne h.count_le hfull) elem

theorem remove_items {elem : V} {rest : List V} (hitems : q.items = elem :: rest) :
    ∃ r, q.remove = .ok (elem, r) ∧ r.Sound ∧ r.items = rest := by
  have hcount : q.count = rest.length + 1 := by rw [← h.length_items, hitems, List.length_cons]
  have hfirst : q.buf.getD q.head default = elem := by
    have hhead := h.getElem?_items (show 0 < q.count by omega)
    rw [hitems, Nat.add_zero, Nat.mod_eq_of_lt h.head_lt] at hhead
    rw [List.getD_eq_getElem?_getD, ← hhead]
    rfl
  obtain ⟨hsound, hbehind⟩ := h.behind_items hitems
  refine ⟨_, by rw [remove, if_neg (by omega), hfirst], ?_⟩
  split
  · rename_i hquarter
    obtain ⟨k, hk⟩ := h.power
    obtain ⟨hmin, hquarter⟩ := hquarter
    rw [hk, minQueueLen] at *
    cases k with
    | zero => omega
    | succ k =>
      have hhalf : q.behind.count * 2 = 2 ^ (k + 4) := by
        change (q.count - 1) * 2 = _
        rw [show k + 1 + 4 = k + 4 + 1 by omega, pow_succ] at hquarter
        omega
      obtain ⟨hresized, hsame, -⟩ := hsound.resize_items hhalf
      exact ⟨hresized, hsame.trans hbehind⟩
  · exact ⟨hsound, hbehind⟩

theorem get_items {i : Nat} {elem : V} (hitem : q.items[i]? = some elem) : q.get i = .ok elem := by
  have hi : i < q.count := by
    rw [← h.length_items]
    exact (List.getElem?_eq_some_iff.mp hitem).1
  rw [h.getElem?_items hi] at hitem
  rw [get, h.getP_eq hi]
  change Except.ok (q.buf.getD _ default) = _
  rw [List.getD_eq_getElem?_getD, hitem, Option.getD_some]

theorem get_last {front : List V} {last : V} (hitems : q.items = front ++ [last]) :
    q.get (-1) = .ok last ∧ ∃ p, q.getP (-1) = .ok p ∧
      ∀ elem, (q.write p elem).Sound ∧ (q.write p elem).items = front ++ [elem] := by
  have hcount : q.count = front.length + 1 := by rw [← h.length_items, hitems, List.length_append]; rfl
  have hlast : q.get front.length = .ok last := h.get_items (by rw [hitems, List.getElem?_concat_length])
  have hp := h.getP_last hcount
  refine ⟨?_, _, hp, fun elem => ?_⟩
  · rwa [get, hp, ← h.getP_eq (by omega)]
  have hlength : (q.write ((q.head + front.length) % q.buf.length) elem).buf.length = q.buf.length :=
    List.length_set
  have hsound : (q.write ((q.head + front.length) % q.buf.length) elem).Sound := by
    refine ⟨?_, ?_, ?_, ?_⟩ <;> rw [hlength]
    · exact h.power
    · exact h.head_lt
    · exact h.count_le
    · exact h.tail_eq
  refine ⟨hsound, hsound.items_eq (by rw [List.length_append]; exact hcount.symm) fun i hi => ?_⟩
  have hlt : i < q.count := hi
  have hle := h.count_le
  rw [hlength]
  change (q.buf.set _ elem)[(q.head + i) % q.buf.length]? = _
  rw [q.getElem?_set_index (by omega) (by omega), ← h.getElem?_items hlt, hitems, List.getElem?_append,
    List.getElem?_append]
  by_cases heq : i = front.length
  · rw [if_pos heq, if_neg (by omega), heq, Nat.sub_self, List.getElem?_cons_zero]
  · rw [if_neg heq, if_pos (by omega), if_pos (by omega)]

end Sound

end Queue

-- The stream with its segments in the ring, and the same stream with the list of them.
structure RingStream (V : Type) where
  segments : Queue (List V)
  segmentSize : Nat
  maxSegments : Nat
  segmentOffset : Nat

namespace RingStream

variable {V : Type}

section Operations

variable (s : RingStream V)

-- The checks of the sizes are those of the other stream.
def newStream (segmentSize capacity : Nat) : Check (RingStream V) :=
  (Stream.newStream segmentSize capacity : Check (Stream V)).map fun stream =>
    ⟨.new, stream.segmentSize, stream.maxSegments, 0⟩

def isFull : Check Bool :=
  if s.segments.count = 0 then .ok true
  else (s.segments.get (-1)).map fun tail => decide (tail.length = s.segmentSize)

def makeRoom : Check (RingStream V) := do
  if ← s.isFull then
    if s.maxSegments < s.segments.count then
      let (_, segments) ← s.segments.remove
      return { s with segments := segments.add [], segmentOffset := s.segmentOffset + 1 }
    else return { s with segments := s.segments.add [] }
  else return s

def append (v : V) : Check (RingStream V) := do
  let p ← s.segments.getP (-1)
  let tail ← s.segments.get (-1)
  return { s with segments := s.segments.write p (tail ++ [v]) }

def lastID : Check Nat :=
  if s.segments.count = 0 then .ok 0
  else (s.segments.get (-1)).map fun tail =>
    (s.segmentOffset + s.segments.count - 1) * s.segmentSize + tail.length

def add (vs : List V) : Check (RingStream V × Nat) :=
  if vs.length = 0 then .ok (s, 0)
  else do
    let s ← vs.foldlM (fun s v => do (← s.makeRoom).append v) s
    return (s, ← s.lastID)

def noItems : Check (List V × Int) :=
  s.lastID.map fun id => ([], id)

def doRead (offset : Int) : Check (List V × Int) :=
  let segment := if s.segmentOffset ≤ offset.toNat / s.segmentSize then
    offset.toNat / s.segmentSize - s.segmentOffset else 0
  if s.segments.count = 0 then s.noItems
  else if offset < 0 then s.noItems
  else if s.segments.count ≤ segment then s.noItems
  else do
    let seg ← s.segments.get segment
    if seg.length < offset.toNat % s.segmentSize then .error (.panic "runtime error: slice bounds out of range")
    else if (seg.drop (offset.toNat % s.segmentSize)).length = 0 then s.noItems
    else return (seg.drop (offset.toNat % s.segmentSize),
      ((s.segmentOffset + segment) * s.segmentSize + seg.length : Nat))

def list : Stream V :=
  ⟨s.segments.items, s.segmentSize, s.maxSegments, s.segmentOffset⟩

end Operations

section Refinement

variable {s : RingStream V} (h : s.segments.Sound)

include h

theorem count_eq : s.segments.count = s.list.segments.length :=
  h.length_items.symm

theorem last_eq (hne : s.list.segments ≠ []) : s.segments.get (-1) = .ok s.list.tail ∧
    ∃ p, s.segments.getP (-1) = .ok p ∧ ∀ elem, (s.segments.write p elem).Sound ∧
      (s.segments.write p elem).items = s.list.segments.dropLast ++ [elem] := by
  have hitems : s.segments.items = s.list.segments.dropLast ++ [s.list.tail] := by
    rw [Stream.tail, List.getLast?_eq_getLast_of_ne_nil hne, Option.getD_some, List.dropLast_concat_getLast]
    rfl
  exact h.get_last hitems

theorem lastID_eq : s.lastID = .ok s.list.lastID := by
  rw [lastID, Stream.lastID, count_eq h]
  split
  · rfl
  · rename_i hlength
    rw [(last_eq h (List.ne_nil_of_length_pos (Nat.pos_of_ne_zero hlength))).1]
    rfl

theorem isFull_eq : s.isFull =
    .ok (decide (s.list.segments.length = 0 ∨ s.list.tail.length = s.list.segmentSize)) := by
  rw [isFull, count_eq h]
  by_cases hlength : s.list.segments.length = 0
  · rw [if_pos hlength, decide_eq_true (.inl hlength)]
  · rw [if_neg hlength, (last_eq h (List.ne_nil_of_length_pos (Nat.pos_of_ne_zero hlength))).1]
    simp only [hlength, false_or]
    rfl

theorem makeRoom_eq : ∃ t, s.makeRoom = .ok t ∧ t.segments.Sound ∧ t.list = s.list.makeRoom ∧
    t.list.segments ≠ [] := by
  rw [makeRoom, isFull_eq h, Stream.makeRoom]
  by_cases hfull : s.list.segments.length = 0 ∨ s.list.tail.length = s.list.segmentSize
  · rw [decide_eq_true hfull, if_pos hfull, count_eq h]
    by_cases hprune : s.maxSegments < s.list.segments.length
    · obtain ⟨first, rest, hitems⟩ := List.exists_cons_of_length_pos ((Nat.zero_le _).trans_lt hprune)
      obtain ⟨r, hremove, hsound, hrest⟩ := h.remove_items hitems
      obtain ⟨hadded, hitems'⟩ := hsound.add_items ([] : List V)
      refine ⟨{ s with segments := r.add [], segmentOffset := s.segmentOffset + 1 }, ?_, hadded, ?_, ?_⟩
      · change (if s.maxSegments < s.list.segments.length then _ else _) = _
        rw [if_pos hprune, hremove]
        rfl
      · rw [if_pos (show s.list.maxSegments < _ from hprune), hitems]
        simp only [list, hitems', hrest, List.tail_cons]
      · simp [list, hitems']
    · obtain ⟨hadded, hitems'⟩ := h.add_items ([] : List V)
      refine ⟨{ s with segments := s.segments.add [] }, ?_, hadded, ?_, ?_⟩
      · change (if s.maxSegments < s.list.segments.length then _ else _) = _
        rw [if_neg hprune]
        rfl
      · rw [if_neg (show ¬ s.list.maxSegments < _ from hprune)]
        simp only [list, hitems']
      · simp [list, hitems']
  · rw [decide_eq_false hfull, if_neg hfull]
    exact ⟨s, rfl, h, rfl, fun hnil => hfull (.inl (by rw [hnil]; rfl))⟩

theorem append_eq (hne : s.list.segments ≠ []) (v : V) :
    ∃ t, s.append v = .ok t ∧ t.segments.Sound ∧ t.list = s.list.append v := by
  obtain ⟨hlast, p, hp, hwrite⟩ := last_eq h hne
  obtain ⟨hsound, hitems⟩ := hwrite (s.list.tail ++ [v])
  refine ⟨{ s with segments := s.segments.write p (s.list.tail ++ [v]) }, ?_, hsound, ?_⟩
  · rw [append, hp, hlast]
    rfl
  · rw [list, hitems, Stream.append]
    rfl

theorem add_eq (vs : List V) : ∃ t, s.add vs = .ok (t, (s.list.add vs).2) ∧ t.segments.Sound ∧
    t.list = (s.list.add vs).1 := by
  have hfold : ∃ t, vs.foldlM (fun s v => do (← makeRoom s).append v) s = .ok t ∧ t.segments.Sound ∧
      t.list = vs.foldl (fun s v => s.makeRoom.append v) s.list := by
    induction vs generalizing s with
    | nil => exact ⟨s, rfl, h, rfl⟩
    | cons v vs ih =>
      obtain ⟨r, hroom, hr, hlist, hne⟩ := makeRoom_eq h
      obtain ⟨t, happend, ht, hlist'⟩ := append_eq hr hne v
      obtain ⟨u, hu, hsound, hlast⟩ := ih ht
      refine ⟨u, ?_, hsound, ?_⟩
      · rw [List.foldlM_cons, hroom]
        change (r.append v >>= fun s => _) = _
        rw [happend]
        exact hu
      · rw [hlast, hlist', hlist, List.foldl_cons]
  rw [add, Stream.add]
  split
  · exact ⟨s, rfl, h, rfl⟩
  · obtain ⟨t, hadds, ht, hlist⟩ := hfold
    refine ⟨t, ?_, ht, hlist⟩
    rw [hadds, ← hlist]
    change (t.lastID >>= fun id => Except.ok (t, id)) = _
    rw [lastID_eq ht]
    rfl

-- Nothing that is read depends on where the ring has its items.
theorem doRead_eq (offset : Int) : s.doRead offset = s.list.doRead offset := by
  have hnone : s.noItems = .ok ([], (s.list.lastID : Int)) := by
    rw [noItems, lastID_eq h]
    rfl
  rw [Stream.doRead, doRead, count_eq h, hnone]
  change (if _ then _ else if _ then _ else if s.list.segments.length ≤ s.list.place offset.toNat then _ else
    s.segments.get (s.list.place offset.toNat : Nat) >>= _) = _
  split
  · rfl
  split
  · rfl
  cases hseg : s.list.segments[s.list.place offset.toNat]? with
  | none => rw [if_pos (List.getElem?_eq_none_iff.mp hseg)]
  | some seg =>
    rw [if_neg (Nat.not_le.mpr (List.getElem?_eq_some_iff.mp hseg).1), h.get_items hseg]
    rfl

-- From any state on, the ring holds the segments of the stream.
theorem adds_eq (batches : List (List V)) : ∃ t, batches.foldlM (fun s vs => (s.add vs).map Prod.fst) s = .ok t ∧
    t.segments.Sound ∧ t.list = batches.foldl (fun s vs => (s.add vs).1) s.list := by
  induction batches generalizing s with
  | nil => exact ⟨s, rfl, h, rfl⟩
  | cons vs batches ih =>
    obtain ⟨r, hadd, hr, hlist⟩ := add_eq h vs
    obtain ⟨t, hadds, ht, hlast⟩ := ih hr
    refine ⟨t, ?_, ht, by rw [hlast, hlist, List.foldl_cons]⟩
    rw [List.foldlM_cons, hadd]
    exact hadds

end Refinement

theorem newStream_eq {segmentSize capacity : Nat} {s : RingStream V} (h : newStream segmentSize capacity = .ok s) :
    s.segments.Sound ∧ Stream.newStream segmentSize capacity = .ok s.list := by
  unfold newStream Stream.newStream at *
  split at h
  · cases h
  rename_i hsize
  split at h
  · cases h
  · rename_i hroom
    cases h
    exact ⟨Queue.new_sound, by rw [if_neg hsize, if_neg hroom]; rfl⟩

end RingStream

end PosChain.Rpc
