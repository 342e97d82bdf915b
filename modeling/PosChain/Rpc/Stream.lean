import PosChain.Base.Action

namespace PosChain.Rpc

-- A stream of items in segments of one size. The oldest segments are pruned. The ring of
-- the segments is a list here, and an offset is the number of items up to an item.
structure Stream (V : Type) where
  segments : List (List V)
  segmentSize : Nat
  maxSegments : Nat
  segmentOffset : Nat

namespace Stream

variable {V : Type}

def newStream (segmentSize capacity : Nat) : Check (Stream V) :=
  if segmentSize = 0 then .error (.panic "runtime error: integer divide by zero")
  else if (capacity + segmentSize - 1) / segmentSize < 1 then .error (.panic "capacity is too small")
  else .ok ⟨[], segmentSize, (capacity + segmentSize - 1) / segmentSize, 0⟩

section Operations

variable (s : Stream V)

def tail : List V :=
  s.segments.getLast?.getD []

-- A full tail is followed by a new segment, or by the oldest one emptied.
def makeRoom : Stream V :=
  if s.segments.length = 0 ∨ s.tail.length = s.segmentSize then
    if s.maxSegments < s.segments.length then
      { s with segments := s.segments.tail ++ [[]], segmentOffset := s.segmentOffset + 1 }
    else { s with segments := s.segments ++ [[]] }
  else s

def append (v : V) : Stream V :=
  { s with segments := s.segments.dropLast ++ [s.tail ++ [v]] }

def lastID : Nat :=
  if s.segments.length = 0 then 0
  else (s.segmentOffset + s.segments.length - 1) * s.segmentSize + s.tail.length

def add (vs : List V) : Stream V × Nat :=
  if vs.length = 0 then (s, 0)
  else
    let s := vs.foldl (fun s v => s.makeRoom.append v) s
    (s, s.lastID)

-- The place of an offset among the segments. One that is pruned is read from the
-- oldest segment, at the remainder that the offset has in its own.
def place (offset : Nat) : Nat :=
  if s.segmentOffset ≤ offset / s.segmentSize then offset / s.segmentSize - s.segmentOffset else 0

def doRead (offset : Int) : Check (List V × Int) :=
  if s.segments.length = 0 then .ok ([], s.lastID)
  else if offset < 0 then .ok ([], s.lastID)
  else
    match s.segments[s.place offset.toNat]? with
    | none => .ok ([], s.lastID)
    | some seg =>
      if seg.length < offset.toNat % s.segmentSize then
        .error (.panic "runtime error: slice bounds out of range")
      else if (seg.drop (offset.toNat % s.segmentSize)).length = 0 then .ok ([], s.lastID)
      else .ok (seg.drop (offset.toNat % s.segmentSize),
        ((s.segmentOffset + s.place offset.toNat) * s.segmentSize + seg.length : Nat))

-- The rounds of the loop are bounded by the fuel.
def readAll : Nat → Int → Check (Option (List V × Int))
  | 0, _ => .ok none
  | fuel + 1, offset =>
    match s.doRead offset with
    | .error e => .error e
    | .ok (items, next) =>
      if items.length = 0 then .ok (some ([], next))
      else (readAll fuel next).map (Option.map fun rest => (items ++ rest.1, rest.2))

def removed : Nat :=
  s.segmentOffset * s.segmentSize

end Operations

def chunkAt (size : Nat) (all : List V) (k : Nat) : Option (List V) :=
  if k * size < all.length then some ((all.drop (k * size)).take size) else none

-- The segments are those of everything that was added, from the first that is not
-- pruned on. Nothing is pruned while there is room.
structure Holds (s : Stream V) (all : List V) : Prop where
  positive : 0 < s.segmentSize
  segments : ∀ j, s.segments[j]? = chunkAt s.segmentSize all (s.segmentOffset + j)
  bounded : s.segments.length ≤ s.maxSegments + 1
  kept : 0 < s.segmentOffset → s.segments.length = s.maxSegments + 1

section Writing

variable {s : Stream V} {all : List V} {size k : Nat}

theorem chunkAt_full (h : (k + 1) * size ≤ all.length) (hsize : 0 < size) (v : V) :
    chunkAt size (all ++ [v]) k = chunkAt size all k := by
  rw [Nat.succ_mul] at h
  rw [chunkAt, chunkAt, if_pos (by simp; omega), if_pos (by omega), List.drop_append_of_le_length (by omega),
    List.take_append_of_le_length (by simp; omega)]

theorem chunkAt_last (hlow : k * size ≤ all.length) (hhigh : all.length < (k + 1) * size) (v : V) :
    chunkAt size (all ++ [v]) k = some (all.drop (k * size) ++ [v]) := by
  rw [Nat.succ_mul] at hhigh
  rw [chunkAt, if_pos (by simp; omega), List.drop_append_of_le_length hlow,
    List.take_of_length_le (by simp; omega)]

theorem chunkAt_none (h : all.length < k * size) (v : V) : chunkAt size (all ++ [v]) k = none := by
  rw [chunkAt, if_neg (by simp; omega)]

theorem newStream_holds {segmentSize capacity : Nat} (h : newStream segmentSize capacity = .ok s) :
    Holds s [] ∧ capacity ≤ s.maxSegments * s.segmentSize := by
  unfold newStream at h
  split at h
  · cases h
  · rename_i hsize
    split at h
    · cases h
    · cases h
      refine ⟨⟨Nat.pos_of_ne_zero hsize, fun j => by simp [chunkAt], Nat.zero_le _, by simp⟩, ?_⟩
      have hd := Nat.div_add_mod (capacity + segmentSize - 1) segmentSize
      have hm := Nat.mod_lt (capacity + segmentSize - 1) (Nat.pos_of_ne_zero hsize)
      rw [Nat.mul_comm] at hd
      change capacity ≤ (capacity + segmentSize - 1) / segmentSize * segmentSize
      omega

theorem Holds.end_le (h : Holds s all) : all.length ≤ (s.segmentOffset + s.segments.length) * s.segmentSize := by
  have hnone := h.segments s.segments.length
  rw [List.getElem?_eq_none le_rfl, chunkAt] at hnone
  split at hnone
  · cases hnone
  · omega

theorem Holds.start_lt (h : Holds s all) (hne : s.segments.length ≠ 0) :
    (s.segmentOffset + (s.segments.length - 1)) * s.segmentSize < all.length ∧
      s.tail = all.drop ((s.segmentOffset + (s.segments.length - 1)) * s.segmentSize) := by
  have hend := h.end_le
  have hlast := h.segments (s.segments.length - 1)
  rw [← List.getLast?_eq_getElem?, chunkAt] at hlast
  split at hlast
  · rename_i hlt
    refine ⟨hlt, ?_⟩
    rw [tail, hlast, Option.getD_some, List.take_of_length_le]
    rw [show s.segmentOffset + s.segments.length = s.segmentOffset + (s.segments.length - 1) + 1 by omega,
      Nat.succ_mul] at hend
    simp only [List.length_drop]
    omega
  · rw [List.getLast?_eq_none_iff] at hlast
    simp [hlast] at hne

theorem Holds.empty (h : Holds s all) (hnone : s.segments.length = 0) : s.segmentOffset = 0 ∧ all = [] := by
  have hoff : s.segmentOffset = 0 := by
    by_contra hpos
    have := h.kept (by omega)
    omega
  have hend := h.end_le
  rw [hoff, hnone, Nat.zero_add, Nat.zero_mul] at hend
  exact ⟨hoff, List.eq_nil_of_length_eq_zero (by omega)⟩

theorem Holds.lastID (h : Holds s all) : s.lastID = all.length := by
  unfold Stream.lastID
  split
  · rename_i hnone
    rw [(h.empty hnone).2]
    rfl
  · rename_i hne
    obtain ⟨hlt, htail⟩ := h.start_lt hne
    rw [htail, List.length_drop, show s.segmentOffset + s.segments.length - 1 =
      s.segmentOffset + (s.segments.length - 1) by omega]
    omega

theorem flatten_eq_drop {segs : List (List V)} {first : Nat}
    (hsegs : ∀ j, segs[j]? = chunkAt size all (first + j)) : segs.flatten = all.drop (first * size) := by
  induction segs generalizing first with
  | nil =>
    have hnone := hsegs 0
    rw [List.getElem?_nil, chunkAt] at hnone
    split at hnone
    · cases hnone
    · rw [List.flatten_nil, List.drop_of_length_le (by rw [Nat.add_zero] at *; omega)]
  | cons seg rest ih =>
    have hseg := hsegs 0
    rw [List.getElem?_cons_zero, chunkAt] at hseg
    split at hseg
    · cases hseg
      have hrest : rest.flatten = all.drop ((first + 1) * size) := ih fun j => by
        rw [← List.getElem?_cons_succ, hsegs]
        congr 1
        omega
      rw [List.flatten_cons, hrest, Nat.succ_mul, ← List.drop_drop]
      exact List.take_append_drop _ _
    · cases hseg

theorem Holds.flatten (h : Holds s all) : s.segments.flatten = all.drop s.removed :=
  flatten_eq_drop h.segments

theorem Holds.append (h : Holds s all) (hne : s.segments.length ≠ 0)
    (hroom : all.length < (s.segmentOffset + s.segments.length) * s.segmentSize) (v : V) :
    Holds (s.append v) (all ++ [v]) := by
  obtain ⟨hlt, htail⟩ := h.start_lt hne
  have hlength : (s.append v).segments.length = s.segments.length := by simp [Stream.append]; omega
  refine ⟨h.positive, fun j => ?_, hlength ▸ h.bounded, fun hpos => hlength ▸ h.kept hpos⟩
  change (s.segments.dropLast ++ [s.tail ++ [v]])[j]? = chunkAt s.segmentSize (all ++ [v]) (s.segmentOffset + j)
  rcases Nat.lt_trichotomy j (s.segments.length - 1) with hj | hj | hj
  · rw [List.getElem?_append_left (by simpa using hj), List.getElem?_dropLast, if_pos hj, h.segments,
      chunkAt_full _ h.positive]
    calc (s.segmentOffset + j + 1) * s.segmentSize
        ≤ (s.segmentOffset + (s.segments.length - 1)) * s.segmentSize := Nat.mul_le_mul_right _ (by omega)
      _ ≤ all.length := hlt.le
  · subst hj
    rw [List.getElem?_append_right (by simp), chunkAt_last hlt.le (by
      rwa [show s.segmentOffset + (s.segments.length - 1) + 1 = s.segmentOffset + s.segments.length by omega]),
      htail]
    simp
  · rw [List.getElem?_eq_none (by simp; omega), chunkAt_none]
    calc all.length < (s.segmentOffset + s.segments.length) * s.segmentSize := hroom
      _ ≤ (s.segmentOffset + j) * s.segmentSize := Nat.mul_le_mul_right _ (by omega)

theorem getElem?_grow {base : List (List V)} {first : Nat} (hsize : 0 < size)
    (hbase : ∀ j, base[j]? = chunkAt size all (first + j)) (hfull : all.length = (first + base.length) * size)
    (v : V) (j : Nat) : (base ++ [[v]])[j]? = chunkAt size (all ++ [v]) (first + j) := by
  rcases Nat.lt_trichotomy j base.length with hj | hj | hj
  · rw [List.getElem?_append_left hj, hbase, chunkAt_full _ hsize]
    rw [hfull]
    exact Nat.mul_le_mul_right _ (by omega)
  · subst hj
    rw [List.getElem?_concat_length, chunkAt_last hfull.ge (by rw [Nat.succ_mul]; omega), ← hfull,
      List.drop_length]
    rfl
  · rw [List.getElem?_eq_none (by simp; omega), chunkAt_none]
    calc all.length < (first + base.length + 1) * size := by rw [Nat.succ_mul]; omega
      _ ≤ (first + j) * size := Nat.mul_le_mul_right _ (by omega)

theorem push_const (s : Stream V) (v : V) : (s.makeRoom.append v).segmentSize = s.segmentSize ∧
    (s.makeRoom.append v).maxSegments = s.maxSegments := by
  unfold makeRoom
  split
  · split <;> exact ⟨rfl, rfl⟩
  · exact ⟨rfl, rfl⟩

theorem Holds.push (h : Holds s all) (v : V) : Holds (s.makeRoom.append v) (all ++ [v]) := by
  have hend := h.end_le
  have hbounded := h.bounded
  have hconst := push_const s v
  by_cases hroom : s.segments.length = 0 ∨ s.tail.length = s.segmentSize
  · have hfull : all.length = (s.segmentOffset + s.segments.length) * s.segmentSize := by
      by_cases hne : s.segments.length = 0
      · obtain ⟨hoff, hall⟩ := h.empty hne
        simp [hoff, hall, hne]
      · obtain ⟨hlt, htail⟩ := h.start_lt hne
        have hl : s.tail.length = s.segmentSize := hroom.resolve_left hne
        rw [htail, List.length_drop] at hl
        rw [show s.segmentOffset + s.segments.length = s.segmentOffset + (s.segments.length - 1) + 1 by omega,
          Nat.succ_mul]
        omega
    by_cases hover : s.maxSegments < s.segments.length
    · have hmake : (s.makeRoom.append v).segments = s.segments.tail ++ [[v]] ∧
          (s.makeRoom.append v).segmentOffset = s.segmentOffset + 1 := by
        rw [makeRoom, if_pos hroom, if_pos hover]
        simp [Stream.append, Stream.tail]
      refine ⟨hconst.1 ▸ h.positive, fun j => ?_, ?_, fun _ => ?_⟩
      · rw [hmake.1, hmake.2, hconst.1]
        refine getElem?_grow h.positive (fun j => ?_) ?_ v j
        · rw [List.getElem?_tail, h.segments]
          congr 1
          omega
        · rw [hfull, List.length_tail]
          congr 1
          omega
      · rw [hmake.1, hconst.2]
        simp
        omega
      · rw [hmake.1, hconst.2]
        simp
        omega
    · have hmake : (s.makeRoom.append v).segments = s.segments ++ [[v]] ∧
          (s.makeRoom.append v).segmentOffset = s.segmentOffset := by
        rw [makeRoom, if_pos hroom, if_neg hover]
        simp [Stream.append, Stream.tail]
      refine ⟨hconst.1 ▸ h.positive, fun j => ?_, ?_, fun hpos => ?_⟩
      · rw [hmake.1, hmake.2, hconst.1]
        exact getElem?_grow h.positive h.segments hfull v j
      · rw [hmake.1, hconst.2]
        simp
        omega
      · rw [hmake.2] at hpos
        have hkept := h.kept hpos
        omega
  · have hmake : s.makeRoom = s := by rw [makeRoom, if_neg hroom]
    rw [not_or] at hroom
    obtain ⟨hlt, htail⟩ := h.start_lt hroom.1
    have hl := hroom.2
    rw [htail, List.length_drop] at hl
    rw [hmake]
    refine h.append hroom.1 ?_ v
    rw [show s.segmentOffset + s.segments.length = s.segmentOffset + (s.segments.length - 1) + 1 by omega,
      Nat.succ_mul] at hend ⊢
    omega

theorem Holds.add (h : Holds s all) (vs : List V) :
    Holds (s.add vs).1 (all ++ vs) ∧ (s.add vs).1.segmentSize = s.segmentSize ∧
      (s.add vs).1.maxSegments = s.maxSegments := by
  have hfold : Holds (vs.foldl (fun s v => s.makeRoom.append v) s) (all ++ vs) ∧
      (vs.foldl (fun s v => s.makeRoom.append v) s).segmentSize = s.segmentSize ∧
      (vs.foldl (fun s v => s.makeRoom.append v) s).maxSegments = s.maxSegments := by
    induction vs generalizing s all with
    | nil => simpa using h
    | cons v rest ih =>
      obtain ⟨hnext, hsize, hmax⟩ := ih (h.push v)
      rw [List.append_assoc, List.singleton_append] at hnext
      exact ⟨hnext, hsize.trans (push_const s v).1, hmax.trans (push_const s v).2⟩
  unfold Stream.add
  split
  · rename_i hnil
    obtain rfl := List.eq_nil_of_length_eq_zero hnil
    exact hfold
  · exact hfold

end Writing

section Reading

variable {s : Stream V} {all : List V}

-- The number of items before the first one that is read for an offset, and before the
-- end of its segment.
def begin (s : Stream V) (offset : Nat) : Nat :=
  (s.segmentOffset + s.place offset) * s.segmentSize + offset % s.segmentSize

def stop (s : Stream V) (all : List V) (offset : Nat) : Nat :=
  if s.begin offset < all.length then
    min all.length ((s.segmentOffset + s.place offset + 1) * s.segmentSize)
  else all.length

theorem Holds.doRead (h : Holds s all) {offset : Nat} (hbegin : s.begin offset ≤ all.length) :
    s.doRead offset = .ok ((all.drop (s.begin offset)).take (s.stop all offset - s.begin offset),
      (s.stop all offset : Int)) := by
  have hmod := Nat.mod_lt offset h.positive
  have hseg := h.segments (s.place offset)
  unfold Stream.doRead stop
  by_cases hnone : s.segments.length = 0
  · obtain ⟨hoff, hall⟩ := h.empty hnone
    rw [if_pos hnone, h.lastID, hall]
    simp
  · rw [if_neg hnone, if_neg (by omega), Int.toNat_natCast, hseg]
    by_cases hlt : s.begin offset < all.length
    · have hin : (s.segmentOffset + s.place offset) * s.segmentSize < all.length := by
        unfold begin at hlt
        omega
      rw [chunkAt, if_pos hin, if_pos hlt]
      unfold begin at hlt ⊢
      rw [Nat.succ_mul]
      generalize (s.segmentOffset + s.place offset) * s.segmentSize = first at *
      dsimp only
      rw [if_neg (by simp only [List.length_drop, List.length_take]; omega),
        if_neg (by simp only [List.length_drop, List.length_take]; omega)]
      simp only [List.drop_take, List.drop_drop, List.length_take, List.length_drop, Except.ok.injEq,
        Prod.mk.injEq]
      constructor
      · by_cases hfull : first + s.segmentSize ≤ all.length
        · rw [Nat.min_eq_right hfull]
          congr 1
          omega
        · rw [Nat.min_eq_left (by omega), List.take_of_length_le (by simp; omega),
            List.take_of_length_le (by simp)]
      · omega
    · rw [if_neg hlt, h.lastID]
      unfold begin at hlt hbegin ⊢
      by_cases hin : (s.segmentOffset + s.place offset) * s.segmentSize < all.length
      · rw [chunkAt, if_pos hin]
        dsimp only
        rw [if_neg (by simp only [List.length_drop, List.length_take]; omega),
          if_pos (by simp only [List.length_drop, List.length_take]; omega)]
        simp
        omega
      · rw [chunkAt, if_neg hin]
        simp
        omega

theorem Holds.removed_add (h : Holds s all) (hpos : 0 < s.segmentOffset) :
    s.removed + s.maxSegments * s.segmentSize < all.length := by
  have hkept := h.kept hpos
  have hlt := (h.start_lt (by omega)).1
  rw [show s.segmentOffset + (s.segments.length - 1) = s.segmentOffset + s.maxSegments by omega,
    Nat.add_mul] at hlt
  exact hlt

theorem Holds.removed_le (h : Holds s all) : s.removed ≤ all.length := by
  by_cases hpos : 0 < s.segmentOffset
  · have hlt := h.removed_add hpos
    omega
  · rw [removed, Nat.eq_zero_of_not_pos hpos, Nat.zero_mul]
    exact Nat.zero_le _

-- An offset that is not pruned is read from where it is, and one that is from the
-- oldest item if it was at the end of a segment.
theorem Holds.begin_eq (h : Holds s all) {offset : Nat}
    (hmeets : s.removed ≤ offset ∨ offset % s.segmentSize = 0) : s.begin offset = max offset s.removed := by
  have hd := Nat.div_add_mod offset s.segmentSize
  rw [Nat.mul_comm] at hd
  unfold begin place
  split
  · rename_i hle
    have hr : s.removed ≤ offset := by
      calc s.removed ≤ offset / s.segmentSize * s.segmentSize := Nat.mul_le_mul_right _ hle
        _ ≤ offset := by omega
    rw [Nat.add_sub_cancel' hle, hd, Nat.max_eq_left hr]
  · rename_i hlt
    have hr : offset < s.removed := (Nat.div_lt_iff_lt_mul h.positive).mp (by omega)
    rw [hmeets.resolve_left (by omega), Nat.max_eq_right hr.le, removed]
    rfl

theorem Holds.stop_bounds (h : Holds s all) {offset : Nat} (hbegin : s.begin offset ≤ all.length) :
    s.begin offset ≤ s.stop all offset ∧ s.stop all offset ≤ all.length := by
  have hmod := Nat.mod_lt offset h.positive
  unfold stop
  split
  · refine ⟨?_, Nat.min_le_left _ _⟩
    unfold begin at hbegin ⊢
    rw [Nat.succ_mul]
    omega
  · exact ⟨hbegin, le_rfl⟩

theorem place_of_le {offset : Nat} (hsize : 0 < s.segmentSize) (h : s.removed ≤ offset) :
    s.segmentOffset + s.place offset = offset / s.segmentSize := by
  have hle : s.segmentOffset ≤ offset / s.segmentSize := (Nat.le_div_iff_mul_le hsize).mpr h
  rw [place, if_pos hle]
  omega

section

variable (h : Holds s all)

include h

theorem Holds.begin_of_le {offset : Nat} (hlow : s.removed ≤ offset) :
    s.begin offset = offset := by
  rw [h.begin_eq (.inl hlow), Nat.max_eq_left hlow]

theorem Holds.stop_of_lt {offset : Nat} (hlow : s.removed ≤ offset) (hlt : offset < all.length) :
    s.stop all offset = min all.length ((offset / s.segmentSize + 1) * s.segmentSize) := by
  rw [stop, h.begin_of_le hlow, if_pos hlt, place_of_le h.positive hlow]

theorem Holds.readAll_end (n : Nat) :
    s.readAll (n + 1) (all.length : Nat) = .ok (some ([], (all.length : Int))) := by
  have hread := h.doRead (h.begin_of_le h.removed_le).le
  rw [stop, h.begin_of_le h.removed_le, if_neg (lt_irrefl _)] at hread
  rw [readAll, hread]
  simp

theorem Holds.readAll_from (n : Nat) {offset : Nat} (hlow : s.removed ≤ offset) (hle : offset ≤ all.length)
    (hrounds : offset = all.length ∨ all.length ≤ (offset / s.segmentSize + n) * s.segmentSize) :
    s.readAll (n + 1) offset = .ok (some (all.drop offset, (all.length : Int))) := by
  induction n generalizing offset with
  | zero =>
    have hend : offset = all.length := by
      have hd := Nat.div_mul_le_self offset s.segmentSize
      rw [Nat.add_zero] at hrounds
      omega
    rw [hend, h.readAll_end, List.drop_length]
  | succ n ih =>
    by_cases hend : offset = all.length
    · rw [hend, h.readAll_end, List.drop_length]
    · have hmod := Nat.lt_div_mul_add h.positive (a := offset)
      have hstop := h.stop_of_lt hlow (by omega)
      have hread := h.doRead ((h.begin_of_le hlow).trans_le hle)
      rw [h.begin_of_le hlow] at hread
      rw [Nat.succ_mul] at hstop
      have hnext : s.readAll (n + 1) (s.stop all offset) =
          .ok (some (all.drop (s.stop all offset), (all.length : Int))) := by
        refine ih (by omega) (by omega) ?_
        by_cases hlast : s.stop all offset = all.length
        · exact .inl hlast
        · have haligned : s.stop all offset = (offset / s.segmentSize + 1) * s.segmentSize := by
            rw [Nat.succ_mul]
            omega
          refine .inr ?_
          rw [haligned, Nat.mul_div_cancel _ h.positive]
          rw [show offset / s.segmentSize + 1 + n = offset / s.segmentSize + (n + 1) by omega]
          exact hrounds.resolve_left hend
      rw [readAll, hread]
      dsimp only
      rw [if_neg (by simp; omega), hnext]
      refine congrArg (fun items => Except.ok (some (items, _))) ?_
      rw [show all.drop (s.stop all offset) = (all.drop offset).drop (s.stop all offset - offset) by
        rw [List.drop_drop]; congr 1; omega]
      exact List.take_append_drop _ _

theorem Holds.doRead_pruned {offset : Nat} (hlt : offset < s.removed)
    (hmod : offset % s.segmentSize = 0) : s.doRead offset = s.doRead s.removed := by
  have hbegin : s.begin offset = s.begin s.removed := by
    rw [h.begin_eq (.inr hmod), h.begin_of_le le_rfl, Nat.max_eq_right hlt.le]
  have hplace : s.place offset = s.place s.removed := by
    have hdiv : offset / s.segmentSize < s.segmentOffset := Nat.div_lt_of_lt_mul (by rwa [Nat.mul_comm])
    rw [place, if_neg (by omega), place, removed, Nat.mul_div_cancel _ h.positive, if_pos le_rfl, Nat.sub_self]
  have hle := (h.begin_of_le le_rfl).trans_le h.removed_le
  rw [h.doRead (hbegin.trans_le hle), h.doRead hle, stop, stop, hbegin, hplace]

theorem Holds.readAll {offset : Nat} (hle : offset ≤ all.length)
    (hmeets : s.removed ≤ offset ∨ offset % s.segmentSize = 0) :
    s.readAll (s.segments.length + 1) offset =
      .ok (some (all.drop (max offset s.removed), (all.length : Int))) := by
  have hend := h.end_le
  have hfrom {o : Nat} (hlow : s.removed ≤ o) (ho : o ≤ all.length) :
      s.readAll (s.segments.length + 1) o = .ok (some (all.drop o, (all.length : Int))) := by
    refine h.readAll_from _ hlow ho (.inr (hend.trans (Nat.mul_le_mul_right _ ?_)))
    exact Nat.add_le_add_right ((Nat.le_div_iff_mul_le h.positive).mpr hlow) _
  by_cases hlow : s.removed ≤ offset
  · rw [hfrom hlow hle, Nat.max_eq_left hlow]
  · have hsame : s.readAll (s.segments.length + 1) offset = s.readAll (s.segments.length + 1) s.removed := by
      rw [Stream.readAll, Stream.readAll, h.doRead_pruned (by omega) (hmeets.resolve_left hlow)]
    rw [hsame, hfrom le_rfl h.removed_le, Nat.max_eq_right (by omega)]

theorem Holds.doRead_negative {offset : Int} (hneg : offset < 0) :
    s.doRead offset = .ok ([], (all.length : Int)) := by
  rw [Stream.doRead, h.lastID, if_pos hneg, ite_self]

theorem Holds.readAll_negative {offset : Int} (hneg : offset < 0) :
    s.readAll (s.segments.length + 1) offset = .ok (some ([], (all.length : Int))) := by
  rw [Stream.readAll, h.doRead_negative hneg]
  exact if_pos List.length_nil

end

end Reading

-- What a read at an offset found: how many items were pruned, and where it ended.
structure Chunk where
  asked : Nat
  removed : Nat
  stop : Nat

def Chunk.ids (c : Chunk) : List Nat :=
  List.range' (max c.asked c.removed) (c.stop - max c.asked c.removed)

-- A stream with all that was added to it and a reader that passes back the offset it
-- was given. ReadBlocking is as many reads as it is woken for.
structure Session (V : Type) where
  stream : Stream V
  all : List V
  offset : Int
  received : List V
  chunks : List Chunk

inductive Event (V : Type) where
  | add (vs : List V)
  | read
  | readAll

namespace Session

section Run

variable (s : Session V)

def take (answer : List V × Int) : Session V :=
  { s with
    offset := answer.2
    received := s.received ++ answer.1
    chunks := if s.offset < 0 then s.chunks
      else s.chunks ++ [⟨s.offset.toNat, s.stream.removed, answer.2.toNat⟩] }

def step : Event V → Session V
  | .add vs => { s with stream := (s.stream.add vs).1, all := s.all ++ vs }
  | .read =>
    match s.stream.doRead s.offset with
    | .ok answer => s.take answer
    | .error _ => s
  | .readAll =>
    match s.stream.readAll (s.stream.segments.length + 1) s.offset with
    | .ok (some answer) => s.take answer
    | _ => s

-- The reader's offset is not pruned, or stands at the end of a segment.
def Meets : Event V → Prop
  | .add _ => True
  | _ => s.offset < 0 ∨ s.stream.removed ≤ s.offset.toNat ∨ s.offset.toNat % s.stream.segmentSize = 0

end Run

def start (stream : Stream V) (offset : Int) : Session V :=
  ⟨stream, [], offset, [], []⟩

def run (stream : Stream V) (offset : Int) (events : List (Event V)) : Session V :=
  events.foldl step (start stream offset)

def AllMeet : Session V → List (Event V) → Prop
  | _, [] => True
  | s, e :: rest => s.Meets e ∧ AllMeet (s.step e) rest

def ids (s : Session V) : List Nat :=
  s.chunks.flatMap Chunk.ids

structure Sound (capacity : Nat) (s : Session V) : Prop where
  holds : s.stream.Holds s.all
  room : capacity ≤ s.stream.maxSegments * s.stream.segmentSize
  unread : s.offset < 0 → s.chunks = []
  offset_le : s.offset ≤ s.all.length
  received : s.received.map some = s.ids.map fun i => s.all[i]?
  ordered : s.ids.Pairwise (· < ·)
  below : ∀ i ∈ s.ids, (i : Int) < s.offset
  skipped : ∀ first ∈ s.chunks.head?, ∀ i : Nat, first.asked ≤ i → (i : Int) < s.offset →
    i ∈ s.ids ∨ ∃ c ∈ s.chunks, c.asked ≤ i ∧ i < c.removed

variable {s : Session V} {capacity : Nat}

theorem start_sound {stream : Stream V} (h : stream.Holds [])
    (hroom : capacity ≤ stream.maxSegments * stream.segmentSize) {offset : Int} (hneg : offset < 0) :
    (start stream offset).Sound capacity := by
  refine ⟨h, hroom, fun _ => rfl, ?_, rfl, List.Pairwise.nil, by simp [start, ids], by simp [start]⟩
  simp only [start, List.length_nil]
  omega

theorem Sound.add (h : s.Sound capacity) (vs : List V) : (s.step (.add vs)).Sound capacity := by
  obtain ⟨hholds, hsize, hmax⟩ := h.holds.add vs
  refine ⟨hholds, by rw [step, hsize, hmax]; exact h.room, h.unread, ?_, ?_, h.ordered, h.below, h.skipped⟩
  · have hle := h.offset_le
    simp only [step, List.length_append]
    omega
  · refine h.received.trans (List.map_congr_left fun i hi => ?_)
    have hbelow := h.below i hi
    have hle := h.offset_le
    exact (List.getElem?_append_left (by omega)).symm

theorem map_getElem?_range' (all : List V) (first : Nat) {count : Nat} (h : first + count ≤ all.length) :
    ((all.drop first).take count).map some = (List.range' first count).map fun i => all[i]? := by
  induction count generalizing first with
  | zero => simp
  | succ n ih =>
    rw [List.drop_eq_getElem_cons (by omega), List.take_succ_cons, List.map_cons, List.range'_succ,
      List.map_cons, ih (first + 1) (by omega), List.getElem?_eq_getElem (by omega)]

section

variable (h : s.Sound capacity)

include h

theorem Sound.take {first stop : Nat} (hpos : 0 ≤ s.offset)
    (hfirst : first = max s.offset.toNat s.stream.removed) (hfrom : first ≤ stop) (hto : stop ≤ s.all.length) :
    (s.take ((s.all.drop first).take (stop - first), (stop : Int))).Sound capacity := by
  have hchunks : (s.take ((s.all.drop first).take (stop - first), (stop : Int))).chunks =
      s.chunks ++ [⟨s.offset.toNat, s.stream.removed, stop⟩] := if_neg (by omega)
  have hids : (s.take ((s.all.drop first).take (stop - first), (stop : Int))).ids =
      s.ids ++ List.range' first (stop - first) := by
    rw [ids, hchunks, hfirst, List.flatMap_append, List.flatMap_singleton]
    rfl
  refine ⟨h.holds, h.room, fun hneg => absurd hneg (Int.not_lt.mpr (Int.natCast_nonneg stop)),
    Int.ofNat_le.mpr hto, ?_, ?_, fun i hi => ?_, fun c hc i hi hlt => ?_⟩
  · rw [hids]
    change (s.received ++ (s.all.drop first).take (stop - first)).map some = _
    rw [List.map_append, List.map_append, h.received, map_getElem?_range' _ _ (by omega)]
    rfl
  · rw [hids, List.pairwise_append]
    refine ⟨h.ordered, List.pairwise_lt_range', fun i hi j hj => ?_⟩
    have hbelow := h.below i hi
    rw [List.mem_range'_1] at hj
    omega
  · rw [hids, List.mem_append, List.mem_range'_1] at hi
    change (i : Int) < stop
    rcases hi with hi | hi
    · have hlt := h.below i hi
      omega
    · omega
  · change (i : Int) < stop at hlt
    rw [hids, hchunks, List.mem_append, List.mem_range'_1]
    -- An item is before the offset, pruned since, or in this chunk.
    by_cases hold : (i : Int) < s.offset
    · have hhead : c ∈ s.chunks.head? := by
        rw [hchunks, List.head?_append] at hc
        cases hchunk : s.chunks.head? with
        | some d => simpa [hchunk] using hc
        | none =>
          simp only [hchunk, Option.none_or, List.head?_cons, Option.mem_some_iff] at hc
          subst hc
          change s.offset.toNat ≤ i at hi
          omega
      rcases h.skipped c hhead i hi hold with hmem | ⟨d, hd, hpruned⟩
      · exact .inl (.inl hmem)
      · exact .inr ⟨d, List.mem_append_left _ hd, hpruned⟩
    · by_cases hgone : i < s.stream.removed
      · have hasked : s.offset.toNat ≤ i := by omega
        exact .inr ⟨_, List.mem_append_right _ (List.mem_singleton.mpr rfl), hasked, hgone⟩
      · exact .inl (.inr (by omega))

theorem Sound.take_negative (hneg : s.offset < 0) :
    (s.take ([], (s.all.length : Int))).Sound capacity := by
  have hnone := h.unread hneg
  have hchunks : (s.take ([], (s.all.length : Int))).chunks = [] := (if_pos hneg).trans hnone
  have hids : (s.take ([], (s.all.length : Int))).ids = [] := by
    rw [ids, hchunks, List.flatMap_nil]
  have hreceived := h.received
  rw [ids, hnone, List.flatMap_nil, List.map_nil] at hreceived
  refine ⟨h.holds, h.room, fun _ => hchunks, le_rfl, ?_, by rw [hids]; exact List.Pairwise.nil,
    by rw [hids]; simp, by rw [hchunks]; simp⟩
  rw [hids, List.map_nil]
  exact (congrArg (List.map some) (List.append_nil _)).trans hreceived

theorem Sound.doRead (hmeets : s.Meets .read) :
    ∃ answer, s.stream.doRead s.offset = .ok answer ∧ (s.take answer).Sound capacity := by
  by_cases hneg : s.offset < 0
  · exact ⟨_, h.holds.doRead_negative hneg, h.take_negative hneg⟩
  · have hbegin := h.holds.begin_eq (hmeets.resolve_left hneg)
    have hle := h.offset_le
    have hremoved := h.holds.removed_le
    have hin : s.stream.begin s.offset.toNat ≤ s.all.length := by omega
    obtain ⟨hfrom, hto⟩ := h.holds.stop_bounds hin
    have hread := h.holds.doRead hin
    rw [Int.toNat_of_nonneg (by omega)] at hread
    exact ⟨_, hread, h.take (by omega) hbegin hfrom hto⟩

theorem Sound.readAll (hmeets : s.Meets .readAll) :
    ∃ answer, s.stream.readAll (s.stream.segments.length + 1) s.offset = .ok (some answer) ∧
      (s.take answer).Sound capacity := by
  by_cases hneg : s.offset < 0
  · exact ⟨_, h.holds.readAll_negative hneg, h.take_negative hneg⟩
  · have hle := h.offset_le
    have hremoved := h.holds.removed_le
    have hread := h.holds.readAll (show s.offset.toNat ≤ _ by omega) (hmeets.resolve_left hneg)
    rw [Int.toNat_of_nonneg (by omega)] at hread
    have htake := h.take (by omega) rfl (show _ ≤ s.all.length by omega) le_rfl
    rw [List.take_of_length_le (by simp)] at htake
    exact ⟨_, hread, htake⟩

theorem Sound.step (e : Event V) (hmeets : s.Meets e) : (s.step e).Sound capacity := by
  cases e with
  | add vs => exact h.add vs
  | read =>
    obtain ⟨answer, hread, htake⟩ := h.doRead hmeets
    rw [Session.step, hread]
    exact htake
  | readAll =>
    obtain ⟨answer, hread, htake⟩ := h.readAll hmeets
    rw [Session.step, hread]
    exact htake

theorem Sound.run (events : List (Event V)) (hmeets : AllMeet s events) :
    (events.foldl Session.step s).Sound capacity := by
  induction events generalizing s with
  | nil => exact h
  | cons e rest ih => exact ih (h.step e hmeets.1) hmeets.2

theorem Sound.readable {i : Nat} (hkept : s.all.length ≤ i + capacity) (hlt : i < s.all.length) :
    ∃ items next, s.stream.doRead i = .ok (items, next) ∧ items.head? = s.all[i]? := by
  have hlow : s.stream.removed ≤ i := by
    by_cases hpos : 0 < s.stream.segmentOffset
    · have hadd := h.holds.removed_add hpos
      have hroom := h.room
      omega
    · rw [removed, Nat.eq_zero_of_not_pos hpos, Nat.zero_mul]
      exact Nat.zero_le _
  have hmod := Nat.lt_div_mul_add h.holds.positive (a := i)
  have hstop := h.holds.stop_of_lt hlow hlt
  rw [Nat.succ_mul] at hstop
  have hbegin := h.holds.begin_of_le hlow
  refine ⟨_, _, h.holds.doRead (by omega), ?_⟩
  rw [hbegin, List.head?_take, if_neg (by omega), List.head?_drop]

end

-- In every run whose reads are at offsets that are not pruned or end a segment, the reader
-- gets items in order and at most once, and misses what was removed only.
theorem reader_misses_only_removed {segmentSize capacity : Nat} {stream : Stream V}
    (hnew : newStream segmentSize capacity = .ok stream) {offset : Int} (hneg : offset < 0)
    (events : List (Event V)) (hmeets : AllMeet (start stream offset) events) :
    (run stream offset events).stream.segments.flatten =
        (run stream offset events).all.drop (run stream offset events).stream.removed ∧
      (run stream offset events).received.map some =
        (run stream offset events).ids.map (fun i => (run stream offset events).all[i]?) ∧
      (run stream offset events).ids.Pairwise (· < ·) ∧
      (∀ first ∈ (run stream offset events).chunks.head?, ∀ i : Nat, first.asked ≤ i →
        (i : Int) < (run stream offset events).offset → i ∈ (run stream offset events).ids ∨
          ∃ c ∈ (run stream offset events).chunks, c.asked ≤ i ∧ i < c.removed) ∧
      (∀ i, (run stream offset events).all.length ≤ i + capacity → i < (run stream offset events).all.length →
        ∃ items next, (run stream offset events).stream.doRead i = .ok (items, next) ∧
          items.head? = (run stream offset events).all[i]?) ∧
      ((run stream offset events).Meets .read →
        (∃ answer, (run stream offset events).stream.doRead (run stream offset events).offset = .ok answer) ∧
          ∃ answer, (run stream offset events).stream.readAll
            ((run stream offset events).stream.segments.length + 1) (run stream offset events).offset =
              .ok (some answer)) := by
  obtain ⟨hholds, hroom⟩ := newStream_holds hnew
  have h : (run stream offset events).Sound capacity := (start_sound hholds hroom hneg).run events hmeets
  exact ⟨h.holds.flatten, h.received, h.ordered, h.skipped, fun _ hkept hlt => h.readable hkept hlt,
    fun hmeets => ⟨(h.doRead hmeets).imp fun _ hr => hr.1, (h.readAll hmeets).imp fun _ hr => hr.1⟩⟩

theorem reader_removed_at_end : ∃ stream : Stream Nat, newStream 2 2 = .ok stream ∧
    (run stream (-1) [.add [1, 2], .read, .add [3, 4, 5, 6, 7], .read]).received = [5, 6] ∧
    (run stream (-1) [.add [1, 2], .read, .add [3, 4, 5, 6, 7], .read]).ids.Pairwise (· < ·) := by
  have hnew : newStream 2 2 = .ok (⟨[], 2, 1, 0⟩ : Stream Nat) := rfl
  refine ⟨_, hnew, by decide, (reader_misses_only_removed hnew (by decide) _ ?_).2.2.1⟩
  exact ⟨trivial, .inl (by decide), trivial, .inr (.inr rfl), trivial⟩

-- The reader is in the middle of a segment that is removed, and misses the item 3, which
-- the buffer holds.
theorem reader_misses_kept : ∃ stream : Stream Nat, newStream 2 2 = .ok stream ∧
    (run stream (-1) [.add [1], .read, .add [2, 3, 4, 5]]).offset = 1 ∧
    (run stream (-1) [.add [1], .read, .add [2, 3, 4, 5]]).stream.segments = [[3, 4], [5]] ∧
    (run stream (-1) [.add [1], .read, .add [2, 3, 4, 5], .read]).received = [4] ∧
    (run stream (-1) [.add [1], .read, .add [2, 3, 4, 5], .read]).offset = 4 :=
  ⟨_, rfl, by decide⟩

end Session

end Stream

end PosChain.Rpc
