import PosChain.Base.Separated
import PosChain.Bridge.Tables

namespace PosChain.Bridge

-- Identifiers join their fields with NUL characters. Which fields can hold one
-- themselves decides where an identifier can be taken apart.
section Fields

variable {Bank : Type} (env : Env Bank)

theorem toList_join (parts : List String) :
    (Text.join parts "\x00").toList = ['\x00'].intercalate (parts.map String.toList) :=
  String.toList_intercalate

theorem validRouteID_nul {routeID : String} (h : validRouteID env routeID = true) :
    '\x00' ∉ routeID.toList := by
  intro hmem
  simp only [validRouteID, Text.runes_eq_toList] at h
  split at h
  · cases h
  · have hnul := List.all_eq_true.mp h _ hmem
    revert hnul
    simp [Unicode.lower, Unicode.digit]

theorem decimal_nul {text : List Char} (h : BigInt.Decimal text) : '\x00' ∉ text := by
  intro hmem
  have hdigit := h _ hmem
  revert hdigit
  decide

theorem toString_nul (value : Nat) : '\x00' ∉ (toString value).toList := by
  rw [show (toString value).toList = Nat.toDigits 10 value from Nat.toList_repr]
  exact decimal_nul (BigInt.toDigits_decimal value)

theorem toString_injective : Function.Injective (fun value : Nat => toString value) := by
  intro value value' h
  have hread := BigInt.setString_repr value 10 (Or.inr rfl)
  have hread' := BigInt.setString_repr value' 10 (Or.inr rfl)
  rw [show Nat.repr value = Nat.repr value' from h, hread'] at hread
  exact_mod_cast (Option.some.inj hread).symm

theorem toString_toInt {value : Int} (h : 0 ≤ value) : toString value = toString value.toNat := by
  obtain ⟨n, rfl⟩ := Int.eq_ofNat_of_zero_le h
  rfl

theorem setString_nul {text : String} {value : Int} (h : BigInt.setString text 10 = some value) :
    '\x00' ∉ text.toList := by
  obtain ⟨n, hscan, -⟩ := (BigInt.setString_eq_some text 10 value).mp h
  obtain ⟨-, hdecimal, -⟩ := (BigInt.scanNat_ten _ n).mp hscan
  have hrest := decimal_nul hdecimal
  cases htext : text.toList with
  | nil => simp
  | cons c rest =>
    rw [htext, BigInt.unsigned] at hrest
    split at hrest
    case isTrue hsign =>
      rcases hsign with rfl | rfl <;> simpa using hrest
    case isFalse => exact hrest

theorem validHexReference_nul {reference : String} (h : validHexReference env reference = true) :
    '\x00' ∉ (normalizeHexReference env reference).toList := by
  simp only [validHexReference, Bytes.hexDecodable, Bool.and_eq_true] at h
  intro hmem
  have hbyte : (0 : UInt8) ∈ Bytes.utf8 (normalizeHexReference env reference) := by
    rw [Text.utf8_eq_flatMap, List.mem_flatMap]
    exact ⟨_, hmem, by decide⟩
  have hhex := List.all_eq_true.mp h.2.2 _ hbyte
  revert hhex
  decide

theorem len_toString (value : Nat) : Text.len (toString value) = (Nat.toDigits 10 value).length := by
  have hone : ∀ c ∈ Nat.toDigits 10 value, (String.utf8EncodeChar c).length = 1 := by
    intro c hc
    have hdigit := BigInt.toDigits_decimal value c hc
    simp only [Char.isDigit, ge_iff_le, Bool.and_eq_true, decide_eq_true_eq] at hdigit
    have hhi : c.toNat ≤ 57 := hdigit.2
    rw [String.length_utf8EncodeChar, Char.utf8Size_eq_one_iff, UInt32.le_iff_toNat_le]
    exact le_trans hhi (by decide)
  rw [← Text.length_utf8, Text.utf8_eq_flatMap, show (toString value).toList = Nat.toDigits 10 value from
    Nat.toList_repr, List.length_flatMap, List.map_congr_left hone]
  simp

theorem nonce_ne_reference {reference : String} (h : validHexReference env reference = true) (nonce : UInt64) :
    (toString nonce.toNat).toList ≠ (normalizeHexReference env reference).toList := by
  intro heq
  have htext : toString nonce.toNat = normalizeHexReference env reference := String.toList_inj.mp heq
  simp only [validHexReference, Bool.and_eq_true, beq_iff_eq] at h
  have hlength : (Nat.toDigits 10 nonce.toNat).length = 64 := by
    rw [← len_toString, htext, h.1]
  have hshort : (Nat.toDigits 10 nonce.toNat).length ≤ 20 := by
    apply (Nat.length_toDigits_le_iff (by omega) (by omega)).mpr
    exact lt_trans nonce.toNat_lt (by norm_num)
  omega

end Fields

section Attestations

variable {Bank : Type} (env : Env Bank)

structure Attestation.Agree (a b : Attestation) : Prop where
  routeID : a.routeID = b.routeID
  direction : a.direction = b.direction
  sourceChainID : a.sourceChainID = b.sourceChainID
  sourceRef : normalizeHexReference env a.sourceRef = normalizeHexReference env b.sourceRef
  nonce : a.nonce = b.nonce
  destination : Text.trimSpace a.destination = Text.trimSpace b.destination
  amount : a.amount = b.amount
  deadlineUnix : a.deadlineUnix = b.deadlineUnix

-- The source chain of the second attestation is named by a text that runs over
-- reference and nonce of the first one, whose destination holds reference and
-- nonce of the second one.
def Attestation.Runs (a b : Attestation) : Prop :=
  Separated.Shifted '\x00'
    a.sourceChainID.toList (normalizeHexReference env a.sourceRef).toList (toString a.nonce.toNat).toList
    (Text.trimSpace a.destination).toList
    b.sourceChainID.toList (normalizeHexReference env b.sourceRef).toList (toString b.nonce.toNat).toList
    (Text.trimSpace b.destination).toList

structure Attestation.Overlaps (a b : Attestation) : Prop where
  routeID : a.routeID = b.routeID
  direction : a.direction = b.direction
  amount : a.amount = b.amount
  deadlineUnix : a.deadlineUnix = b.deadlineUnix
  runs : a.Runs env b ∨ b.Runs env a

-- The four fields in the middle of an identifier, the first and last of which
-- are free texts.
def Attestation.middle (a : Attestation) : List Char :=
  Separated.framed '\x00' a.sourceChainID.toList (normalizeHexReference env a.sourceRef).toList
    (toString a.nonce.toNat).toList (Text.trimSpace a.destination).toList

theorem Attestation.toList_idText (a : Attestation) :
    (a.idText env).toList = a.routeID.toList ++ '\x00' :: (a.direction.toList ++ '\x00' ::
      ((a.middle env ++ '\x00' :: a.amount.toList) ++ '\x00' ::
        (toString a.deadlineUnix.toInt).toList)) := by
  rw [Attestation.idText, toList_join]
  simp [List.intercalate, Attestation.middle, Separated.framed]

-- What the validation says about the fields that never hold the separator.
structure Attestation.Fielded (a : Attestation) : Prop where
  routeID : validRouteID env a.routeID = true
  direction : a.direction = directionCronosToXitcoin ∨ a.direction = directionXitcoinToCronos
  sourceRef : validHexReference env a.sourceRef = true
  amount : ∃ value, BigInt.setString a.amount 10 = some value
  deadline : 0 ≤ a.deadlineUnix.toInt

variable {env} {a b : Attestation}

theorem Attestation.fielded (h : a.validate env = .ok ()) : a.Fielded env := by
  simp only [Attestation.validate, Check.bind_eq_ok, failIf_eq_ok, exists_const, Bool.not_eq_false',
    Bool.and_eq_false_iff, bne_eq_false_iff_eq, decide_eq_false_iff_not, Int64.not_le] at h
  obtain ⟨hroute, hdirection, -, href, -, -, hamount, hdeadline⟩ := h
  refine ⟨hroute, hdirection, href, ?_, (Int64.lt_iff_toInt_lt.mp hdeadline).le⟩
  simp only [positiveAmount] at hamount
  split at hamount
  case h_1 value heq => exact ⟨value, heq⟩
  case h_2 => cases hamount

theorem Attestation.Fielded.direction_nul (h : a.Fielded env) : '\x00' ∉ a.direction.toList := by
  rcases h.direction with hd | hd
  · rw [hd]
    decide
  · rw [hd]
    decide

theorem Attestation.Fielded.amount_nul (h : a.Fielded env) : '\x00' ∉ a.amount.toList := by
  obtain ⟨value, hvalue⟩ := h.amount
  exact setString_nul hvalue

theorem Attestation.Fielded.deadline_nul (h : a.Fielded env) :
    '\x00' ∉ (toString a.deadlineUnix.toInt).toList := by
  rw [toString_toInt h.deadline]
  exact toString_nul _

theorem Attestation.Fielded.deadline_eq (ha : a.Fielded env) (hb : b.Fielded env)
    (h : toString a.deadlineUnix.toInt = toString b.deadlineUnix.toInt) :
    a.deadlineUnix = b.deadlineUnix := by
  rw [toString_toInt ha.deadline, toString_toInt hb.deadline] at h
  have hnat := toString_injective h
  have ha' := ha.deadline
  have hb' := hb.deadline
  exact Int64.toInt_inj.mp (by omega)

theorem Attestation.Fielded.idText_eq_iff (ha : a.Fielded env) (hb : b.Fielded env) :
    a.idText env = b.idText env ↔ a.routeID = b.routeID ∧ a.direction = b.direction ∧
      a.middle env = b.middle env ∧ a.amount = b.amount ∧ a.deadlineUnix = b.deadlineUnix := by
  rw [← String.toList_inj, Attestation.toList_idText, Attestation.toList_idText]
  constructor
  · intro h
    obtain ⟨hroute, h⟩ := Separated.cut_first (validRouteID_nul env ha.routeID)
      (validRouteID_nul env hb.routeID) h
    obtain ⟨hdirection, h⟩ := Separated.cut_first ha.direction_nul hb.direction_nul h
    obtain ⟨h, hdeadline⟩ := Separated.cut_last ha.deadline_nul hb.deadline_nul h
    obtain ⟨hmiddle, hamount⟩ := Separated.cut_last ha.amount_nul hb.amount_nul h
    exact ⟨String.toList_inj.mp hroute, String.toList_inj.mp hdirection, hmiddle,
      String.toList_inj.mp hamount, ha.deadline_eq hb (String.toList_inj.mp hdeadline)⟩
  · rintro ⟨hroute, hdirection, hmiddle, hamount, hdeadline⟩
    rw [hroute, hdirection, hmiddle, hamount, hdeadline]

theorem Attestation.Fielded.middle_eq_iff (ha : a.Fielded env) (hb : b.Fielded env) :
    a.middle env = b.middle env ↔
      (a.sourceChainID = b.sourceChainID ∧
        normalizeHexReference env a.sourceRef = normalizeHexReference env b.sourceRef ∧
        a.nonce = b.nonce ∧ Text.trimSpace a.destination = Text.trimSpace b.destination) ∨
      a.Runs env b ∨ b.Runs env a := by
  have hnonce : toString a.nonce.toNat = toString b.nonce.toNat ↔ a.nonce = b.nonce := by
    constructor
    · intro h
      exact UInt64.toNat_inj.mp (toString_injective h)
    · intro h
      rw [h]
  rw [Attestation.middle, Attestation.middle, Separated.framed_eq_iff
    (validHexReference_nul env ha.sourceRef) (toString_nul _) (validHexReference_nul env hb.sourceRef)
    (toString_nul _) (nonce_ne_reference env hb.sourceRef _) (nonce_ne_reference env ha.sourceRef _),
    String.toList_inj, String.toList_inj, String.toList_inj, String.toList_inj, hnonce]
  rfl

-- The identifier binds every field of the valid attestations that do not overlap
-- another one; those that do share the hashed bytes with it.
theorem identifier_binds_iff (ha : a.validate env = .ok ()) (hb : b.validate env = .ok ()) :
    ((Bytes.utf8 (a.idText env) = Bytes.utf8 (b.idText env) → a.Agree env b) ↔ ¬ a.Overlaps env b) ∧
      (('\x00' ∉ a.sourceChainID.toList ∧ '\x00' ∉ b.sourceChainID.toList) ∨
        ('\x00' ∉ (Text.trimSpace a.destination).toList ∧
          '\x00' ∉ (Text.trimSpace b.destination).toList) → ¬ a.Overlaps env b) := by
  have hfa := Attestation.fielded ha
  have hfb := Attestation.fielded hb
  refine ⟨⟨?_, ?_⟩, ?_⟩
  · intro hbinds hoverlaps
    have htext : a.idText env = b.idText env := (hfa.idText_eq_iff hfb).mpr ⟨hoverlaps.routeID,
      hoverlaps.direction, (hfa.middle_eq_iff hfb).mpr (Or.inr hoverlaps.runs), hoverlaps.amount,
      hoverlaps.deadlineUnix⟩
    have hagree := hbinds (congrArg Bytes.utf8 htext)
    rcases hoverlaps.runs with hruns | hruns
    · exact hruns.front_ne (congrArg String.toList hagree.sourceChainID)
    · exact hruns.front_ne (congrArg String.toList hagree.sourceChainID.symm)
  · intro hno hbytes
    obtain ⟨hroute, hdirection, hmiddle, hamount, hdeadline⟩ :=
      (hfa.idText_eq_iff hfb).mp (Bytes.utf8_injective hbytes)
    rcases (hfa.middle_eq_iff hfb).mp hmiddle with ⟨hchain, href, hnonce, hdestination⟩ | hruns
    · exact ⟨hroute, hdirection, hchain, href, hnonce, hdestination, hamount, hdeadline⟩
    · exact absurd ⟨hroute, hdirection, hamount, hdeadline, hruns⟩ hno
  · intro hclean hoverlaps
    rcases hclean with ⟨hca, hcb⟩ | ⟨hda, hdb⟩
    · rcases hoverlaps.runs with hruns | hruns
      · exact hcb hruns.mem_front
      · exact hca hruns.mem_front
    · rcases hoverlaps.runs with hruns | hruns
      · exact hda hruns.mem_back
      · exact hdb hruns.mem_back

-- An attestation of a lock on chain 338, and two with the same identifier: what
-- is the destination of one names source chain, reference, nonce and
-- destination of the other.
def plainTables : Tables :=
  ⟨[], [], [], [], []⟩

def attested (sourceChainID sourceRef : String) (nonce : UInt64) (destination : String) : Attestation where
  routeID := "cronos-testnet"
  direction := "cronos_to_xitcoin"
  sourceChainID := sourceChainID
  sourceRef := sourceRef
  nonce := nonce
  destination := destination
  amount := "100"
  deadlineUnix := 1800000000

def firstRef : String :=
  "abababababababababababababababababababababababababababababababab"

def secondRef : String :=
  "cdcdcdcdcdcdcdcdcdcdcdcdcdcdcdcdcdcdcdcdcdcdcdcdcdcdcdcdcdcdcdcd"

theorem plain_identifier_binds :
    (attested "338" firstRef 1 sampleAccount).validate plainTables.env = .ok () ∧
      (Bytes.utf8 ((attested "338" firstRef 1 sampleAccount).idText plainTables.env) =
        Bytes.utf8 ((attested "338" firstRef 2 sampleAccount).idText plainTables.env) →
        (attested "338" firstRef 1 sampleAccount).Agree plainTables.env
          (attested "338" firstRef 2 sampleAccount)) := by
  have hfirst : (attested "338" firstRef 1 sampleAccount).validate plainTables.env = .ok () := by
    decide +kernel
  have hsecond : (attested "338" firstRef 2 sampleAccount).validate plainTables.env = .ok () := by
    decide +kernel
  obtain ⟨hiff, hclean⟩ := identifier_binds_iff hfirst hsecond
  exact ⟨hfirst, hiff.mpr (hclean (Or.inl ⟨by decide, by decide⟩))⟩

theorem destination_moves_into_chain :
    let a := attested "338" firstRef 1 ("x\x00" ++ secondRef ++ "\x0077\x00" ++ sampleAccount)
    let b := attested ("338\x00" ++ firstRef ++ "\x001\x00x") secondRef 77 sampleAccount
    a.validate plainTables.env = .ok () ∧ b.validate plainTables.env = .ok () ∧
      Bytes.utf8 (a.idText plainTables.env) = Bytes.utf8 (b.idText plainTables.env) ∧
      a.nonce ≠ b.nonce ∧ ¬ a.Agree plainTables.env b := by
  intro a b
  refine ⟨by decide +kernel, by decide +kernel, by decide +kernel, by decide, ?_⟩
  intro hagree
  exact absurd hagree.nonce (by decide)

end Attestations

end PosChain.Bridge
