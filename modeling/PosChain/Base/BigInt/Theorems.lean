import PosChain.Base.BigInt

namespace PosChain.BigInt

def Decimal (text : List Char) : Prop :=
  ∀ c ∈ text, c.isDigit = true

def Octal (text : List Char) : Prop :=
  ∀ c ∈ text, digitValue c < 8

theorem digitValue_of_isDigit (c : Char) (h : c.isDigit = true) :
    digitValue c = c.toNat - '0'.toNat ∧ digitValue c < 10 := by
  simp only [Char.isDigit, ge_iff_le, Bool.and_eq_true, decide_eq_true_eq] at h
  have hlo : 48 ≤ c.toNat := h.1
  have hhi : c.toNat ≤ 57 := h.2
  have hv : digitValue c = c.toNat - 48 := by simp [digitValue, hlo, hhi]
  exact ⟨hv, by omega⟩

theorem isDigit_of_digitValue (c : Char) (h : digitValue c < 10) : c.isDigit = true := by
  have hrange : 48 ≤ c.toNat ∧ c.toNat ≤ 57 := by
    by_contra hn
    simp only [digitValue, hn, ite_false] at h
    split_ifs at h <;> omega
  simp only [Char.isDigit, ge_iff_le, Bool.and_eq_true, decide_eq_true_eq]
  exact ⟨hrange.1, hrange.2⟩

theorem not_underscore_of_isDigit (c : Char) (h : c.isDigit = true) : c ≠ '_' := by
  rintro rfl
  revert h
  decide

theorem scanDigits_of_lt (base : Nat) (separators : Bool) (scan : Scan) (text : List Char)
    (hd : Decimal text) (hb : ∀ c ∈ text, digitValue c < base) :
    scanDigits base separators scan text = some
      { scan with
        value := Nat.ofDigitChars base text scan.value
        count := scan.count + text.length
        previous := if text = [] then scan.previous else .digit } := by
  induction text generalizing scan with
  | nil => simp [scanDigits]
  | cons c rest ih =>
    have hc := hd c (by simp)
    have hne := not_underscore_of_isDigit c hc
    have hlt := hb c (by simp)
    simp only [scanDigits, hne, false_and, ite_false, hlt, ite_true]
    rw [ih _ (fun d hm => hd d (by simp [hm])) (fun d hm => hb d (by simp [hm]))]
    simp only [Nat.ofDigitChars_cons, (digitValue_of_isDigit c hc).1, List.length_cons]
    congr 2
    · omega
    · simp

theorem scanDigits_lt (base : Nat) (hbase : base ≤ 10) (scan final : Scan) (text : List Char)
    (h : scanDigits base false scan text = some final) :
    Decimal text ∧ ∀ c ∈ text, digitValue c < base := by
  induction text generalizing scan with
  | nil => simp [Decimal]
  | cons c rest ih =>
    simp only [scanDigits, Bool.false_eq_true, and_false, ite_false] at h
    split_ifs at h with hc
    obtain ⟨hd, hb⟩ := ih _ h
    have hdigit := isDigit_of_digitValue c (by omega)
    exact ⟨List.forall_mem_cons.mpr ⟨hdigit, hd⟩, List.forall_mem_cons.mpr ⟨hc, hb⟩⟩

theorem scanDigits_none (base : Nat) (separators : Bool) (scan : Scan) (text : List Char)
    (hd : Decimal text) (hb : ¬ ∀ c ∈ text, digitValue c < base) :
    scanDigits base separators scan text = none := by
  induction text generalizing scan with
  | nil => simp at hb
  | cons c rest ih =>
    have hne := not_underscore_of_isDigit c (hd c (by simp))
    simp only [scanDigits, hne, false_and, ite_false]
    split_ifs with hc
    · apply ih _ (fun d hm => hd d (by simp [hm]))
      intro hrest
      exact hb (List.forall_mem_cons.mpr ⟨hc, hrest⟩)
    · rfl

theorem scanNat_ten (text : List Char) (value : Nat) :
    scanNat 10 text = some value ↔
      text ≠ [] ∧ Decimal text ∧ value = Nat.ofDigitChars 10 text 0 := by
  have hten (hd : Decimal text) : ∀ c ∈ text, digitValue c < 10 :=
    fun c hc => (digitValue_of_isDigit c (hd c hc)).2
  simp only [scanNat, Nat.reduceEqDiff, ite_false, Option.bind_eq_some_iff]
  constructor
  · rintro ⟨final, hscan, hfinish⟩
    obtain ⟨hd, hb⟩ := scanDigits_lt 10 (le_refl _) start final text hscan
    rw [scanDigits_of_lt 10 false start text hd hb, Option.some.injEq] at hscan
    subst final
    cases text with
    | nil => simp [finish, start] at hfinish
    | cons c rest =>
      refine ⟨by simp, hd, ?_⟩
      simp only [finish, start, Bool.false_or, List.length_cons] at hfinish
      simpa using hfinish.symm
  · rintro ⟨hne, hd, rfl⟩
    refine ⟨_, scanDigits_of_lt 10 false start text hd (hten hd), ?_⟩
    cases text with
    | nil => exact absurd rfl hne
    | cons c rest => simp [finish, start]

-- On decimal digits base zero differs from base ten behind a leading zero only.
theorem scanNat_zero_of_decimal (text : List Char) (hne : text ≠ []) (hd : Decimal text)
    (hz : leadingZero text = false) : scanNat 0 text = scanNat 10 text := by
  have hten : ∀ c ∈ text, digitValue c < 10 := fun c hc => (digitValue_of_isDigit c (hd c hc)).2
  have hright := (scanNat_ten text _).mpr ⟨hne, hd, rfl⟩
  rw [hright]
  have hplain : (scanDigits 10 true start text).bind (finish false) =
      some (Nat.ofDigitChars 10 text 0) := by
    rw [scanDigits_of_lt 10 true start text hd hten]
    cases text with
    | nil => exact absurd rfl hne
    | cons c rest => simp [finish, start]
  simp only [scanNat, ite_true]
  cases text with
  | nil => exact absurd rfl hne
  | cons first rest =>
    cases rest with
    | nil => exact hplain
    | cons c more =>
      have hfirst : first ≠ '0' := by simpa [leadingZero] using hz
      simpa only [scanDetected, hfirst, ite_false] using hplain

theorem scanNat_zero_of_leadingZero (c : Char) (rest : List Char)
    (hd : Decimal ('0' :: c :: rest)) (value : Nat) :
    scanNat 0 ('0' :: c :: rest) = some value ↔
      Octal (c :: rest) ∧ value = Nat.ofDigitChars 8 (c :: rest) 0 := by
  have hc : c.isDigit = true := hd c (by simp)
  have hdr : Decimal (c :: rest) := fun d hm => hd d (List.mem_cons_of_mem _ hm)
  have hletter (d : Char) (h : d.isDigit = false) : c ≠ d := by
    rintro rfl
    rw [hc] at h
    cases h
  have hb : ¬ (c = 'b' ∨ c = 'B') := by
    rintro (h | h) <;> exact hletter _ (by decide) h
  have ho : ¬ (c = 'o' ∨ c = 'O') := by
    rintro (h | h) <;> exact hletter _ (by decide) h
  have hx : ¬ (c = 'x' ∨ c = 'X') := by
    rintro (h | h) <;> exact hletter _ (by decide) h
  simp only [scanNat, scanDetected, scanPrefixed, ite_true, hb, ho, hx, ite_false]
  by_cases h8 : ∀ d ∈ c :: rest, digitValue d < 8
  · rw [scanDigits_of_lt 8 true startAfterPrefix (c :: rest) hdr h8]
    have hoct : Octal (c :: rest) := h8
    simp [finish, startAfterPrefix, hoct, eq_comm (a := value)]
  · rw [scanDigits_none 8 true startAfterPrefix (c :: rest) hdr h8]
    have hoct : ¬ Octal (c :: rest) := h8
    simp [hoct]

theorem octal_le_decimal (text : List Char) (low high : Nat) (h : low ≤ high) :
    Nat.ofDigitChars 8 text low ≤ Nat.ofDigitChars 10 text high := by
  induction text generalizing low high with
  | nil => simpa using h
  | cons c rest ih =>
    rw [Nat.ofDigitChars_cons, Nat.ofDigitChars_cons]
    apply ih
    omega

-- The last digit counts the same in both bases; the digits before it count less
-- in base eight unless they are all zero.
theorem octal_eq_decimal_iff (text : List Char) (hne : text ≠ []) (ho : Octal text) (hd : Decimal text) :
    Nat.ofDigitChars 8 text 0 = Nat.ofDigitChars 10 text 0 ↔ Nat.ofDigitChars 10 text 0 < 8 := by
  obtain ⟨front, last, rfl⟩ := List.eq_nil_or_concat' text |>.resolve_left hne
  have hlast : last.toNat - '0'.toNat < 8 := by
    have h8 := ho last (by simp)
    rwa [(digitValue_of_isDigit last (hd last (by simp))).1] at h8
  have hfront := octal_le_decimal front 0 0 (le_refl _)
  simp only [Nat.ofDigitChars_append, Nat.ofDigitChars_cons, Nat.ofDigitChars_nil]
  omega

theorem ofDigitChars_zero_cons (base : Nat) (rest : List Char) :
    Nat.ofDigitChars base ('0' :: rest) 0 = Nat.ofDigitChars base rest 0 := by
  simp [Nat.ofDigitChars_cons]

-- What the two readers make of one text that both accept.
structure Readings (text : String) (ten detected : Nat) : Prop where
  le : detected ≤ ten
  eq_iff : detected = ten ↔ ¬ LeadingZero text ∨ ten < 8

theorem scanNat_readings (text : String) (ten detected : Nat)
    (hten : scanNat 10 (unsigned text.toList) = some ten)
    (hdetected : scanNat 0 (unsigned text.toList) = some detected) : Readings text ten detected := by
  obtain ⟨hne, hd, rfl⟩ := (scanNat_ten _ _).mp hten
  by_cases hz : LeadingZero text
  · unfold LeadingZero at hz
    have hlz : LeadingZero text := hz
    obtain ⟨c, rest, he⟩ : ∃ c rest, unsigned text.toList = '0' :: c :: rest := by
      rcases hu : unsigned text.toList with - | ⟨first, - | ⟨c, rest⟩⟩
      · simp [hu, leadingZero] at hz
      · simp [hu, leadingZero] at hz
      · have hfirst : first = '0' := by simpa [hu, leadingZero] using hz
        exact ⟨c, rest, by rw [hfirst]⟩
    rw [he] at hd hdetected ⊢
    obtain ⟨ho, rfl⟩ := (scanNat_zero_of_leadingZero c rest hd detected).mp hdetected
    have hdr : Decimal (c :: rest) := fun d hm => hd d (List.mem_cons_of_mem _ hm)
    rw [ofDigitChars_zero_cons]
    exact ⟨octal_le_decimal _ 0 0 (le_refl _), by
      simpa [hlz] using octal_eq_decimal_iff (c :: rest) (by simp) ho hdr⟩
  · have hz' : leadingZero (unsigned text.toList) = false := by
      simpa [LeadingZero] using hz
    rw [scanNat_zero_of_decimal _ hne hd hz', hten, Option.some.injEq] at hdetected
    exact ⟨hdetected.ge, by simp [hz, hdetected]⟩

theorem applySign_inj (sign : Bool) (first second : Nat) :
    applySign sign first = applySign sign second ↔ first = second := by
  cases sign <;> simp [applySign]

theorem natAbs_applySign (sign : Bool) (value : Nat) : (applySign sign value).natAbs = value := by
  cases sign <;> simp [applySign]

theorem setString_eq_some (text : String) (base : Nat) (value : Int) :
    setString text base = some value ↔
      ∃ n, scanNat base (unsigned text.toList) = some n ∧
        applySign (negative text.toList) n = value := by
  simp [setString]

theorem setString_agree_iff (text : String) (ten detected : Int) (hten : setString text 10 = some ten)
    (hdetected : setString text 0 = some detected) :
    detected = ten ↔ ¬ LeadingZero text ∨ ten.natAbs < 8 := by
  obtain ⟨n, hn, rfl⟩ := (setString_eq_some text 10 ten).mp hten
  obtain ⟨m, hm, rfl⟩ := (setString_eq_some text 0 detected).mp hdetected
  rw [applySign_inj, natAbs_applySign]
  exact (scanNat_readings text n m hn hm).eq_iff

theorem setString_le (text : String) (ten detected : Int) (hten : setString text 10 = some ten)
    (hdetected : setString text 0 = some detected) (hpos : 0 < detected) : detected ≤ ten := by
  obtain ⟨n, hn, rfl⟩ := (setString_eq_some text 10 ten).mp hten
  obtain ⟨m, hm, rfl⟩ := (setString_eq_some text 0 detected).mp hdetected
  have hle := (scanNat_readings text n m hn hm).le
  cases hs : negative text.toList with
  | true => simp only [applySign, hs, ite_true] at hpos; omega
  | false => simpa [applySign, hs] using hle

theorem setString_nonneg (text : String) (ten detected : Int) (hten : setString text 10 = some ten)
    (hdetected : setString text 0 = some detected) (hn : 0 ≤ ten) : 0 ≤ detected := by
  obtain ⟨n, hn', rfl⟩ := (setString_eq_some text 10 ten).mp hten
  obtain ⟨m, hm, rfl⟩ := (setString_eq_some text 0 detected).mp hdetected
  have hle := (scanNat_readings text n m hn' hm).le
  cases hs : negative text.toList with
  | true => simp only [applySign, hs, ite_true] at hn ⊢; omega
  | false => simp [applySign]

theorem toDigits_head (value : Nat) (hpos : 0 < value) :
    (Nat.toDigits 10 value).head? ≠ some '0' := by
  induction value using Nat.strong_induction_on with
  | h value ih =>
    rw [Nat.toDigits_eq_if (by omega)]
    split_ifs with hv
    · simp only [List.head?_cons, ne_eq, Option.some.injEq]
      interval_cases value <;> decide
    · have hrec := ih (value / 10) (by omega) (by omega)
      rwa [List.head?_append_of_ne_nil _ Nat.toDigits_ne_nil]

theorem toDigits_leadingZero (value : Nat) : leadingZero (Nat.toDigits 10 value) = false := by
  rcases Nat.eq_zero_or_pos value with rfl | hpos
  · simp [leadingZero]
  · have hh := toDigits_head value hpos
    rcases hd : Nat.toDigits 10 value with - | ⟨first, - | ⟨c, rest⟩⟩
    · rfl
    · rfl
    · rw [hd] at hh
      simpa [leadingZero] using hh

theorem toDigits_decimal (value : Nat) : Decimal (Nat.toDigits 10 value) :=
  fun _ hc => Nat.isDigit_of_mem_toDigits (by omega) (by omega) hc

theorem unsigned_of_decimal (text : List Char) (hd : Decimal text) :
    unsigned text = text ∧ negative text = false := by
  cases text with
  | nil => exact ⟨rfl, rfl⟩
  | cons c rest =>
    have hc := hd c (by simp)
    have hminus : c ≠ '-' := by rintro rfl; revert hc; decide
    have hplus : c ≠ '+' := by rintro rfl; revert hc; decide
    simp [unsigned, negative, hminus, hplus]

theorem setString_repr (value base : Nat) (hbase : base = 0 ∨ base = 10) :
    setString (Nat.repr value) base = some (value : Int) := by
  have hd := toDigits_decimal value
  obtain ⟨hu, hn⟩ := unsigned_of_decimal _ hd
  have hten : scanNat 10 (Nat.toDigits 10 value) = some value :=
    (scanNat_ten _ _).mpr ⟨Nat.toDigits_ne_nil, hd, Nat.ofDigitChars_ten_toDigits.symm⟩
  have hscan : scanNat base (Nat.toDigits 10 value) = some value := by
    rcases hbase with rfl | rfl
    · rw [scanNat_zero_of_decimal _ Nat.toDigits_ne_nil hd (toDigits_leadingZero value), hten]
    · exact hten
  rw [setString, Nat.toList_repr, hu, hn, hscan]
  rfl

end PosChain.BigInt
