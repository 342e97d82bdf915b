import PosChain.Bridge.Tables
import PosChain.Ethereum.Lenient

namespace PosChain.Bridge

section Signers

variable {Bank : Type} (env : Env Bank)

def named (text : String) : Address :=
  Ethereum.hexToAddress (Text.trimSpace text)

-- The signers and the guardian that a configuration names are those against
-- which approvals are checked, and no two of them are the same.
structure Enforced (config : RouteConfig) : Prop where
  signers : ∃ allowed, configuredSigners config.bridgeSigners = .ok allowed ∧
    ∀ address, address ∈ allowed ↔ address ∈ config.bridgeSigners.map named
  guardian : ∀ action signature digest recovered, guardianPauseDigest env action = .ok digest →
    recoverSigner env digest signature = .ok recovered →
    (verifyGuardianPause env action config.guardian signature = .ok recovered ↔
      recovered = Ethereum.hexToAddress config.guardian)
  guardian_named : Ethereum.hexToAddress config.guardian = named config.guardian
  distinct : (config.bridgeSigners.map named).Nodup
  apart : named config.guardian ∉ config.bridgeSigners.map named

structure Checked (config : RouteConfig) : Prop where
  addresses : ∀ text ∈ config.guardian :: config.bridgeSigners,
    Ethereum.isHexAddress (Text.trimSpace text) = true
  signers : configuredSigners config.bridgeSigners = .ok (config.bridgeSigners.map Ethereum.hexToAddress)
  distinct : (config.bridgeSigners.map Ethereum.hexToAddress).Nodup
  apart : Ethereum.hexToAddress config.guardian ∉ config.bridgeSigners.map Ethereum.hexToAddress

theorem configuredSignersFrom_addresses (allowed : List Address) (signers : List String)
    (result : List Address) (h : configuredSignersFrom allowed signers = .ok result) :
    ∀ text ∈ signers, Ethereum.isHexAddress (Text.trimSpace text) = true := by
  induction signers generalizing allowed with
  | nil => simp
  | cons signer rest ih =>
    simp only [configuredSignersFrom, Check.bind_eq_ok, failIf_eq_ok, exists_const,
      Bool.not_eq_false'] at h
    obtain ⟨haddress, -, hrest⟩ := h
    simp only [List.mem_cons, forall_eq_or_imp]
    exact ⟨haddress, ih _ hrest⟩

theorem validate_checked {config : RouteConfig} (h : config.validate env = .ok ()) : Checked config := by
  simp only [RouteConfig.validate, Check.bind_eq_ok, failIf_eq_ok, exists_const, Bool.not_eq_false'] at h
  obtain ⟨-, allowed, hsigners, hguardian, happart, -⟩ := h
  obtain ⟨rfl, hnodup, -⟩ := configuredSigners_ok _ _ hsigners
  refine ⟨?_, hsigners, hnodup, ?_⟩
  · have hfrom := hsigners
    simp only [configuredSigners, Check.bind_eq_ok, failIf_eq_ok, exists_const] at hfrom
    simp only [List.mem_cons, forall_eq_or_imp]
    exact ⟨hguardian, configuredSignersFrom_addresses [] _ _ hfrom.2⟩
  · intro hmem
    obtain ⟨signer, hsigner, heq⟩ := List.mem_map.mp hmem
    rw [List.any_eq_false] at happart
    exact happart signer hsigner (by simp [heq])

theorem verifyGuardianPause_iff (action : GuardianPauseAction) (guardian : String) (signature : Bytes)
    (digest : Hash) (recovered : Address) (hguardian : Ethereum.isHexAddress (Text.trimSpace guardian) = true)
    (hdigest : guardianPauseDigest env action = .ok digest)
    (hrecovered : recoverSigner env digest signature = .ok recovered) :
    verifyGuardianPause env action guardian signature = .ok recovered ↔
      recovered = Ethereum.hexToAddress guardian := by
  simp only [verifyGuardianPause, Check.bind_eq_ok, failIf_eq_ok, exists_const, Check.pure_eq_ok, hguardian,
    hdigest, hrecovered, Except.ok.injEq, exists_eq_left', bne_eq_false_iff_eq, Bool.not_true, true_and,
    and_true]

-- Three texts that are read as three addresses no larger than the ones they
-- name. If both make one set, each text is read as the address it names.
theorem read_eq_named {texts : List String}
    (haddresses : ∀ text ∈ texts, Ethereum.isHexAddress (Text.trimSpace text) = true)
    (hread : (texts.map Ethereum.hexToAddress).Nodup) (hnamed : (texts.map named).Nodup)
    (hsame : ∀ address, address ∈ texts.map Ethereum.hexToAddress ↔ address ∈ texts.map named) :
    ∀ text ∈ texts, Ethereum.hexToAddress text = named text := by
  have hperm : (texts.map Ethereum.hexToAddress).Perm (texts.map named) :=
    (List.perm_ext_iff_of_nodup hread hnamed).mpr hsame
  have hsum : (texts.map fun text => Bytes.toNat (Ethereum.hexToAddress text).bytes).sum =
      (texts.map fun text => Bytes.toNat (named text).bytes).sum := by
    have hvalues := (hperm.map fun address => Bytes.toNat address.bytes).sum_eq
    simpa only [List.map_map, Function.comp_def] using hvalues
  have hle : ∀ text ∈ texts.toFinset, Bytes.toNat (Ethereum.hexToAddress text).bytes ≤
      Bytes.toNat (named text).bytes := by
    intro text htext
    rw [named]
    exact Ethereum.hexToAddress_le (haddresses text (List.mem_toFinset.mp htext))
  rw [← List.sum_toFinset _ hread.of_map, ← List.sum_toFinset _ hread.of_map,
    Finset.sum_eq_sum_iff_of_le hle] at hsum
  intro text htext
  exact Ethereum.Address.eq_of_toNat (hsum text (List.mem_toFinset.mpr htext))

-- The condition under which white space around a text is harmless.
def Plain (text : String) : Prop :=
  Ethereum.Aligned text ∨ named text = Ethereum.zeroAddress

theorem enforced_iff {config : RouteConfig} (h : config.validate env = .ok ()) :
    Enforced env config ↔ ∀ text ∈ config.guardian :: config.bridgeSigners, Plain text := by
  have hchecked := validate_checked env h
  have hplain (text : String) (ht : text ∈ config.guardian :: config.bridgeSigners) :
      Ethereum.hexToAddress text = named text ↔ Plain text :=
    Ethereum.hexToAddress_eq_trimmed_iff (hchecked.addresses text ht)
  constructor
  · intro henforced text htext
    rw [← hplain text htext]
    rcases List.mem_cons.mp htext with rfl | hsigner
    · exact henforced.guardian_named
    · obtain ⟨allowed, hallowed, hsame⟩ := henforced.signers
      rw [hchecked.signers, Except.ok.injEq] at hallowed
      subst hallowed
      exact read_eq_named (fun text ht => hchecked.addresses text (List.mem_cons_of_mem _ ht))
        hchecked.distinct henforced.distinct hsame text hsigner
  · intro hall
    have hnamed : config.bridgeSigners.map Ethereum.hexToAddress = config.bridgeSigners.map named :=
      List.map_congr_left fun text ht =>
        (hplain text (List.mem_cons_of_mem _ ht)).mpr (hall text (List.mem_cons_of_mem _ ht))
    have hguardian : Ethereum.hexToAddress config.guardian = named config.guardian :=
      (hplain _ List.mem_cons_self).mpr (hall _ List.mem_cons_self)
    have hapart := hchecked.apart
    rw [hguardian, hnamed] at hapart
    refine ⟨⟨_, hchecked.signers, fun address => by rw [hnamed]⟩, ?_, hguardian,
      hnamed ▸ hchecked.distinct, hapart⟩
    intro action signature digest recovered hdigest hrecovered
    exact verifyGuardianPause_iff env action _ signature digest recovered
      (hchecked.addresses _ List.mem_cons_self) hdigest hrecovered

end Signers

-- A blank behind the second signer shifts its address by one digit.
def blankConfig (signer : String) : RouteConfig :=
  { sampleConfig with
    bridgeSigners := ["0x7e5f4552091a69125d5dfcb7b8c2659029395bdf", signer,
      "0x6813eb9362372eef6200f3b1dbc3f819671cba69"] }

theorem two_blanks_enforced :
    Enforced (Tables.env ⟨[], [], [], [], []⟩) (blankConfig "0x2b5ad5c4795c026514f8317c7a215e218dccd6cf  ") := by
  have hvalid : (blankConfig "0x2b5ad5c4795c026514f8317c7a215e218dccd6cf  ").validate
      (Tables.env ⟨[], [], [], [], []⟩) = .ok () := by
    decide +kernel
  refine (enforced_iff _ hvalid).mpr ?_
  intro text htext
  refine Or.inl ?_
  revert text
  decide +kernel

theorem one_blank_not_enforced :
    (blankConfig "0x2b5ad5c4795c026514f8317c7a215e218dccd6cf ").validate
        (Tables.env ⟨[], [], [], [], []⟩) = .ok () ∧
      configuredSigners (blankConfig "0x2b5ad5c4795c026514f8317c7a215e218dccd6cf ").bridgeSigners =
        .ok [Ethereum.hexToAddress "0x7e5f4552091a69125d5dfcb7b8c2659029395bdf",
          Ethereum.hexToAddress "0x02b5ad5c4795c026514f8317c7a215e218dccd6c",
          Ethereum.hexToAddress "0x6813eb9362372eef6200f3b1dbc3f819671cba69"] ∧
      ¬ Enforced (Tables.env ⟨[], [], [], [], []⟩)
        (blankConfig "0x2b5ad5c4795c026514f8317c7a215e218dccd6cf ") := by
  have hsigners : configuredSigners (blankConfig "0x2b5ad5c4795c026514f8317c7a215e218dccd6cf ").bridgeSigners =
      .ok [Ethereum.hexToAddress "0x7e5f4552091a69125d5dfcb7b8c2659029395bdf",
        Ethereum.hexToAddress "0x02b5ad5c4795c026514f8317c7a215e218dccd6c",
        Ethereum.hexToAddress "0x6813eb9362372eef6200f3b1dbc3f819671cba69"] := by
    decide +kernel
  refine ⟨by decide +kernel, hsigners, ?_⟩
  intro henforced
  obtain ⟨allowed, hallowed, hsame⟩ := henforced.signers
  rw [hsigners, Except.ok.injEq] at hallowed
  subst hallowed
  have hmissing := (hsame (Ethereum.hexToAddress "0x2b5ad5c4795c026514f8317c7a215e218dccd6cf")).mpr
    (by decide +kernel)
  revert hmissing
  decide +kernel

end PosChain.Bridge
