import PosChain.Base.Panics
import PosChain.Bridge.Invariant
import PosChain.Bridge.Replay

namespace PosChain.Bridge

section Checks

variable {Bank : Type} (env : Env Bank)

theorem raises_configuredSignersFrom (allowed : List Address) (signers : List String) :
    ¬ Raises (configuredSignersFrom allowed signers) := by
  induction signers generalizing allowed with
  | nil => simp [configuredSignersFrom]
  | cons signer rest ih => simp [configuredSignersFrom, raises_bind, ih]

@[simp] theorem raises_configuredSigners (signers : List String) : ¬ Raises (configuredSigners signers) := by
  simp [configuredSigners, raises_bind, raises_configuredSignersFrom]

@[simp] theorem raises_validateConfig (config : RouteConfig) : ¬ Raises (config.validate env) := by
  simp [RouteConfig.validate, raises_bind]

@[simp] theorem raises_validateAttestation (a : Attestation) : ¬ Raises (a.validate env) := by
  simp [Attestation.validate, raises_bind]

@[simp] theorem raises_validateAt (a : Attestation) (time : Int64) : ¬ Raises (a.validateAt env time) := by
  simp [Attestation.validateAt, raises_bind]

@[simp] theorem raises_attestationID (a : Attestation) : ¬ Raises (a.id env) := by
  simp [Attestation.id]

@[simp] theorem raises_recoverSigner (digest : Hash) (signature : Bytes) :
    ¬ Raises (recoverSigner env digest signature) := by
  simp [recoverSigner, raises_bind]

theorem raises_recoverApprovals (digest : Hash) (allowed recovered : List Address) (signatures : List Bytes) :
    ¬ Raises (recoverApprovals env digest allowed recovered signatures) := by
  induction signatures generalizing recovered with
  | nil => simp [recoverApprovals]
  | cons signature rest ih => simp [recoverApprovals, raises_bind, ih]

@[simp] theorem raises_verifyApprovals (a : Attestation) (signers : List String) (signatures : List Bytes) :
    ¬ Raises (verifyApprovals env a signers signatures) := by
  simp [verifyApprovals, verifyQuorum, signingDigest, raises_bind, raises_recoverApprovals]

@[simp] theorem raises_getRouteConfig (store : KVStore) : ¬ Raises (getRouteConfig env store) := by
  rw [getRouteConfig]
  split
  · simp
  · simp [raises_bind]

@[simp] theorem raises_requireRouteConfig (store : KVStore) : ¬ Raises (requireRouteConfig env store) := by
  simp [requireRouteConfig, raises_bind]

@[simp] theorem raises_getRouteState (store : KVStore) : ¬ Raises (getRouteState store) := by
  rw [getRouteState]
  split <;> simp

@[simp] theorem raises_requireRouteAvailable (store : KVStore) (config : RouteConfig) :
    ¬ Raises (requireRouteAvailable env store config) := by
  simp [requireRouteAvailable, raises_bind]

@[simp] theorem raises_submitBasic (req : MsgSubmitAttestation) : ¬ Raises (req.validateBasic env) := by
  simp [MsgSubmitAttestation.validateBasic, raises_bind]

@[simp] theorem raises_transferBasic (req : MsgInitiateOutboundTransfer) : ¬ Raises (req.validateBasic env) := by
  simp [MsgInitiateOutboundTransfer.validateBasic, raises_bind]

end Checks

section Actions

variable {Bank : Type} (env : Env Bank) (keeper : Keeper) (ctx : Context)

theorem positiveAmount_read {value : String} (h : positiveAmount value = true) :
    BigInt.setString value 10 ≠ none := by
  intro hnone
  simp [positiveAmount, hnone] at h

theorem RouteConfig.limits_read {config : RouteConfig} (h : config.validate env = .ok ()) :
    BigInt.setString config.maxTransferAmount 10 ≠ none ∧ BigInt.setString config.dailyLimit 10 ≠ none := by
  simp only [RouteConfig.validate, Check.bind_eq_ok, failIf_eq_ok, exists_const, Bool.not_eq_false'] at h
  obtain ⟨-, _, -, -, -, htransfer, hdaily, -⟩ := h
  exact ⟨positiveAmount_read htransfer, positiveAmount_read hdaily⟩

theorem panics_checkAndRecordLimits (config : RouteConfig) (amountText : String) (s : State Bank) :
    ¬ Panics ((checkAndRecordLimits env ctx config amountText).run s) := by
  intro hpanics
  simp only [checkAndRecordLimits, writeStore, panics_get_bind, panics_lift_bind, panics_modify,
    raises_requireRouteAvailable, raises_orFail_error, raises_failIf, nilDereference, raises_orFail_panic,
    false_or, and_false, exists_false, or_false] at hpanics
  obtain ⟨⟨⟩, havailable, amount, -, ⟨⟩, -, hlimits⟩ := hpanics
  obtain ⟨htransfer, hdaily⟩ :=
    RouteConfig.limits_read env (requireRouteAvailable_ok env _ _ havailable).valid
  rcases hlimits with hnone | ⟨maxTransfer, -, ⟨⟩, -, hnone⟩
  · exact htransfer hnone
  · exact hdaily hnone

theorem panics_admitAttestation (config : RouteConfig) (attestation : Attestation) (signatures : List Bytes)
    (s : State Bank) : ¬ Panics ((admitAttestation env ctx config attestation signatures).run s) := by
  intro hpanics
  simp only [admitAttestation, markProcessed, writeStore, panics_get_bind, panics_lift_bind,
    panics_bind (checkAndRecordLimits _ _ _ _), panics_checkAndRecordLimits, panics_modify_bind, panics_pure,
    raises_validateConfig, raises_failIf, raises_requireRouteAvailable, raises_validateAt,
    raises_verifyApprovals, raises_attestationID, false_or, and_false, exists_false] at hpanics

theorem panics_withBank (action : Action Bank Unit) (s : State Bank) :
    Panics ((withBank action).run s) ↔ Panics (action.run s.bank) := by
  rw [EStateM.run, withBank, onPart]
  cases action.run s.bank <;> simp [Panics]

end Actions

section Integers

theorem raises_add (left right : SdkInt) :
    Raises (left.add right) ↔ 2 ^ 256 ≤ (left.value + right.value).natAbs := by
  rw [SdkInt.add, raises_orFail_panic, SdkInt.ofInt?]
  split
  case isTrue h => exact iff_of_false (by simp) (Nat.not_le.mpr h)
  case isFalse h => exact iff_of_true rfl (Nat.not_lt.mp h)

theorem raises_sub (left right : SdkInt) :
    Raises (left.sub right) ↔ 2 ^ 256 ≤ (left.value - right.value).natAbs := by
  rw [SdkInt.sub, raises_orFail_panic, SdkInt.ofInt?]
  split
  case isTrue h => exact iff_of_false (by simp) (Nat.not_le.mpr h)
  case isFalse h => exact iff_of_true rfl (Nat.not_lt.mp h)

theorem raises_gtNil (left : SdkInt) (right : Option SdkInt) : Raises (left.gtNil right) ↔ right = none := by
  rw [SdkInt.gtNil, raises_exceptMap, nilDereference, raises_orFail_panic]

end Integers

-- In the states that the bank can be in, calls for the bridge with a positive amount end with
-- a success or an error: minting as long as the new supply is an integer of the bank,
-- burning as long as the old one is not negative.
structure Quiet {Bank : Type} (bank : BankKeeper Bank) (states : Set Bank) : Prop where
  mint : ∀ coin, ∀ b ∈ states, 0 < coin.amount.value →
    ((bank.getSupply b coin.denom).value + coin.amount.value).natAbs < 2 ^ 256 →
    ¬ Panics ((bank.mintCoins moduleName coin).run b)
  minted : ∀ coin, ∀ b ∈ states, ∀ next, (bank.mintCoins moduleName coin).run b = .ok () next → next ∈ states
  pay : ∀ account coin, ∀ b ∈ states, 0 < coin.amount.value →
    ¬ Panics ((bank.sendCoinsFromModuleToAccount moduleName account coin).run b)
  take : ∀ account coin, ∀ b ∈ states, 0 < coin.amount.value →
    ¬ Panics ((bank.sendCoinsFromAccountToModule account moduleName coin).run b)
  taken : ∀ account coin, ∀ b ∈ states, ∀ next,
    (bank.sendCoinsFromAccountToModule account moduleName coin).run b = .ok () next → next ∈ states
  burn : ∀ coin, ∀ b ∈ states, 0 < coin.amount.value → 0 ≤ (bank.getSupply b coin.denom).value →
    ¬ Panics ((bank.burnCoins moduleName coin).run b)

section Settlement

variable {Bank : Type} (env : Env Bank) (keeper : Keeper) (ctx : Context)

structure Arrives (s : State Bank) (req : MsgSubmitAttestation) (config : RouteConfig)
    (settlement : Settlement) (amount : SdkInt) : Prop where
  basic : req.validateBasic env = .ok ()
  found : getRouteConfig env s.store = .ok (some config)
  inbound : req.attestation.direction = directionCronosToXitcoin
  admitted : ∃ id t, (admitAttestation env ctx config req.attestation req.signatures).run s = .ok id t
  settlement_eq : keeper.settlement = some settlement
  recipient : ∃ recipient, env.accAddressFromBech32 (Text.trimSpace req.destination) = .ok recipient
  amount_eq : SdkInt.newIntFromString req.amount = some amount
  amount_pos : 0 < amount.value

-- Limit and sums are integers of 256 bits.
structure Fits (s : State Bank) (config : RouteConfig) (settlement : Settlement) (amount : SdkInt) :
    Prop where
  limit : SdkInt.newIntFromString config.maxOutstandingAmount ≠ none
  outstanding : (route env s.store).outstanding + amount.value < 2 ^ 256
  supply : ∀ limit, SdkInt.newIntFromString config.maxOutstandingAmount = some limit →
    (route env s.store).outstanding + amount.value ≤ limit.value →
    (env.bank.getSupply s.bank settlement.nativeDenom).value + amount.value < 2 ^ 256

variable {env keeper ctx} {s : State Bank} {states : Set Bank}

theorem panics_withRouteConfig {α : Type} {basic : Check Unit} (hbasic : ¬ Raises basic)
    (rest : RouteConfig → Action (State Bank) α) :
    Panics ((withRouteConfig env basic rest).run s) ↔ basic = .ok () ∧
      ∃ config, getRouteConfig env s.store = .ok (some config) ∧ Panics ((rest config).run s) := by
  simp only [withRouteConfig, panics_lift_bind, panics_get_bind, hbasic, raises_requireRouteConfig,
    requireRouteConfig_eq_ok, false_or, Unique.exists_iff]

-- Where an inbound settlement can panic. Once both sums are integers, nothing does.
theorem panics_settleInbound (keeper : Keeper) (config : RouteConfig) (attestation : Attestation)
    (hq : Quiet env.bank states) (hstate : s.bank ∈ states)
    (hread : ∃ before, outstandingAmount s.store = .ok before ∧
      before.value = (route env s.store).outstanding)
    (hsupply : ∀ denom, 0 ≤ (env.bank.getSupply s.bank denom).value) :
    Panics ((settleInbound env keeper config attestation).run s) ↔
      attestation.direction = directionCronosToXitcoin ∧
      (∃ recipient, env.accAddressFromBech32 (Text.trimSpace attestation.destination) = .ok recipient) ∧
      ∃ settlement amount, keeper.settlement = some settlement ∧
        SdkInt.newIntFromString attestation.amount = some amount ∧ 0 < amount.value ∧
        ¬ Fits env s config settlement amount := by
  obtain ⟨before, hbefore, hvalue⟩ := hread
  simp only [settleInbound, setOutstandingAmount, writeStore, panics_get_bind, panics_lift_bind,
    panics_bind (withBank _), panics_withBank, panics_modify, raises_orFail_error, raises_failIf,
    raises_passOn, raises_ok, raises_add, raises_gtNil, hbefore, Except.ok.injEq, exists_eq_left', false_or,
    failIf_eq_ok, orFail_eq_ok, passOn_eq_ok, mapError_eq_ok, withBank_eq_ok, SdkInt.add_eq_ok,
    SdkInt.gtNil_eq_ok, SdkInt.gt, SdkInt.isPositive, exists_const, Bool.not_eq_false', decide_eq_true_eq,
    bne_eq_false_iff_eq, and_false, exists_false, or_false, decide_eq_false_iff_not, not_lt]
  constructor
  · rintro ⟨settlement, hsettlement, hinbound, recipient, hrecipient, amount, hamount, hpos, hpanics⟩
    refine ⟨hinbound, ⟨recipient, hrecipient⟩, settlement, amount, hsettlement, hamount, hpos, ?_⟩
    intro hfits
    have houtstanding := hfits.outstanding
    have hdenom := hsupply settlement.nativeDenom
    rcases hpanics with hover | ⟨after, hafter, hnone | ⟨_, ⟨limit, hlimit, rfl⟩, hbelow, hpanics⟩⟩
    · omega
    · exact hfits.limit hnone
    · have hle : after.value ≤ limit.value := by simpa using hbelow
      have hsum := hfits.supply limit hlimit (by omega)
      rcases hpanics with hover | ⟨supply, hnext, -, hmint | ⟨_, ⟨minted, hminted, rfl⟩, hpay⟩⟩
      · omega
      · exact hq.mint _ _ hstate hpos (by simp only; omega) hmint
      · exact hq.pay _ _ _ (hq.minted _ _ hstate _ hminted) hpos hpay
  · rintro ⟨hinbound, ⟨recipient, hrecipient⟩, settlement, amount, hsettlement, hamount, hpos, hmisfit⟩
    refine ⟨settlement, hsettlement, hinbound, recipient, hrecipient, amount, hamount, hpos, ?_⟩
    by_contra hquiet
    simp only [not_or, not_exists, not_and, not_le] at hquiet
    obtain ⟨hbound, hquiet⟩ := hquiet
    obtain ⟨hlimit, hquiet⟩ := hquiet ⟨before.value + amount.value, hbound⟩ rfl
    refine hmisfit ⟨hlimit, by omega, ?_⟩
    intro limit hread hbelow
    have hdenom := hsupply settlement.nativeDenom
    have hle : ¬ limit.value < before.value + amount.value := by omega
    have hsum := (hquiet _ ⟨limit, hread, rfl⟩ (decide_eq_false hle)).1
    omega

theorem fits_congr {t : State Bank} {config : RouteConfig} {settlement : Settlement} {amount : SdkInt}
    (hroute : (route env t.store).outstanding = (route env s.store).outstanding) (hbank : t.bank = s.bank) :
    Fits env t config settlement amount ↔ Fits env s config settlement amount := by
  constructor
  · rintro ⟨hlimit, houtstanding, hsum⟩
    rw [hroute, hbank] at *
    exact ⟨hlimit, houtstanding, hsum⟩
  · rintro ⟨hlimit, houtstanding, hsum⟩
    rw [← hroute, ← hbank] at *
    exact ⟨hlimit, houtstanding, hsum⟩

theorem panics_submit_iff {req : MsgSubmitAttestation} (hq : Quiet env.bank states) (hstate : s.bank ∈ states)
    (hs : WellFormed env s.store) (hsupply : ∀ denom, 0 ≤ (env.bank.getSupply s.bank denom).value) :
    Panics ((serveSubmitAttestation env keeper ctx req).run s) ↔
      ∃ config settlement amount, Arrives env keeper ctx s req config settlement amount ∧
        ¬ Fits env s config settlement amount := by
  -- Admission leaves the outstanding amount and the bank as they are.
  have hadmitted (config : RouteConfig) (id : Hash) (t : State Bank)
      (h : (admitAttestation env ctx config req.attestation req.signatures).run s = .ok id t) :
      t.bank = s.bank ∧ outstandingAmount t.store = outstandingAmount s.store ∧
        (route env t.store).outstanding = (route env s.store).outstanding := by
    obtain ⟨amount, hadmit, rfl⟩ := admitAttestation_ok env ctx config _ _ s t id h
    exact ⟨rfl, outstandingAmount_admitted config id amount s.store, by
      rw [route_markSettled, route_recordUsage]⟩
  have hsettle (config : RouteConfig) (id : Hash) (t : State Bank)
      (h : (admitAttestation env ctx config req.attestation req.signatures).run s = .ok id t) :=
    panics_settleInbound (s := t) keeper config req.attestation hq
      (by rw [(hadmitted config id t h).1]; exact hstate)
      (by rw [(hadmitted config id t h).2.1, (hadmitted config id t h).2.2]; exact hs.outstanding_read)
      (by rw [(hadmitted config id t h).1]; exact hsupply)
  have hfits (config : RouteConfig) (id : Hash) (t : State Bank)
      (h : (admitAttestation env ctx config req.attestation req.signatures).run s = .ok id t)
      (settlement : Settlement) (amount : SdkInt) :
      Fits env t config settlement amount ↔ Fits env s config settlement amount := by
    obtain ⟨hbank, -, hroute⟩ := hadmitted config id t h
    exact fits_congr hroute hbank
  simp only [serveSubmitAttestation, panics_withRouteConfig (raises_submitBasic env req), submitUnder,
    panics_lift_bind, raises_failIf, failIf_eq_ok, bne_eq_false_iff_eq, panics_bind (admitAttestation _ _ _ _ _),
    panics_admitAttestation, panics_bind (settleInbound _ _ _ _), emitEvent, panics_modify_bind, panics_pure,
    and_false, exists_false, or_false, false_or, exists_const]
  constructor
  · rintro ⟨hbasic, config, hfound, hinbound, id, t, hadmit, hpanics⟩
    obtain ⟨-, hrecipient, settlement, amount, hsettlement, hamount, hpos, hmisfit⟩ :=
      (hsettle config id t hadmit).mp hpanics
    rw [hfits config id t hadmit] at hmisfit
    exact ⟨config, settlement, amount, ⟨hbasic, hfound, hinbound, ⟨id, t, hadmit⟩, hsettlement, hrecipient,
      hamount, hpos⟩, hmisfit⟩
  · rintro ⟨config, settlement, amount, harrives, hmisfit⟩
    obtain ⟨id, t, hadmit⟩ := harrives.admitted
    rw [← hfits config id t hadmit] at hmisfit
    exact ⟨harrives.basic, config, harrives.found, harrives.inbound, id, t, hadmit,
      (hsettle config id t hadmit).mpr ⟨harrives.inbound, harrives.recipient, settlement, amount,
        harrives.settlement_eq, harrives.amount_eq, harrives.amount_pos, hmisfit⟩⟩

theorem panics_transfer {req : MsgInitiateOutboundTransfer} (hl : env.bank.Lawful moduleName)
    (hq : Quiet env.bank states) (hstate : s.bank ∈ states) (hs : WellFormed env s.store)
    (hsupply : ∀ denom, 0 ≤ (env.bank.getSupply s.bank denom).value) :
    ¬ Panics ((serveInitiateOutboundTransfer env keeper ctx req).run s) := by
  intro hpanics
  simp only [serveInitiateOutboundTransfer, panics_withRouteConfig (raises_transferBasic env req), transferUnder,
    initiateOutboundTransfer, nextOutboundNonce, setOutstandingAmount, writeStore, emitEvent, bind_assoc,
    pure_bind, panics_get_bind, panics_lift_bind, panics_bind (withBank _), panics_withBank,
    panics_bind (checkAndRecordLimits _ _ _ _), panics_checkAndRecordLimits, panics_modify_bind, panics_pure,
    raises_failIf, raises_passOn, raises_orFail_error, raises_requireRouteAvailable, raises_sub, failIf_eq_ok,
    passOn_eq_ok, orFail_eq_ok, withBank_eq_ok, false_or, or_false, and_false, exists_false, exists_const] at hpanics
  obtain ⟨-, config, -, -, sender, -, settlement, -, ⟨⟩, -, -, amount, -, hpos, ⟨⟩, t, hlimits, hpanics⟩ := hpanics
  obtain ⟨written, -, rfl⟩ := checkAndRecordLimits_ok env ctx config _ s t hlimits
  obtain ⟨before, hbefore, hvalue⟩ := hs.outstanding_read
  have hamount : 0 < amount.value := by simpa [SdkInt.isPositive] using hpos
  simp only [outstandingAmount_recordUsage, hbefore, raises_ok, Except.ok.injEq, exists_eq_left', false_or,
    SdkInt.gt, decide_eq_false_iff_not, not_lt] at hpanics
  obtain ⟨hle, htake | ⟨_, ⟨taken, htake, rfl⟩, hburn | ⟨_, -, hsub⟩⟩⟩ := hpanics
  · exact hq.take _ _ _ hstate hamount htake
  · refine hq.burn _ _ (hq.taken _ _ _ hstate _ htake) hamount ?_ hburn
    rw [hl.take _ _ _ _ htake]
    exact hsupply _
  · have hbounded := before.bounded
    omega

end Settlement

-- An outbound transfer never panics, and a submitted attestation does if and only if it
-- arrives at sums or at a limit that are not integers of 256 bits.
theorem settlement_total_iff {Bank : Type} (env : Env Bank) (keeper : Keeper)
    (states : Set Bank) (hl : env.bank.Lawful moduleName) (hq : Quiet env.bank states)
    (s : State Bank) (hs : Reachable env keeper s) (hstate : s.bank ∈ states)
    (hsupply : ∀ denom, 0 ≤ (env.bank.getSupply s.bank denom).value)
    (hcap : ∀ settlement, keeper.settlement = some settlement →
      (env.bank.getSupply s.bank settlement.nativeDenom).value ≤ settlement.maxSupply.value)
    (ctx : Context) (submit : MsgSubmitAttestation) (transfer : MsgInitiateOutboundTransfer) :
    (¬ Panics ((serveSubmitAttestation env keeper ctx submit).run s) ↔
      ∀ config settlement amount, Arrives env keeper ctx s submit config settlement amount →
        Fits env s config settlement amount) ∧
    ¬ Panics ((serveInitiateOutboundTransfer env keeper ctx transfer).run s) ∧
    ((∀ config settlement maxTransfer, getRouteConfig env s.store = .ok (some config) →
        keeper.settlement = some settlement → BigInt.setString config.maxTransferAmount 10 = some maxTransfer →
        SdkInt.newIntFromString config.maxOutstandingAmount ≠ none ∧
          (route env s.store).outstanding + maxTransfer < 2 ^ 256 ∧
          settlement.maxSupply.value + maxTransfer < 2 ^ 256) →
      ¬ Panics ((serveSubmitAttestation env keeper ctx submit).run s)) := by
  have hwell := hs.wellFormed
  have hiff : ¬ Panics ((serveSubmitAttestation env keeper ctx submit).run s) ↔
      ∀ config settlement amount, Arrives env keeper ctx s submit config settlement amount →
        Fits env s config settlement amount := by
    rw [panics_submit_iff hq hstate hwell hsupply]
    simp only [not_exists, not_and, not_not]
  refine ⟨hiff, panics_transfer hl hq hstate hwell hsupply, ?_⟩
  intro hsmall
  rw [hiff]
  intro config settlement amount harrives
  obtain ⟨id, t, hadmit⟩ := harrives.admitted
  obtain ⟨written, hadmitted, -⟩ := admitAttestation_ok env ctx config _ _ s t id hadmit
  obtain ⟨maxTransfer, hmax, hle⟩ := hadmitted.limited.below_transfer
  obtain ⟨hlimit, houtstanding, hsum⟩ := hsmall config settlement maxTransfer harrives.found
    harrives.settlement_eq hmax
  have hreading : amount.value ≤ written := BigInt.setString_le _ _ _ hadmitted.limited.amount_eq
    ((SdkInt.newIntFromString_eq_some _ _).mp harrives.amount_eq) harrives.amount_pos
  have hbank := hcap settlement harrives.settlement_eq
  exact ⟨hlimit, by omega, fun _ _ _ => by omega⟩

theorem ledger_quiet : Quiet Ledger.bank Set.univ := by
  have hmodule (name : String) (coin : Coin) (change : Int) (ledger : Ledger) :
      ¬ Panics ((Ledger.changeModule name coin change).run ledger) := by
    simp only [Ledger.changeModule, panics_get_bind, panics_lift_bind, raises_failIf, panics_set, and_false,
      exists_false, or_false, not_false_eq_true]
  have haccount (account : AccAddress) (coin : Coin) (change : Int) (ledger : Ledger) :
      ¬ Panics ((Ledger.changeAccount account coin change).run ledger) := by
    simp only [Ledger.changeAccount, panics_get_bind, panics_lift_bind, raises_failIf, panics_set, and_false,
      exists_false, or_false, not_false_eq_true]
  have htotal (coin : Coin) (change : Int) (ledger : Ledger)
      (h : ((ledger.supply coin.denom).value + change).natAbs < 2 ^ 256) :
      ¬ Panics ((Ledger.changeSupply coin change).run ledger) := by
    simp only [Ledger.changeSupply, panics_get_bind, panics_lift_bind, SdkInt.ofInt?_of_lt _ h,
      raises_orFail_panic, reduceCtorEq, panics_set, and_false, exists_false, or_false, not_false_eq_true]
  refine ⟨?_, fun _ _ _ _ _ => trivial, ?_, ?_, fun _ _ _ _ _ _ => trivial, ?_⟩
  · intro coin ledger _ _ hfits hpanics
    rcases (panics_bind _ _ _).mp hpanics with hfirst | ⟨⟨⟩, next, hnext, hsecond⟩
    · exact hmodule _ _ _ _ hfirst
    · refine htotal _ _ _ ?_ hsecond
      rw [(Ledger.changeModule_ok hnext "").2]
      exact hfits
  · intro account coin ledger _ _ hpanics
    rcases (panics_bind _ _ _).mp hpanics with hfirst | ⟨⟨⟩, next, -, hsecond⟩
    · exact hmodule _ _ _ _ hfirst
    · exact haccount _ _ _ _ hsecond
  · intro account coin ledger _ _ hpanics
    rcases (panics_bind _ _ _).mp hpanics with hfirst | ⟨⟨⟩, next, -, hsecond⟩
    · exact haccount _ _ _ _ hfirst
    · exact hmodule _ _ _ _ hsecond
  · intro coin ledger _ hamount hsupply hpanics
    rcases (panics_bind _ _ _).mp hpanics with hfirst | ⟨⟨⟩, next, hnext, hsecond⟩
    · exact hmodule _ _ _ _ hfirst
    · refine htotal _ _ _ ?_ hsecond
      rw [(Ledger.changeModule_ok hnext "").2]
      have hold := (ledger.supply coin.denom).bounded
      have hcoin := coin.amount.bounded
      have hnonneg : 0 ≤ (ledger.supply coin.denom).value := hsupply
      omega

theorem lock_settles_without_panic :
    Reachable lockTables.env sampleKeeper lockState ∧
      ¬ Panics ((serveSubmitAttestation lockTables.env sampleKeeper lockContext
        (lockMsg 1800000000 lockSignatures)).run lockState) := by
  have hreachable : Reachable lockTables.env sampleKeeper lockState :=
    ⟨lockState, [], ⟨lockGenesis, lock_started⟩, rfl⟩
  obtain ⟨-, -, htotal⟩ := settlement_total_iff lockTables.env sampleKeeper _ (Ledger.bank_lawful _)
    ledger_quiet lockState hreachable trivial (fun _ => le_refl _) (by intro settlement h; cases h; decide)
    lockContext (lockMsg 1800000000 lockSignatures) ⟨"", "", "", ""⟩
  refine ⟨hreachable, htotal ?_⟩
  intro config settlement maxTransfer hfound hsettlement hmax
  rw [lock_config_found, Except.ok.injEq, Option.some.injEq] at hfound
  subst hfound
  cases hsettlement
  obtain rfl : (1000 : Int) = maxTransfer := by
    have hread : BigInt.setString sampleConfig.maxTransferAmount 10 = some 1000 := by decide
    rw [hread] at hmax
    exact Option.some.inj hmax
  have houtstanding : (route lockTables.env lockState.store).outstanding = 0 := by decide +kernel
  rw [houtstanding]
  exact ⟨by decide, by decide, by decide⟩

-- A limit of 2 ^ 256 passes the validation and is no integer of the settlement.
def vastConfig : RouteConfig :=
  { sampleConfig with
    maxOutstandingAmount := "115792089237316195423570985008687907853269984665640564039457584007913129639936" }

def vastState : State Ledger where
  store := KVStore.empty.set routeConfigKey vastConfig.encode
  bank := sampleLedger 0 zero_bounded
  events := []

theorem vast_limit_panics :
    vastConfig.validate lockTables.env = .ok () ∧ Reachable lockTables.env sampleKeeper vastState ∧
      Panics ((serveSubmitAttestation lockTables.env sampleKeeper lockContext
        (lockMsg 1800000000 lockSignatures)).run vastState) := by
  have hvalid : vastConfig.validate lockTables.env = .ok () := by decide +kernel
  refine ⟨hvalid, ⟨vastState, [], ⟨⟨some vastConfig, false, "", 0⟩, ?_, sampleLedger 0 (by decide), ?_⟩, rfl⟩, ?_⟩
  · decide +kernel
  · rw [initGenesis_eq_ok lockTables.env ⟨some vastConfig, false, "", 0⟩ vastConfig _ _ rfl]
    exact ⟨hvalid, SdkInt.zeroInt, rfl, rfl⟩
  · have hbasic : (lockMsg 1800000000 lockSignatures).validateBasic lockTables.env = .ok () := by
      decide +kernel
    have hfound : getRouteConfig lockTables.env vastState.store = .ok (some vastConfig) :=
      getRouteConfig_set lockTables.env _ vastConfig hvalid
    rw [serveSubmitAttestation, withRouteConfig_run hbasic hfound]
    exact panics_of_panicked (by decide +kernel)

end PosChain.Bridge
