import PosChain.Bridge.Tables

namespace PosChain.Bridge

-- An accepted transfer reads one amount text in four places. This module says
-- for which texts the readings agree.
section Views

variable {Bank : Type} (env : Env Bank) (keeper : Keeper)

def outstandingOf (s : State Bank) : Int :=
  (route env s.store).outstanding

def nativeSupply (s : State Bank) : Int :=
  match keeper.settlement with
  | some settlement => (env.bank.getSupply s.bank settlement.nativeDenom).value
  | none => 0

def emittedAmount (s t : State Bank) (kind : String) : Option Int :=
  (t.events.drop s.events.length).findSome? fun event =>
    if event.kind = kind then (event.attributes.lookup "amount").bind (BigInt.setString · 10)
    else none

def usageChange (ctx : Context) (routeID : String) (s t : State Bank) : Int :=
  (dailyUsage env ctx t.store routeID : Int) - dailyUsage env ctx s.store routeID

-- The amount through the bank, the change of the outstanding amount, the daily
-- usage and the event of a message that moves value are all the same number.
def AmountsAgree (call : Call) (s t : State Bank) : Prop :=
  match call.msg with
  | .submitAttestation req =>
    outstandingOf env t - outstandingOf env s = nativeSupply env keeper t - nativeSupply env keeper s ∧
    usageChange env call.ctx req.routeId s t =
      nativeSupply env keeper t - nativeSupply env keeper s ∧
    emittedAmount s t "bridge_inbound_settled" =
      some (nativeSupply env keeper t - nativeSupply env keeper s)
  | .initiateOutboundTransfer req =>
    outstandingOf env s - outstandingOf env t = nativeSupply env keeper s - nativeSupply env keeper t ∧
    usageChange env call.ctx req.routeId s t =
      nativeSupply env keeper s - nativeSupply env keeper t ∧
    emittedAmount s t "bridge_outbound_burned" =
      some (nativeSupply env keeper s - nativeSupply env keeper t)
  | _ => True

instance (call : Call) (s t : State Bank) : Decidable (AmountsAgree env keeper call s t) := by
  unfold AmountsAgree
  split <;> infer_instance

end Views

def Msg.amountText : Msg → Option String
  | .submitAttestation req => some req.amount
  | .initiateOutboundTransfer req => some req.amount
  | _ => none

section Effects

variable {Bank : Type} {env : Env Bank} {keeper : Keeper} {ctx : Context}

-- The two readings of an amount text: the limits take it in base ten, the
-- settlement with the base that its prefix names.
theorem readings_agree_iff {text : String} {written : Int} {amount : SdkInt}
    (hten : BigInt.setString text 10 = some written)
    (hdetected : SdkInt.newIntFromString text = some amount) (hpos : 0 < written) :
    amount.value = written ↔ ¬ BigInt.LeadingZero text ∨ written < 8 := by
  rw [SdkInt.newIntFromString_eq_some] at hdetected
  rw [BigInt.setString_agree_iff text _ _ hten hdetected]
  constructor
  · rintro (h | h)
    · exact Or.inl h
    · exact Or.inr (by omega)
  · rintro (h | h)
    · exact Or.inl h
    · exact Or.inr (by omega)

theorem nativeSupply_eq {settlement : Settlement} (h : keeper.settlement = some settlement) (s : State Bank) :
    nativeSupply env keeper s = (env.bank.getSupply s.bank settlement.nativeDenom).value := by
  simp [nativeSupply, h]

theorem usageChange_recorded {s t : State Bank} {routeID : String} {written : Int} (hw : 0 < written)
    (ht : (route env t.store).usage = Function.update (route env s.store).usage
      (usageIndex env routeID ctx.blockTime) (dailyUsage env ctx s.store routeID + written.toNat)) :
    usageChange env ctx routeID s t = written := by
  simp only [usageChange, dailyUsage_eq env ctx t.store, ht, Function.update_self]
  omega

theorem emittedAmount_appended {s t : State Bank} {kind text : String}
    (before after : List (String × String)) (hb : before.lookup "amount" = none)
    (ht : t.events = s.events ++ [⟨kind, before ++ ("amount", text) :: after⟩]) :
    emittedAmount s t kind = BigInt.setString text 10 := by
  have hlookup : (before ++ ("amount", text) :: after).lookup "amount" = some text := by
    rw [List.lookup_append, hb]
    simp
  cases hs : BigInt.setString text 10 <;> simp [emittedAmount, ht, hlookup, hs]

-- Whatever the message, the bank and the outstanding amount move by the
-- settlement's reading, and usage and event by the base-ten reading.
theorem settled_agree_iff (hl : env.bank.Lawful moduleName) {s t : State Bank} {req : MsgSubmitAttestation}
    {config : RouteConfig} {id : Hash} {written : Int} {w : Settling Bank}
    (admitted : Admitted env ctx s.store config req.attestation req.signatures id written)
    (holds : w.Holds env keeper s config req.attestation)
    (hstore : t.store = settledStore env ctx config id written w.after s.store) (hbank : t.bank = w.paid)
    (hevents : t.events = s.events ++ [⟨"bridge_inbound_settled",
      [("attestation_id", Bytes.hexEncode id.bytes), ("route_id", config.routeID),
        ("destination", req.destination), ("amount", req.amount)]⟩]) :
    AmountsAgree env keeper ⟨ctx, .submitAttestation req⟩ s t ↔ w.amount.value = written := by
  have hroute : req.routeId = config.routeID := admitted.route
  have hwritten : BigInt.setString req.amount 10 = some written := admitted.limited.amount_eq
  have hrouteEq := route_settledStore ctx holds id written
  rw [← hstore] at hrouteEq
  have hsupply : nativeSupply env keeper t - nativeSupply env keeper s = w.amount.value := by
    rw [nativeSupply_eq holds.settlement_eq, nativeSupply_eq holds.settlement_eq, hbank,
      holds.supply hl]
    simp [BankKeeper.amountOf]
  have houtstanding : outstandingOf env t - outstandingOf env s = w.amount.value := by
    have hbefore := outstanding_of_read env holds.before_eq
    have hafter := holds.after_eq
    have hnonneg := holds.after_nonneg
    simp only [outstandingOf, congrArg Route.outstanding hrouteEq]
    omega
  have husage : usageChange env ctx req.routeId s t = written := by
    rw [hroute]
    exact usageChange_recorded admitted.limited.amount_pos (congrArg Route.usage hrouteEq)
  have hevent : emittedAmount s t "bridge_inbound_settled" = some written := by
    rw [← hwritten]
    exact emittedAmount_appended [("attestation_id", Bytes.hexEncode id.bytes),
      ("route_id", config.routeID), ("destination", req.destination)] [] rfl hevents
  simp only [AmountsAgree, hsupply, houtstanding, husage, hevent, Option.some.injEq, true_and, and_self]
  exact eq_comm

theorem burned_agree_iff (hl : env.bank.Lawful moduleName) {s t : State Bank} {req : MsgInitiateOutboundTransfer}
    {config : RouteConfig} {sender : AccAddress} {w : Burning Bank} {requestID nonce : String}
    (hroute : req.routeId = config.routeID)
    (holds : w.Holds env keeper ctx s config sender req.destination req.amount)
    (hstore : t.store = outboundStore env ctx config w s.store) (hbank : t.bank = w.burned)
    (hevents : t.events = s.events ++ [⟨"bridge_outbound_burned",
      [("request_id", requestID), ("route_id", config.routeID),
        ("sender", env.accAddressText sender), ("destination", req.destination),
        ("amount", req.amount), ("nonce", nonce)]⟩]) :
    AmountsAgree env keeper ⟨ctx, .initiateOutboundTransfer req⟩ s t ↔ w.amount.value = w.written := by
  have hwritten : BigInt.setString req.amount 10 = some w.written := holds.limited.amount_eq
  have hrouteEq := route_outboundStore holds
  rw [← hstore] at hrouteEq
  have hsupply : nativeSupply env keeper s - nativeSupply env keeper t = w.amount.value := by
    rw [nativeSupply_eq holds.settlement_eq, nativeSupply_eq holds.settlement_eq, hbank,
      holds.supply hl]
    simp [BankKeeper.amountOf]
  have houtstanding : outstandingOf env s - outstandingOf env t = w.amount.value := by
    have hbefore := outstanding_of_read env holds.before_eq
    have hafter := holds.after_eq
    have hnonneg := holds.after_nonneg
    simp only [outstandingOf, congrArg Route.outstanding hrouteEq]
    omega
  have husage : usageChange env ctx req.routeId s t = w.written := by
    rw [hroute]
    exact usageChange_recorded holds.limited.amount_pos (congrArg Route.usage hrouteEq)
  have hevent : emittedAmount s t "bridge_outbound_burned" = some w.written := by
    rw [← hwritten]
    exact emittedAmount_appended [("request_id", requestID), ("route_id", config.routeID),
      ("sender", env.accAddressText sender), ("destination", req.destination)] [("nonce", nonce)] rfl
      hevents
  simp only [AmountsAgree, hsupply, houtstanding, husage, hevent, Option.some.injEq, true_and, and_self]
  exact eq_comm

end Effects

-- In every state, the four amounts of an accepted transfer agree exactly when
-- the text has no leading zero or is below eight.
theorem amounts_agree_iff {Bank : Type} (env : Env Bank) (keeper : Keeper) (hl : env.bank.Lawful moduleName)
    (s t : State Bank) (call : Call) (response : Response) (text : String)
    (htext : call.msg.amountText = some text) (h : deliver env keeper s call = some (response, t)) :
    AmountsAgree env keeper call s t ↔
      ¬ BigInt.LeadingZero text ∨ ∃ n, BigInt.setString text 10 = some n ∧ n < 8 := by
  have readings (written : Int) (amount : SdkInt) (hten : BigInt.setString text 10 = some written)
      (hdetected : SdkInt.newIntFromString text = some amount) (hpos : 0 < written) :
      amount.value = written ↔
        ¬ BigInt.LeadingZero text ∨ ∃ n, BigInt.setString text 10 = some n ∧ n < 8 := by
    rw [readings_agree_iff hten hdetected hpos, hten]
    simp
  obtain ⟨ctx, msg⟩ := call
  cases deliver_accepted h with
  | settled req config id written w found inbound admitted holds =>
    obtain rfl : req.amount = text := by simpa [Msg.amountText] using htext
    rw [settled_agree_iff hl admitted holds rfl rfl rfl]
    exact readings written w.amount admitted.limited.amount_eq holds.amount_eq
      admitted.limited.amount_pos
  | burned req config sender id w found route sender_eq holds id_eq =>
    obtain rfl : req.amount = text := by simpa [Msg.amountText] using htext
    rw [burned_agree_iff hl route holds rfl rfl rfl]
    exact readings w.written w.amount holds.limited.amount_eq holds.amount_eq
      holds.limited.amount_pos
  | _ => simp [Msg.amountText] at htext

-- Ten atomic units, written with a leading zero, leave as eight.
def octalTables : Tables where
  sha256 := [(Bytes.utf8 "cronos-testnet",
      Ethereum.hexToHash "0x324aae0cc616238ccd0dbd3c8ef063339cb40cb6f6e561b52dad3942f6187934"),
    (Bytes.utf8 (Text.join ["cronos-testnet", sampleAccount,
      "0x1111111111111111111111111111111111111111", "8", "1"] "\x00"),
      Ethereum.hexToHash "0x821d419a82169713b131622a23c186650d1f617f8b846cd0b8657941a7fbf032"),
    (Bytes.utf8 (Text.join ["cronos-testnet", sampleAccount,
      "0x1111111111111111111111111111111111111111", "10", "1"] "\x00"),
      Ethereum.hexToHash "0x2c0de02a9d6992c98bef2ffa7818110d05f45c24a3e51b29dfd4436095c69e77")]
  keccak256 := [(Bytes.utf8 "1111111111111111111111111111111111111111",
    Ethereum.hexToHash "0x2d6ca42d0b5f46b311277710cd2dcf95bd59948e0957e7e167ebbf11ac592fc3")]
  sigToPub := []
  pubkeyToAddress := []
  accounts := [(sampleAccount, sampleAddress)]

def octalState : State Ledger where
  store := (KVStore.empty.set keyOutstandingAmount [100]).set routeConfigKey sampleConfig.encode
  bank := sampleLedger 100 hundred_bounded
  events := []

def octalTransfer (amount : String) : MsgInitiateOutboundTransfer :=
  ⟨sampleAccount, "cronos-testnet", "0x1111111111111111111111111111111111111111", amount⟩

def octalCall (amount : String) : Call :=
  ⟨⟨1700000000, ""⟩, .initiateOutboundTransfer (octalTransfer amount)⟩

theorem octal_config_found :
    getRouteConfig octalTables.env octalState.store = .ok (some sampleConfig) :=
  getRouteConfig_set octalTables.env _ sampleConfig (by decide +kernel)

theorem octal_transfer_disagrees :
    ∃ response t, deliver octalTables.env sampleKeeper octalState (octalCall "010") =
        some (response, t) ∧
      ¬ AmountsAgree octalTables.env sampleKeeper (octalCall "010") octalState t := by
  have hbasic : (octalTransfer "010").validateBasic octalTables.env = .ok () := by decide +kernel
  have hany : (kept ((transferUnder octalTables.env sampleKeeper ⟨1700000000, ""⟩ (octalTransfer "010")
      sampleConfig).run octalState)).any (fun result => !decide (AmountsAgree octalTables.env
        sampleKeeper (octalCall "010") octalState result.2)) = true := by
    decide +kernel
  obtain ⟨⟨result, t⟩, ht, hdisagree⟩ := (Option.any_eq_true ..).mp hany
  exact ⟨.outbound result.1 result.2, t, deliver_outbound hbasic octal_config_found ht,
    by simpa using hdisagree⟩

theorem plain_transfer_agrees :
    ∃ response t, deliver octalTables.env sampleKeeper octalState (octalCall "10") =
        some (response, t) ∧
      AmountsAgree octalTables.env sampleKeeper (octalCall "10") octalState t := by
  have hbasic : (octalTransfer "10").validateBasic octalTables.env = .ok () := by decide +kernel
  have hsome : (kept ((transferUnder octalTables.env sampleKeeper ⟨1700000000, ""⟩ (octalTransfer "10")
      sampleConfig).run octalState)).isSome = true := by
    decide +kernel
  obtain ⟨⟨result, t⟩, ht⟩ := Option.isSome_iff_exists.mp hsome
  have hdeliver : deliver octalTables.env sampleKeeper octalState (octalCall "10") =
      some (.outbound result.1 result.2, t) :=
    deliver_outbound hbasic octal_config_found ht
  exact ⟨_, t, hdeliver, (amounts_agree_iff octalTables.env sampleKeeper (Ledger.bank_lawful _) octalState
    t (octalCall "10") _ "10" rfl hdeliver).mpr (Or.inl (by decide))⟩

end PosChain.Bridge
