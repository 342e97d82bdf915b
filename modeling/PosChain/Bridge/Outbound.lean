import PosChain.Bridge.Amounts
import PosChain.Bridge.Identifiers
import PosChain.Bridge.Restart
import PosChain.Ethereum.Common.Theorems

namespace PosChain.Bridge

-- The life of a chain: messages, and restarts that export the state of the
-- bridge and import it into an empty store.
inductive Happening (Bank : Type) where
  | message (call : Call)
  | restart (bank : Bank)

structure Request where
  routeID : String
  sender : AccAddress
  destination : Address
  amount : SdkInt
  nonce : UInt64
  deriving DecidableEq

section Requests

variable {Bank : Type} (env : Env Bank) (keeper : Keeper)

def happen (s : State Bank) : Happening Bank → Option (Option Response × State Bank)
  | .message call => (deliver env keeper s call).map fun answer => (some answer.1, answer.2)
  | .restart bank =>
    match exportGenesis env s.store with
    | .ok g => (kept ((initGenesis env g).run ⟨KVStore.empty, bank, []⟩)).map fun answer => (none, answer.2)
    | .error _ => none

def Request.text (r : Request) : String :=
  Text.join [r.routeID, env.accAddressText r.sender,
    Text.toLower env.unicode (Ethereum.addressHex env.keccak256 r.destination), r.amount.toText,
    toString r.nonce.toNat] "\x00"

def Request.answer (r : Request) : String × UInt64 :=
  (Bytes.hexEncode (env.sha256 (Bytes.utf8 (r.text env))).bytes, r.nonce)

-- The answers to the outbound transfers among accepted happenings, and the
-- requests they answer.
def outboundAnswer (entry : Happening Bank × Option Response) : Option (String × UInt64) :=
  match entry.2 with
  | some (.outbound requestID nonce) => some (requestID, nonce)
  | _ => none

def outboundRequest (entry : Happening Bank × Option Response) : Option Request :=
  match entry with
  | (.message ⟨_, .initiateOutboundTransfer req⟩, some (.outbound _ nonce)) => do
    let sender ← (env.accAddressFromBech32 req.sender).toOption
    let amount ← SdkInt.newIntFromString req.amount
    return ⟨req.routeId, sender, Ethereum.hexToAddress (Text.trimSpace req.destination), amount, nonce⟩
  | _ => none

def answers (s : State Bank) (happenings : List (Happening Bank)) : List (String × UInt64) :=
  (Run.accepted (happen env keeper) s happenings).filterMap outboundAnswer

def requests (s : State Bank) (happenings : List (Happening Bank)) : List Request :=
  (Run.accepted (happen env keeper) s happenings).filterMap (outboundRequest env)

-- The account address codec writes different accounts differently, without NUL
-- characters.
structure AccountTexts : Prop where
  injective : ∀ text text' account account', env.accAddressFromBech32 text = .ok account →
    env.accAddressFromBech32 text' = .ok account' →
    env.accAddressText account = env.accAddressText account' → account = account'
  nul : ∀ text account, env.accAddressFromBech32 text = .ok account →
    '\x00' ∉ (env.accAddressText account).toList

structure Request.Checked (r : Request) : Prop where
  routeID : validRouteID env r.routeID = true
  sender : ∃ text, env.accAddressFromBech32 text = .ok r.sender
  amount : 0 < r.amount.value

end Requests

section Texts

variable {Bank : Type} {env : Env Bank} {r r' : Request}

def Request.parts (env : Env Bank) (r : Request) : List (List Char) :=
  [r.routeID.toList, (env.accAddressText r.sender).toList,
    ("0x" ++ Bytes.hexEncode r.destination.bytes).toList, (toString r.amount.value.toNat).toList,
    (toString r.nonce.toNat).toList]

theorem Request.Checked.toList_text (h : r.Checked env) :
    (r.text env).toList = ['\x00'].intercalate (r.parts env) := by
  rw [Request.text, toList_join, Ethereum.toLower_addressHex, SdkInt.toText, toString_toInt h.amount.le]
  rfl

theorem Request.Checked.parts_nul (h : r.Checked env) (haccounts : AccountTexts env) :
    ∀ part ∈ r.parts env, '\x00' ∉ part := by
  obtain ⟨text, hsender⟩ := h.sender
  have hdestination : '\x00' ∉ ("0x" ++ Bytes.hexEncode r.destination.bytes).toList := by
    intro hmem
    rw [String.toList_append] at hmem
    rcases List.mem_append.mp hmem with hmem | hmem
    · revert hmem
      decide
    · have halphanum := Ethereum.hexEncode_alphanum _ _ hmem
      revert halphanum
      decide
  simp only [Request.parts, List.mem_cons, List.not_mem_nil, or_false, forall_eq_or_imp, forall_eq]
  exact ⟨validRouteID_nul env h.routeID, haccounts.nul text r.sender hsender, hdestination,
    toString_nul _, toString_nul _⟩

theorem Request.Checked.eq_of_text (h : r.Checked env) (h' : r'.Checked env)
    (haccounts : AccountTexts env) (htext : r.text env = r'.text env) : r = r' := by
  have hparts : r.parts env = r'.parts env := by
    apply Separated.intercalate_injective (h.parts_nul haccounts) (h'.parts_nul haccounts)
      (by simp [Request.parts]) (by simp [Request.parts])
    rw [← h.toList_text, ← h'.toList_text, htext]
  simp only [Request.parts, List.cons.injEq, String.toList_inj, and_true] at hparts
  obtain ⟨hroute, hsender, hdestination, hamount, hnonce⟩ := hparts
  obtain ⟨text, hs⟩ := h.sender
  obtain ⟨text', hs'⟩ := h'.sender
  have hbytes : r.destination.bytes = r'.destination.bytes := by
    have htail := congrArg String.toList hdestination
    rw [String.toList_append, String.toList_append, List.append_cancel_left_eq, String.toList_inj] at htail
    exact Ethereum.hexEncode_injective htail
  have hvalue := toString_injective hamount
  have hpos := h.amount
  have hpos' := h'.amount
  obtain ⟨routeID, sender, destination, ⟨amount, bounded⟩, nonce⟩ := r
  obtain ⟨routeID', sender', destination', ⟨amount', bounded'⟩, nonce'⟩ := r'
  obtain rfl : amount = amount' := by
    simp only at hvalue hpos hpos'
    omega
  obtain rfl : nonce = nonce' := UInt64.toNat_inj.mp (toString_injective hnonce)
  obtain rfl : sender = sender' := haccounts.injective _ _ _ _ hs hs' hsender
  obtain rfl : destination = destination' := Address.eq_of_bytes hbytes
  obtain rfl : routeID = routeID' := hroute
  rfl

end Texts

section Runs

variable {Bank : Type} {env : Env Bank} {keeper : Keeper}

theorem restart_wellFormed {s u : State Bank} {g : GenesisState} {bank : Bank}
    (hs : WellFormed env s.store) (hexport : exportGenesis env s.store = .ok g)
    (himport : (initGenesis env g).run ⟨KVStore.empty, bank, []⟩ = .ok () u) :
    WellFormed env u.store := by
  rcases hs.config with hempty | ⟨config, found⟩
  · rw [hempty] at hexport
    cases hexport
    cases himport
    exact wellFormed_empty env
  · rw [exportGenesis_found hs found] at hexport
    cases hexport
    obtain ⟨hvalid, amount, hamount, rfl⟩ :=
      (initGenesis_eq_ok env (exported env s.store config) config _ _ rfl).mp himport
    have hread := hamount
    rw [exported_importedAmount hs, Option.some.injEq] at hread
    refine wellFormed_genesisStore hvalid hamount ?_
    rw [← hread]
    exact Int.natCast_nonneg _

theorem restart_nonce {s u : State Bank} {g : GenesisState} {bank : Bank}
    (hs : WellFormed env s.store) (hexport : exportGenesis env s.store = .ok g)
    (himport : (initGenesis env g).run ⟨KVStore.empty, bank, []⟩ = .ok () u) :
    outboundNonce u.store = outboundNonce s.store := by
  obtain ⟨g', u', hexport', himport', hroute, -⟩ := restart_route hs bank
  rw [hexport] at hexport'
  cases hexport'
  rw [himport] at himport'
  cases himport'
  exact congrArg Route.nonce hroute

-- What one accepted happening does: an outbound transfer takes the next nonce,
-- and everything else leaves the nonce alone.
inductive Counted (env : Env Bank) (s t : State Bank) (entry : Happening Bank × Option Response) : Prop
  | other (answer : outboundAnswer entry = none) (request : outboundRequest env entry = none)
      (nonce : outboundNonce t.store = outboundNonce s.store)
  | transfer (r : Request) (checked : r.Checked env) (answer : outboundAnswer entry = some (r.answer env))
      (request : outboundRequest env entry = some r) (taken : r.nonce = outboundNonce s.store + 1)
      (nonce : outboundNonce t.store = outboundNonce s.store + 1)

theorem RouteStep.nonce_of_other {ctx : Context} {r next : Route} {msg : Msg}
    (h : RouteStep env ctx r msg next) (hother : ∀ req, msg ≠ .initiateOutboundTransfer req) :
    next.nonce = r.nonce := by
  cases h with
  | burn req => exact absurd rfl (hother req)
  | _ => rfl

theorem RouteConfig.routeID_valid {config : RouteConfig} (h : config.validate env = .ok ()) :
    validRouteID env config.routeID = true := by
  simp only [RouteConfig.validate, Check.bind_eq_ok, failIf_eq_ok, exists_const, Bool.not_eq_false'] at h
  exact h.1

theorem Accepted.counted {ctx : Context} {s t : State Bank} {msg : Msg} {response : Response}
    (h : Accepted env keeper ctx s msg response t) :
    Counted env s t (.message ⟨ctx, msg⟩, some response) := by
  have hstep := h.routeStep
  cases h with
  | burned req config sender id w found route sender_eq holds id_eq =>
    have hvalid := RouteConfig.routeID_valid (getRouteConfig_valid found)
    refine .transfer ⟨req.routeId, sender, Ethereum.hexToAddress (Text.trimSpace req.destination),
      w.amount, outboundNonce s.store + 1⟩ ⟨?_, ⟨_, sender_eq⟩, holds.amount_pos⟩ ?_ ?_ rfl
      (congrArg Route.nonce (route_outboundStore holds))
    · rw [route]
      exact hvalid
    · rw [outboundAnswer, Request.answer, Request.text, route, id_eq]
      rfl
    · simp [outboundRequest, sender_eq, holds.amount_eq, Except.toOption]
  | initialized req => exact .other rfl rfl (hstep.nonce_of_other (by simp))
  | paused req => exact .other rfl rfl (hstep.nonce_of_other (by simp))
  | resumed req => exact .other rfl rfl (hstep.nonce_of_other (by simp))
  | updated req => exact .other rfl rfl (hstep.nonce_of_other (by simp))
  | settled req => exact .other rfl rfl (hstep.nonce_of_other (by simp))

theorem happen_counted {s t : State Bank} {happening : Happening Bank} {response : Option Response}
    (hs : WellFormed env s.store) (h : happen env keeper s happening = some (response, t)) :
    WellFormed env t.store ∧ Counted env s t (happening, response) := by
  cases happening with
  | message call =>
    simp only [happen, Option.map_eq_some_iff] at h
    obtain ⟨⟨answer, next⟩, hdeliver, heq⟩ := h
    cases heq
    have haccepted := deliver_accepted hdeliver
    exact ⟨haccepted.wellFormed hs, haccepted.counted⟩
  | restart bank =>
    simp only [happen] at h
    split at h
    case h_1 g hexport =>
      simp only [Option.map_eq_some_iff] at h
      obtain ⟨⟨⟨⟩, next⟩, himport, heq⟩ := h
      rw [kept_eq_some] at himport
      cases heq
      exact ⟨restart_wellFormed hs hexport himport, .other rfl rfl (restart_nonce hs hexport himport)⟩
    case h_2 => cases h

theorem answers_eq (keeper : Keeper) (s : State Bank) (hs : WellFormed env s.store)
    (happenings : List (Happening Bank)) :
    answers env keeper s happenings = (requests env keeper s happenings).map (Request.answer env) ∧
      ∀ r ∈ requests env keeper s happenings, r.Checked env := by
  induction happenings generalizing s with
  | nil => exact ⟨rfl, by simp [requests, Run.accepted]⟩
  | cons happening rest ih =>
    cases hstep : happen env keeper s happening with
    | none =>
      simp only [answers, requests, Run.accepted_cons_none rest hstep]
      exact ih s hs
    | some answer =>
      obtain ⟨response, t⟩ := answer
      obtain ⟨ht, hcounted⟩ := happen_counted hs hstep
      obtain ⟨hanswers, hchecked⟩ := ih t ht
      simp only [answers, requests] at hanswers hchecked
      simp only [answers, requests, Run.accepted_cons_some rest hstep, List.filterMap_cons]
      cases hcounted with
      | other answer request nonce =>
        simp only [answer, request]
        exact ⟨hanswers, hchecked⟩
      | transfer r checked answer request taken nonce =>
        simp only [answer, request, List.map_cons, hanswers, List.mem_cons, forall_eq_or_imp]
        exact ⟨trivial, checked, hchecked⟩

theorem requests_nonces (keeper : Keeper) (s : State Bank) (hs : WellFormed env s.store)
    (happenings : List (Happening Bank))
    (hbound : (outboundNonce s.store).toNat + (requests env keeper s happenings).length < 2 ^ 64) :
    (requests env keeper s happenings).map (fun r => r.nonce.toNat) =
      List.range' ((outboundNonce s.store).toNat + 1) (requests env keeper s happenings).length := by
  induction happenings generalizing s with
  | nil => rfl
  | cons happening rest ih =>
    cases hstep : happen env keeper s happening with
    | none =>
      simp only [requests, Run.accepted_cons_none rest hstep] at hbound ⊢
      exact ih s hs hbound
    | some answer =>
      obtain ⟨response, t⟩ := answer
      obtain ⟨ht, hcounted⟩ := happen_counted hs hstep
      have hnext := ih t ht
      simp only [requests] at hnext
      simp only [requests, Run.accepted_cons_some rest hstep, List.filterMap_cons] at hbound ⊢
      cases hcounted with
      | other answer request nonce =>
        simp only [request] at hbound ⊢
        rw [nonce] at hnext
        exact hnext hbound
      | transfer r checked answer request taken nonce =>
        simp only [request, List.length_cons] at hbound ⊢
        have htaken : (outboundNonce s.store + 1).toNat = (outboundNonce s.store).toNat + 1 := by
          rw [UInt64.toNat_add]
          exact Nat.mod_eq_of_lt (by simp only [UInt64.toNat_one]; omega)
        rw [nonce, htaken] at hnext
        rw [List.map_cons, taken, htaken, hnext (by omega), List.range'_succ]

theorem Started.nonce_eq {g : GenesisState} {s : State Bank} (h : Started env g s) :
    outboundNonce s.store = g.outboundNonce := by
  rcases h.cases with ⟨hnone, he⟩ | ⟨config, amount, -, hvalid, hamount, hn, he⟩
  · have hvalidate := h.valid
    simp only [GenesisState.validate, hnone, failIf_eq_ok, Bool.or_eq_false_iff, bne_eq_false_iff_eq] at hvalidate
    rw [he, hvalidate.2]
    exact congrArg Route.nonce (route_empty env)
  · have hroute := route_genesisStore env g config amount hvalid.config_valid hamount hn
    rw [he]
    exact congrArg Route.nonce hroute

end Runs

-- Along every life of a chain the outbound transfers receive consecutive nonces, and
-- the bytes hashed into their identifiers tell what was asked for.
theorem outbound_requests_identified {Bank : Type} (env : Env Bank) (keeper : Keeper)
    (haccounts : AccountTexts env) (g : GenesisState) (s : State Bank) (hs : Started env g s)
    (happenings : List (Happening Bank))
    (hbound : g.outboundNonce.toNat + (answers env keeper s happenings).length < 2 ^ 64) :
    answers env keeper s happenings = (requests env keeper s happenings).map (Request.answer env) ∧
      (answers env keeper s happenings).map (fun answer => answer.2.toNat) =
        List.range' (g.outboundNonce.toNat + 1) (answers env keeper s happenings).length ∧
      ((requests env keeper s happenings).map fun r => Bytes.utf8 (r.text env)).Nodup ∧
      ∀ r ∈ requests env keeper s happenings, ∀ r' ∈ requests env keeper s happenings,
        Bytes.utf8 (r.text env) = Bytes.utf8 (r'.text env) → r = r' := by
  obtain ⟨hanswers, hchecked⟩ := answers_eq keeper s hs.wellFormed happenings
  have hlength : (answers env keeper s happenings).length = (requests env keeper s happenings).length := by
    rw [hanswers, List.length_map]
  have hnonces := requests_nonces keeper s hs.wellFormed happenings (by rw [hs.nonce_eq]; omega)
  rw [hs.nonce_eq] at hnonces
  have hinjective : ∀ r ∈ requests env keeper s happenings, ∀ r' ∈ requests env keeper s happenings,
      Bytes.utf8 (r.text env) = Bytes.utf8 (r'.text env) → r = r' := by
    intro r hr r' hr' hbytes
    exact (hchecked r hr).eq_of_text (hchecked r' hr') haccounts (Bytes.utf8_injective hbytes)
  have hnodup : (requests env keeper s happenings).Nodup := by
    apply List.Nodup.of_map (fun r => r.nonce.toNat)
    rw [hnonces]
    exact List.nodup_range'
  refine ⟨hanswers, ?_, hnodup.map_on hinjective, hinjective⟩
  rw [hlength, ← hnonces, hanswers, List.map_map]
  rfl

-- Ten atomic units leave, the chain restarts, and ten more leave.
def outboundTables : Tables :=
  { octalTables with
    sha256 := octalTables.sha256 ++ [(Bytes.utf8 (Text.join ["cronos-testnet", sampleAccount,
      "0x1111111111111111111111111111111111111111", "10", "2"] "\x00"),
      Ethereum.hexToHash "0xbfdb6a36a11fe086cae8b6315958fbbf9889635a9ae7ab4a0542933d761b4f9d")] }

def outboundGenesis : GenesisState :=
  ⟨some sampleConfig, false, "100", 0⟩

def outboundStart : State Ledger where
  store := genesisStore outboundGenesis sampleConfig ⟨100, hundred_bounded⟩ KVStore.empty
  bank := sampleLedger 100 hundred_bounded
  events := []

def outboundHappenings : List (Happening Ledger) :=
  [.message (octalCall "10"), .restart (sampleLedger 90 (by decide)), .message (octalCall "10")]

theorem outbound_accountTexts : AccountTexts outboundTables.env := by
  have hdecoded (text : String) (account : AccAddress)
      (h : outboundTables.env.accAddressFromBech32 text = .ok account) : account = sampleAddress := by
    rcases hfound : [(sampleAccount, sampleAddress)].lookup text with _ | address
    · simp [outboundTables, octalTables, Tables.env, hfound] at h
    · simp only [outboundTables, octalTables, Tables.env, hfound, Except.ok.injEq] at h
      rw [List.lookup_cons, List.lookup_nil] at hfound
      split at hfound
      · exact h.symm.trans (Option.some.inj hfound).symm
      · cases hfound
  refine ⟨?_, ?_⟩
  · intro text text' account account' h h' _
    rw [hdecoded text account h, hdecoded text' account' h']
  · intro text account h
    rw [hdecoded text account h]
    decide +kernel

theorem outbound_started : Started outboundTables.env outboundGenesis outboundStart := by
  have hvalid : sampleConfig.validate outboundTables.env = .ok () := by decide +kernel
  refine ⟨by decide +kernel, sampleLedger 100 (by decide), ?_⟩
  exact (initGenesis_eq_ok outboundTables.env outboundGenesis sampleConfig _ _ rfl).mpr
    ⟨hvalid, ⟨100, by decide⟩, by decide +kernel, rfl⟩

theorem outbound_transfer_accepted : ∃ answer, happen outboundTables.env sampleKeeper outboundStart
    (.message (octalCall "10")) = some answer := by
  have hbasic : (octalTransfer "10").validateBasic outboundTables.env = .ok () := by decide +kernel
  have hfound : getRouteConfig outboundTables.env outboundStart.store = .ok (some sampleConfig) :=
    found_of_config _ (congrArg Route.config (route_genesisStore outboundTables.env outboundGenesis
      sampleConfig ⟨100, by decide⟩ (by decide +kernel) (by decide +kernel) (by decide)))
  have hsome : (kept ((transferUnder outboundTables.env sampleKeeper ⟨1700000000, ""⟩ (octalTransfer "10")
      sampleConfig).run outboundStart)).isSome = true := by
    decide +kernel
  obtain ⟨⟨result, t⟩, ht⟩ := Option.isSome_iff_exists.mp hsome
  have hdeliver : deliver outboundTables.env sampleKeeper outboundStart (octalCall "10") =
      some (.outbound result.1 result.2, t) :=
    deliver_outbound hbasic hfound ht
  exact ⟨(some (.outbound result.1 result.2), t), by simp [happen, hdeliver]⟩

theorem answers_length_le {Bank : Type} (env : Env Bank) (keeper : Keeper) (s : State Bank)
    (happenings : List (Happening Bank)) :
    (answers env keeper s happenings).length ≤ happenings.length := by
  refine le_trans (List.length_filterMap_le _ _) ?_
  induction happenings generalizing s with
  | nil => exact le_refl _
  | cons happening rest ih =>
    cases hstep : happen env keeper s happening with
    | none =>
      rw [Run.accepted_cons_none rest hstep]
      exact le_trans (ih s) (Nat.le_succ _)
    | some answer =>
      rw [Run.accepted_cons_some rest hstep]
      exact Nat.succ_le_succ (ih answer.2)

theorem restarted_chain_requests_identified :
    (∃ answer, happen outboundTables.env sampleKeeper outboundStart (.message (octalCall "10")) = some answer) ∧
      (answers outboundTables.env sampleKeeper outboundStart outboundHappenings).map
          (fun answer => answer.2.toNat) =
        List.range' 1 (answers outboundTables.env sampleKeeper outboundStart outboundHappenings).length ∧
      ((requests outboundTables.env sampleKeeper outboundStart outboundHappenings).map
        fun r => Bytes.utf8 (r.text outboundTables.env)).Nodup := by
  have hbound : outboundGenesis.outboundNonce.toNat +
      (answers outboundTables.env sampleKeeper outboundStart outboundHappenings).length < 2 ^ 64 := by
    have hle := answers_length_le outboundTables.env sampleKeeper outboundStart outboundHappenings
    have hthree : outboundHappenings.length = 3 := rfl
    have hzero : outboundGenesis.outboundNonce.toNat = 0 := rfl
    omega
  obtain ⟨-, hnonces, hnodup, -⟩ := outbound_requests_identified outboundTables.env sampleKeeper
    outbound_accountTexts outboundGenesis outboundStart outbound_started outboundHappenings hbound
  exact ⟨outbound_transfer_accepted, hnonces, hnodup⟩

end PosChain.Bridge
