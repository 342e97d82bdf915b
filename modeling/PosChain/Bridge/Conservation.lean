import PosChain.Bridge.Amounts
import PosChain.Bridge.Invariant
import PosChain.Bridge.Replay

namespace PosChain.Bridge

def bankAmount (text : String) : Int :=
  match SdkInt.newIntFromString text with
  | some amount => amount.value
  | none => 0

def Msg.minted : Msg → Int
  | .submitAttestation req => bankAmount req.amount
  | _ => 0

def Msg.burned : Msg → Int
  | .initiateOutboundTransfer req => bankAmount req.amount
  | _ => 0

def mintedIn (entries : List (Call × Response)) : Int :=
  (entries.map fun entry => entry.1.msg.minted).sum

def burnedIn (entries : List (Call × Response)) : Int :=
  (entries.map fun entry => entry.1.msg.burned).sum

section Conserved

variable {Bank : Type} (env : Env Bank) (keeper : Keeper)
  (held : Bank → String → Int) (payers : Set AccAddress)

-- A mint leaves the outstanding amount below the limit of the configuration in
-- force and the supply below the keeper's maximum.
def Capped (t : State Bank) : Prop :=
  ∃ config limit settlement, (route env t.store).config = some config ∧
    BigInt.setString config.maxOutstandingAmount 10 = some limit ∧ outstandingOf env t ≤ limit ∧
    keeper.settlement = some settlement ∧ nativeSupply env keeper t ≤ settlement.maxSupply.value

-- A transfer out of the chain is paid by one of the accounts.
def Msg.PaidBy : Msg → Prop
  | .initiateOutboundTransfer req => ∀ sender, env.accAddressFromBech32 req.sender = .ok sender → sender ∈ payers
  | _ => True

structure Conserved (genesis : Int) (s : State Bank) (calls : List Call) : Prop where
  outstanding : ∃ amount,
    outstandingAmount (Run.run (deliver env keeper) s calls).store = .ok amount ∧
    0 ≤ amount.value ∧
    amount.value = genesis + mintedIn (Run.accepted (deliver env keeper) s calls) -
      burnedIn (Run.accepted (deliver env keeper) s calls)
  supply : nativeSupply env keeper (Run.run (deliver env keeper) s calls) =
    nativeSupply env keeper s + mintedIn (Run.accepted (deliver env keeper) s calls) -
      burnedIn (Run.accepted (deliver env keeper) s calls)
  balance : (∀ entry ∈ Run.accepted (deliver env keeper) s calls, entry.1.msg.PaidBy env payers) →
    ∀ denom, held (Run.run (deliver env keeper) s calls).bank denom = held s.bank denom
  capped : ∀ ctx req response t,
    deliver env keeper (Run.run (deliver env keeper) s calls) ⟨ctx, .submitAttestation req⟩ =
      some (response, t) → Capped env keeper t

variable {env keeper held payers} {ctx : Context} {s t : State Bank} {msg : Msg}
  {response : Response}

theorem bankAmount_eq {text : String} {amount : SdkInt}
    (h : SdkInt.newIntFromString text = some amount) : bankAmount text = amount.value := by
  simp [bankAmount, h]

theorem Accepted.outstanding_sum (h : Accepted env keeper ctx s msg response t) :
    outstandingOf env t = outstandingOf env s + (msg.minted - msg.burned) := by
  cases h with
  | initialized req authorised valid absent =>
    simp [outstandingOf, Msg.minted, Msg.burned, route_setConfig env _ _ valid]
  | paused req config id found checked => simp [outstandingOf, Msg.minted, Msg.burned]
  | resumed req config id found checked suspended => simp [outstandingOf, Msg.minted, Msg.burned]
  | updated req current id found checked valid same =>
    simp [outstandingOf, Msg.minted, Msg.burned, route_setConfig env _ _ valid]
  | settled req config id written w found inbound admitted holds =>
    have hbefore := outstanding_of_read env holds.before_eq
    have hafter := holds.after_eq
    have hnonneg := holds.after_nonneg
    have hamount : bankAmount req.amount = w.amount.value := bankAmount_eq holds.amount_eq
    simp only [outstandingOf, Msg.minted, Msg.burned, hamount,
      congrArg Route.outstanding (route_settledStore ctx holds id written)]
    omega
  | burned req config sender id w found same sender_eq holds id_eq =>
    have hbefore := outstanding_of_read env holds.before_eq
    have hafter := holds.after_eq
    have hnonneg := holds.after_nonneg
    have hamount := bankAmount_eq holds.amount_eq
    simp only [outstandingOf, Msg.minted, Msg.burned, hamount,
      congrArg Route.outstanding (route_outboundStore holds)]
    omega

theorem Accepted.supply_sum (hl : env.bank.Lawful moduleName) (h : Accepted env keeper ctx s msg response t) :
    nativeSupply env keeper t = nativeSupply env keeper s + (msg.minted - msg.burned) := by
  cases h with
  | settled req config id written w found inbound admitted holds =>
    have hamount : bankAmount req.amount = w.amount.value := bankAmount_eq holds.amount_eq
    simp only [nativeSupply_eq holds.settlement_eq, holds.supply hl, BankKeeper.amountOf, if_true,
      Msg.minted, Msg.burned, hamount, sub_zero]
  | burned req config sender id w found same sender_eq holds id_eq =>
    have hamount := bankAmount_eq holds.amount_eq
    simp only [nativeSupply_eq holds.settlement_eq, holds.supply hl, BankKeeper.amountOf, if_true,
      Msg.minted, Msg.burned, hamount]
    omega
  | _ => simp [nativeSupply, Msg.minted, Msg.burned]

theorem Accepted.balance_same (hb : env.bank.Balanced moduleName held payers)
    (h : Accepted env keeper ctx s msg response t) (hpaid : msg.PaidBy env payers) (denom : String) :
    held t.bank denom = held s.bank denom := by
  cases h with
  | settled req config id written w found inbound admitted holds => exact holds.balance hb denom
  | burned req config sender id w found same sender_eq holds id_eq =>
    exact holds.balance hb (hpaid sender sender_eq) denom
  | _ => rfl

theorem RouteStep.below_limit {r next : Route} {req : MsgSubmitAttestation}
    (h : RouteStep env ctx r (.submitAttestation req) next) :
    ∃ config limit, next.config = some config ∧
      BigInt.setString config.maxOutstandingAmount 10 = some limit ∧ (next.outstanding : Int) ≤ limit := by
  cases h with
  | settle req config amount written found enabled running detected ten fresh below =>
    obtain ⟨limit, hlimit, hle⟩ := below
    exact ⟨config, limit, found, hlimit, hle⟩

theorem Accepted.capped (hl : env.bank.Lawful moduleName) {req : MsgSubmitAttestation}
    (h : Accepted env keeper ctx s (.submitAttestation req) response t) : Capped env keeper t := by
  obtain ⟨config, limit, hconfig, hlimit, hbelow⟩ := h.routeStep.below_limit
  cases h with
  | settled req _ id written w found inbound admitted holds =>
    refine ⟨config, limit, w.settlement, hconfig, hlimit, hbelow, holds.settlement_eq, ?_⟩
    rw [nativeSupply_eq holds.settlement_eq, holds.supply hl]
    simpa [BankKeeper.amountOf] using holds.supply_le

theorem run_moved (total : State Bank → Int)
    (hstep : ∀ ctx s msg response t, Accepted env keeper ctx s msg response t →
      total t = total s + (msg.minted - msg.burned)) (s : State Bank) (calls : List Call) :
    total (Run.run (deliver env keeper) s calls) = total s +
      mintedIn (Run.accepted (deliver env keeper) s calls) -
        burnedIn (Run.accepted (deliver env keeper) s calls) := by
  rw [add_sub_assoc, mintedIn, burnedIn, ← Multiset.sum_coe, ← Multiset.sum_coe, ← Multiset.map_coe,
    ← Multiset.map_coe, ← Multiset.sum_map_sub]
  apply Run.run_sum (fun _ => True) total
    (fun call (_ : Response) => call.msg.minted - call.msg.burned) _ s calls trivial
  intro s call response t h _
  exact ⟨hstep _ _ _ _ _ (deliver_accepted h), trivial⟩

theorem run_conserved (hl : env.bank.Lawful moduleName) (hb : env.bank.Balanced moduleName held payers)
    (s : State Bank) (hs : WellFormed env s.store) (calls : List Call) :
    Conserved env keeper held payers (outstandingOf env s) s calls := by
  refine ⟨?_, ?_, ?_, ?_⟩
  · have hwell : WellFormed env (Run.run (deliver env keeper) s calls).store :=
      Run.run_invariant (fun s => WellFormed env s.store)
        (fun _ _ _ _ h hs => (deliver_accepted h).wellFormed hs) s calls hs
    obtain ⟨amount, hread, hvalue⟩ := hwell.outstanding_read
    refine ⟨amount, hread, by omega, ?_⟩
    rw [hvalue]
    exact run_moved (outstandingOf env) (fun _ _ _ _ _ h => h.outstanding_sum) s calls
  · exact run_moved (nativeSupply env keeper) (fun _ _ _ _ _ h => h.supply_sum hl) s calls
  · intro hpaid denom
    refine Run.run_history (fun t log => (∀ entry ∈ log, entry.1.msg.PaidBy env payers) →
      held t.bank denom = held s.bank denom) ?_ s calls [] (fun _ => rfl) hpaid
    intro t log call response next h ht hlog
    have hcall := hlog (call, response) (List.mem_append_right _ (List.mem_singleton_self _))
    rw [(deliver_accepted h).balance_same hb hcall]
    exact ht fun entry hentry => hlog entry (List.mem_append_left _ hentry)
  · intro ctx req response t h
    exact (deliver_accepted h).capped hl

-- A start takes over the amount that its genesis was validated with, unless the
-- text has a leading zero and is at least eight.
theorem Started.outstanding_eq_iff {g : GenesisState} {s : State Bank} (h : Started env g s) :
    ∃ genesis, g.validatedAmount = some genesis ∧
      (outstandingOf env s = genesis ↔ ¬ BigInt.LeadingZero g.outstandingAmount ∨ genesis < 8) := by
  rcases h.cases with ⟨hnone, hstore⟩ | ⟨config, amount, -, hvalid, hamount, hn, hstore⟩
  · have hempty : g.outstandingAmount = "" := by
      have hvalid := h.valid
      simp only [GenesisState.validate, hnone, failIf_eq_ok, Bool.or_eq_false_iff,
        bne_eq_false_iff_eq] at hvalid
      exact hvalid.1.2
    refine ⟨0, by simp [GenesisState.validatedAmount, hempty], iff_of_true ?_ (Or.inr (by decide))⟩
    simp [outstandingOf, hstore, route_empty]
  · obtain ⟨genesis, limit, hread, hge, -⟩ := hvalid.amount
    refine ⟨genesis, hread, ?_⟩
    rw [← GenesisState.importedAmount_eq_iff hread hge hamount, outstandingOf, hstore,
      route_genesisStore env g config amount hvalid.config_valid hamount hn]
    simp only
    omega

end Conserved

-- From a genesis that validates, the books are kept in every run exactly when
-- the import reads the genesis amount as the validation does.
theorem conserved_iff {Bank : Type} (env : Env Bank) (keeper : Keeper)
    (held : Bank → String → Int) (payers : Set AccAddress) (hl : env.bank.Lawful moduleName)
    (hb : env.bank.Balanced moduleName held payers) (g : GenesisState) (s : State Bank) (hs : Started env g s) :
    (∀ genesis, g.validatedAmount = some genesis →
      ∀ calls, Conserved env keeper held payers genesis s calls) ↔
      ¬ BigInt.LeadingZero g.outstandingAmount ∨ ∃ n, g.validatedAmount = some n ∧ n < 8 := by
  obtain ⟨genesis, hread, hiff⟩ := hs.outstanding_eq_iff
  simp only [hread, Option.some.injEq, forall_eq', exists_eq_left']
  rw [← hiff]
  constructor
  · intro h
    obtain ⟨amount, hamount, -, hsum⟩ := (h []).outstanding
    rw [Run.run_nil] at hamount
    rw [outstandingOf, ← outstanding_of_read env hamount, hsum]
    simp [mintedIn, burnedIn, Run.accepted]
  · rintro rfl calls
    exact run_conserved hl hb s hs.wellFormed calls

theorem lock_run_conserved :
    Started lockTables.env lockGenesis lockState ∧
      Conserved lockTables.env sampleKeeper (fun ledger => ledger.modules moduleName) Set.univ 0
        lockState [lockCall, laterCall] :=
  ⟨lock_started, (conserved_iff lockTables.env sampleKeeper _ _ (Ledger.bank_lawful _) (Ledger.bank_balanced _)
    lockGenesis lockState lock_started).mpr (Or.inr ⟨0, rfl, by decide⟩) 0 rfl _⟩

-- A genesis amount of ten, written with a leading zero, is imported as eight.
def octalGenesis : GenesisState :=
  ⟨some sampleConfig, false, "010", 0⟩

def octalStart : State Ledger where
  store := genesisStore octalGenesis sampleConfig ⟨8, by decide⟩ KVStore.empty
  bank := sampleLedger 8 (by decide)
  events := []

theorem octal_genesis_not_conserved :
    Started lockTables.env octalGenesis octalStart ∧ octalGenesis.validatedAmount = some 10 ∧
      outstandingAmount octalStart.store = .ok ⟨8, by decide⟩ ∧
      ¬ Conserved lockTables.env sampleKeeper (fun ledger => ledger.modules moduleName) Set.univ 10
        octalStart [] := by
  have hread : outstandingAmount octalStart.store = .ok ⟨8, by decide⟩ := by decide +kernel
  refine ⟨⟨(GenesisState.validate_eq_ok _ octalGenesis sampleConfig rfl).mpr ⟨lock_config_valid,
    10, 10000, by decide, by decide, by decide, by decide⟩, sampleLedger 8 (by decide), ?_⟩,
    by decide, hread, ?_⟩
  · rw [initGenesis_eq_ok lockTables.env octalGenesis sampleConfig _ _ rfl]
    exact ⟨lock_config_valid, ⟨8, by decide⟩, by decide, rfl⟩
  · intro h
    obtain ⟨amount, hamount, -, hsum⟩ := h.outstanding
    obtain rfl : (⟨8, by decide⟩ : SdkInt) = amount := by simpa [hread] using hamount
    simp [mintedIn, burnedIn, Run.accepted] at hsum

end PosChain.Bridge
