import PosChain.Bridge.Invariant
import PosChain.Bridge.Replay

namespace PosChain.Bridge

section Views

variable {Bank : Type} (env : Env Bank)

def Approved (digest : Check Hash) (config : RouteConfig) (signatures : List Bytes) : Prop :=
  ∃ value, digest = .ok value ∧ Quorum env value config.bridgeSigners signatures

def Minted (s t : State Bank) : Prop :=
  ∃ denom, (env.bank.getSupply s.bank denom).value < (env.bank.getSupply t.bank denom).value

def Closed (s : State Bank) : Prop :=
  ∀ config, (route env s.store).config = some config → config.enabled = true →
    (route env s.store).paused = true

def SameValue (s t : State Bank) : Prop :=
  (∀ denom, env.bank.getSupply t.bank denom = env.bank.getSupply s.bank denom) ∧
    (route env t.store).outstanding = (route env s.store).outstanding ∧
    (route env t.store).nonce = (route env s.store).nonce ∧
    (route env t.store).usage = (route env s.store).usage ∧
    (route env t.store).settled = (route env s.store).settled

-- Who has to agree to a step of the message server.
structure Authorised (s : State Bank) (call : Call) (t : State Bank) : Prop where
  mint : Minted env s t → ∃ req config, call.msg = .submitAttestation req ∧
    (route env s.store).config = some config ∧
    Approved env (signingDigest env req.attestation) config req.signatures
  config : (route env t.store).config ≠ (route env s.store).config →
    (∃ req, call.msg = .initializeRouteConfig req ∧ s.store = KVStore.empty ∧
      (route env t.store).config = some req.routeConfig) ∨
    ∃ req current, call.msg = .updateRouteConfig req ∧ (route env s.store).config = some current ∧
      (route env t.store).config = some req.routeConfig ∧
      Approved env (controlDigest env (req.action (Ethereum.hashHex (updatePayload env req.routeConfig))))
        current req.signatures ∧
      req.notBeforeUnix ≤ call.ctx.blockTime ∧ call.ctx.blockTime < req.expiresUnix
  resume : (route env s.store).paused = true → (route env t.store).paused = false →
    ∃ req config, call.msg = .resumeRoute req ∧ (route env s.store).config = some config ∧
      Approved env (controlDigest env (req.action (Ethereum.hashHex (resumePayload env config))))
        config req.signatures
  closed : Closed env s → SameValue env s t

def KeepsRouteID (s t : State Bank) : Prop :=
  ∀ config, (route env s.store).config = some config →
    ∃ next, (route env t.store).config = some next ∧ next.routeID = config.routeID

end Views

section Authorised

variable {Bank : Type} {env : Env Bank} {keeper : Keeper} {ctx : Context}

theorem Available.not_closed {s : State Bank} {config : RouteConfig}
    (found : getRouteConfig env s.store = .ok (some config))
    (available : Available env s.store config) : ¬ Closed env s := by
  intro h
  have hpaused := h config (config_of_found env found) available.enabled
  rw [paused_of_read env available.running] at hpaused
  cases hpaused

theorem not_minted_of_bank {s t : State Bank} (h : t.bank = s.bank) : ¬ Minted env s t := by
  rintro ⟨denom, hlt⟩
  rw [h] at hlt
  exact lt_irrefl _ hlt

theorem Burning.Holds.not_minted (hl : env.bank.Lawful moduleName) {w : Burning Bank}
    {s t : State Bank} {config : RouteConfig} {sender : AccAddress} {destination amountText : String}
    (h : w.Holds env keeper ctx s config sender destination amountText) (ht : t.bank = w.burned) :
    ¬ Minted env s t := by
  rintro ⟨denom, hlt⟩
  have hcoin : 0 ≤ BankKeeper.amountOf ⟨w.settlement.nativeDenom, w.amount⟩ denom := by
    unfold BankKeeper.amountOf
    split
    · exact h.amount_pos.le
    · exact le_refl _
  rw [ht, h.supply hl] at hlt
  omega

-- One case for each handler.
theorem Accepted.authorised (hl : env.bank.Lawful moduleName) {s t : State Bank} {msg : Msg}
    {response : Response} (h : Accepted env keeper ctx s msg response t)
    (hs : WellFormed env s.store) : Authorised env s ⟨ctx, msg⟩ t := by
  cases h with
  | initialized req authorised valid absent =>
    have hempty : s.store = KVStore.empty := by
      rcases hs.config with hempty | ⟨config, found⟩
      · exact hempty
      · rw [found] at absent
        cases absent
    refine ⟨fun h => absurd h (not_minted_of_bank rfl), fun _ => Or.inl ⟨req, rfl, hempty, ?_⟩, ?_, ?_⟩
    · simp [route_setConfig env _ _ valid]
    · intro _ hpaused
      simp at hpaused
    · simp [SameValue, route_setConfig env _ _ valid]
  | paused req config id found checked =>
    refine ⟨fun h => absurd h (not_minted_of_bank rfl), fun h => absurd (by simp) h, ?_, ?_⟩
    · intro _ hpaused
      simp at hpaused
    · simp [SameValue]
  | resumed req config id found checked suspended =>
    refine ⟨fun h => absurd h (not_minted_of_bank rfl), fun h => absurd (by simp) h, ?_, ?_⟩
    · intro _ _
      exact ⟨req, config, rfl, config_of_found env found, checked.approved⟩
    · simp [SameValue]
  | updated req current id found checked valid same =>
    refine ⟨fun h => absurd h (not_minted_of_bank rfl), ?_, ?_, ?_⟩
    · intro _
      refine Or.inr ⟨req, current, rfl, config_of_found env found, ?_, checked.approved,
        checked.active.1, checked.active.2⟩
      simp [route_setConfig env _ _ valid]
    · intro hbefore hafter
      simp [route_setConfig env _ _ valid, hbefore] at hafter
    · simp [SameValue, route_setConfig env _ _ valid]
  | settled req config id written w found inbound admitted holds =>
    have hroute := route_settledStore ctx holds id written
    refine ⟨?_, ?_, ?_, ?_⟩
    · intro _
      exact ⟨req, config, rfl, config_of_found env found, admitted.approved⟩
    · intro h
      exact absurd (congrArg Route.config hroute) h
    · intro hbefore hafter
      rw [hroute, hbefore] at hafter
      cases hafter
    · intro hclosed
      exact absurd hclosed (admitted.limited.available.not_closed found)
  | burned req config sender id w found same sender_eq holds id_eq =>
    have hroute := route_outboundStore holds
    refine ⟨fun h => absurd h (holds.not_minted hl rfl), ?_, ?_, ?_⟩
    · intro h
      exact absurd (congrArg Route.config hroute) h
    · intro hbefore hafter
      rw [hroute, hbefore] at hafter
      cases hafter
    · intro hclosed
      exact absurd hclosed (holds.limited.available.not_closed found)

theorem RouteStep.keepsRouteID {s t : State Bank} {msg : Msg}
    (h : RouteStep env ctx (route env s.store) msg (route env t.store)) : KeepsRouteID env s t := by
  intro config hconfig
  generalize route env s.store = r at h hconfig
  generalize route env t.store = next at h
  cases h with
  | configure req absent =>
    rw [absent] at hconfig
    cases hconfig
  | update req current id found same fresh =>
    obtain rfl : current = config := by simpa [found] using hconfig
    exact ⟨_, rfl, same⟩
  | _ => exact ⟨config, hconfig, rfl⟩

theorem run_keepsRouteID (s : State Bank) (calls : List Call) :
    KeepsRouteID env s (Run.run (deliver env keeper) s calls) := by
  apply Run.run_invariant (fun t => KeepsRouteID env s t)
  · intro t call response next h ih config hconfig
    obtain ⟨middle, hmiddle, hid⟩ := ih config hconfig
    obtain ⟨last, hlast, hid'⟩ := (deliver_routeStep h).keepsRouteID middle hmiddle
    exact ⟨last, hlast, hid'.trans hid⟩
  · intro config hconfig
    exact ⟨config, hconfig, rfl⟩

end Authorised

-- In every reachable state each accepted message is authorised as its effect
-- demands, and no later run changes the route.
theorem reachable_authorised {Bank : Type} (env : Env Bank) (keeper : Keeper) (hl : env.bank.Lawful moduleName)
    (s : State Bank) (hs : Reachable env keeper s) :
    (∀ call response t, deliver env keeper s call = some (response, t) → Authorised env s call t) ∧
      ∀ calls, KeepsRouteID env s (Run.run (deliver env keeper) s calls) := by
  refine ⟨?_, run_keepsRouteID s⟩
  intro call response t h
  exact (deliver_accepted h).authorised hl hs.wellFormed

-- A settlement from a fresh genesis raises the supply; two signers of the
-- stored configuration have signed it.
theorem lock_settlement_authorised :
    Minted lockTables.env lockState lockedState ∧
      Authorised lockTables.env lockState lockCall lockedState := by
  obtain ⟨response, haccepted⟩ := lock_accepted
  have hreachable : Reachable lockTables.env sampleKeeper lockState :=
    ⟨lockState, [], ⟨lockGenesis, lock_started⟩, rfl⟩
  refine ⟨⟨"axtc", by decide +kernel⟩, ?_⟩
  exact (reachable_authorised lockTables.env sampleKeeper (Ledger.bank_lawful _) lockState
    hreachable).1 lockCall response lockedState haccepted

-- A paused route moves no value until it is resumed.
theorem paused_until_resumed {Bank : Type} (env : Env Bank) (keeper : Keeper) (hl : env.bank.Lawful moduleName)
    (s : State Bank) (hs : Reachable env keeper s) (hpaused : (route env s.store).paused = true)
    (calls : List Call) :
    (∃ entry ∈ Run.accepted (deliver env keeper) s calls, ∃ req, entry.1.msg = .resumeRoute req) ∨
      (route env (Run.run (deliver env keeper) s calls).store).paused = true ∧
        SameValue env s (Run.run (deliver env keeper) s calls) := by
  refine (Run.run_history (fun t log => Reachable env keeper t ∧
    ((∃ entry ∈ log, ∃ req, entry.1.msg = .resumeRoute req) ∨
      (route env t.store).paused = true ∧ SameValue env s t)) ?_ s calls []
    ⟨hs, .inr ⟨hpaused, fun _ => rfl, rfl, rfl, rfl, rfl⟩⟩).2
  rintro t log call response next h ⟨hreach, ⟨entry, hentry, hresume⟩ | ⟨hclosed, hsame⟩⟩
  · exact ⟨hreach.next h, .inl ⟨entry, List.mem_append_left _ hentry, hresume⟩⟩
  · have hauth := (deliver_accepted h).authorised hl hreach.wellFormed
    refine ⟨hreach.next h, ?_⟩
    cases hafter : (route env next.store).paused with
    | false =>
      obtain ⟨req, config, hmsg, -⟩ := hauth.resume hclosed hafter
      exact .inl ⟨_, List.mem_append_right _ (List.mem_singleton_self _), req, hmsg⟩
    | true =>
      obtain ⟨hsupply, hamount, hnonce, husage, hsettled⟩ := hauth.closed fun _ _ _ => hclosed
      exact .inr ⟨rfl, fun denom => (hsupply denom).trans (hsame.1 denom), hamount.trans hsame.2.1,
        hnonce.trans hsame.2.2.1, husage.trans hsame.2.2.2.1, hsettled.trans hsame.2.2.2.2⟩

-- The settlement that two signers have signed moves nothing on a route that starts paused.
def pausedGenesis : GenesisState :=
  ⟨some sampleConfig, true, "", 0⟩

def pausedStart : State Ledger where
  store := genesisStore pausedGenesis sampleConfig .zeroInt KVStore.empty
  bank := lockState.bank
  events := []

theorem paused_lock_moves_nothing :
    SameValue lockTables.env pausedStart (Run.run (deliver lockTables.env sampleKeeper) pausedStart [lockCall]) := by
  have hstarted : Started lockTables.env pausedGenesis pausedStart := by
    refine ⟨(GenesisState.validate_eq_ok _ pausedGenesis sampleConfig rfl).mpr ⟨lock_config_valid,
      0, 10000, rfl, by decide, by decide, by decide⟩, lockState.bank, ?_⟩
    rw [initGenesis_eq_ok lockTables.env pausedGenesis sampleConfig _ _ rfl]
    exact ⟨lock_config_valid, .zeroInt, rfl, rfl⟩
  have hroute := route_genesisStore lockTables.env pausedGenesis sampleConfig .zeroInt lock_config_valid
    (by decide) (by decide)
  rcases paused_until_resumed lockTables.env sampleKeeper (Ledger.bank_lawful _) pausedStart
    ⟨pausedStart, [], ⟨pausedGenesis, hstarted⟩, rfl⟩ (congrArg Route.paused hroute) [lockCall] with
    ⟨entry, hentry, req, hmsg⟩ | ⟨-, hsame⟩
  · have hcall : entry.1 = lockCall := by simpa using Run.mem_of_mem_accepted _ _ _ hentry
    rw [hcall] at hmsg
    cases hmsg
  · exact hsame

end PosChain.Bridge
