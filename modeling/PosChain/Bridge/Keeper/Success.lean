import PosChain.Bridge.Keeper.Theorems

namespace PosChain.Bridge

-- What a successful keeper call has checked, and the store it leaves behind.
section Success

variable {Bank : Type} (env : Env Bank) (keeper : Keeper) (ctx : Context)

structure Available (store : KVStore) (config : RouteConfig) : Prop where
  valid : config.validate env = .ok ()
  enabled : config.enabled = true
  running : getRouteState store = .ok ⟨false⟩

theorem requireRouteAvailable_ok (store : KVStore) (config : RouteConfig)
    (h : requireRouteAvailable env store config = .ok ()) : Available env store config := by
  simp only [requireRouteAvailable, Check.bind_eq_ok, failIf_eq_ok, Bool.not_eq_false',
    exists_const] at h
  obtain ⟨⟨⟩, hvalid, henabled, ⟨paused⟩, hstate, hpaused⟩ := h
  subst hpaused
  exact ⟨hvalid, henabled, hstate⟩

structure Limited (store : KVStore) (config : RouteConfig) (amountText : String) (amount : Int) :
    Prop where
  available : Available env store config
  amount_eq : BigInt.setString amountText 10 = some amount
  amount_pos : 0 < amount
  below_transfer : ∃ limit, BigInt.setString config.maxTransferAmount 10 = some limit ∧ amount ≤ limit
  below_daily : ∃ limit, BigInt.setString config.dailyLimit 10 = some limit ∧
    (dailyUsage env ctx store config.routeID : Int) + amount ≤ limit

def recordUsage (config : RouteConfig) (amount : Int) (store : KVStore) : KVStore :=
  store.set (dailyUsageKey env config.routeID ctx.blockTime)
    (Bytes.ofNat (dailyUsage env ctx store config.routeID + amount.toNat))

@[simp] theorem route_recordUsage (config : RouteConfig) (amount : Int) (store : KVStore) :
    route env (recordUsage env ctx config amount store) =
      { route env store with
        usage := Function.update (route env store).usage (usageIndex env config.routeID ctx.blockTime)
          (dailyUsage env ctx store config.routeID + amount.toNat) } := by
  rw [recordUsage, dailyUsageKey, route_setUsage]

theorem checkAndRecordLimits_ok (config : RouteConfig) (amountText : String) (s t : State Bank)
    (h : (checkAndRecordLimits env ctx config amountText).run s = .ok () t) :
    ∃ amount, Limited env ctx s.store config amountText amount ∧
      t = { s with store := recordUsage env ctx config amount s.store } := by
  simp only [checkAndRecordLimits, writeStore, run_get_bind, run_lift_bind, run_modify_eq_ok,
    failIf_eq_ok, orFail_eq_ok, exists_const, decide_eq_false_iff_not, not_le, not_lt] at h
  obtain ⟨⟨⟩, havailable, amount, hamount, hpos, maxTransfer, hmax, hle, dailyLimit, hdaily, hbelow,
    rfl⟩ := h
  refine ⟨amount, ⟨requireRouteAvailable_ok env _ _ havailable, hamount, hpos, ⟨maxTransfer, hmax, hle⟩,
    ⟨dailyLimit, hdaily, hbelow⟩⟩, ?_⟩
  have habs : ((dailyUsage env ctx s.store config.routeID : Int) + amount).natAbs =
      dailyUsage env ctx s.store config.routeID + amount.toNat := by omega
  rw [habs]
  rfl

structure Admitted (store : KVStore) (config : RouteConfig) (attestation : Attestation)
    (signatures : List Bytes) (id : Hash) (amount : Int) : Prop where
  route : attestation.routeID = config.routeID
  valid : attestation.validate env = .ok ()
  in_time : ctx.blockTime ≤ attestation.deadlineUnix
  approved : ∃ digest, signingDigest env attestation = .ok digest ∧
    Quorum env digest config.bridgeSigners signatures
  id_eq : attestation.id env = .ok id
  fresh : isProcessed store id = false
  limited : Limited env ctx store config attestation.amount amount

theorem admitAttestation_ok (config : RouteConfig) (attestation : Attestation)
    (signatures : List Bytes) (s t : State Bank) (id : Hash)
    (h : (admitAttestation env ctx config attestation signatures).run s = .ok id t) :
    ∃ amount, Admitted env ctx s.store config attestation signatures id amount ∧
      t = { s with store := (recordUsage env ctx config amount s.store).set (processedKey id) [1] } := by
  simp only [admitAttestation, markProcessed, writeStore, Attestation.validateAt, run_get_bind,
    run_lift_bind, run_bind_eq_ok (checkAndRecordLimits env ctx config attestation.amount),
    run_modify_bind, run_pure_eq_ok, Check.bind_eq_ok, failIf_eq_ok, exists_const,
    bne_eq_false_iff_eq, decide_eq_false_iff_not] at h
  obtain ⟨⟨⟩, -, hroute, ⟨⟩, -, ⟨⟨⟩, hvalid, htime⟩, approvers, happrovers, _, hid, hfresh, ⟨⟩, r,
    hlimits, rfl, rfl⟩ := h
  obtain ⟨amount, hlimited, rfl⟩ := checkAndRecordLimits_ok env ctx config attestation.amount s r hlimits
  exact ⟨amount, ⟨hroute, hvalid, Int64.not_lt.mp htime, verifyQuorum_ok env _ _ _ _ happrovers, hid,
    hfresh, hlimited⟩, rfl⟩

structure Paused (store : KVStore) (config : RouteConfig) (action : GuardianPauseAction)
    (signature : Bytes) (id : Hash) : Prop where
  config_valid : config.validate env = .ok ()
  route : action.routeID = config.routeID
  in_time : ctx.blockTime < action.expiresUnix
  id_eq : action.id env = .ok id
  fresh : store.has (processedPauseKey id) = false
  approved : ∃ guardian, verifyGuardianPause env action config.guardian signature = .ok guardian
  running : getRouteState store = .ok ⟨false⟩

theorem pauseRoute_ok (config : RouteConfig) (action : GuardianPauseAction) (signature : Bytes)
    (s t : State Bank) (h : (pauseRoute env ctx config action signature).run s = .ok () t) :
    ∃ id, Paused env ctx s.store config action signature id ∧
      t = { s with
        store := (s.store.set routeStateKey (RouteState.encode ⟨true⟩)).set (processedPauseKey id) [1] } := by
  simp only [pauseRoute, writeStore, run_get_bind, run_lift_bind, run_modify_bind, run_modify_eq_ok,
    failIf_eq_ok, exists_const, bne_eq_false_iff_eq, decide_eq_false_iff_not] at h
  obtain ⟨⟨⟩, hconfig, hroute, ⟨⟩, -, htime, id, hid, hfresh, guardian, happroved, ⟨paused⟩, hstate,
    hpaused, rfl⟩ := h
  subst hpaused
  exact ⟨id, ⟨hconfig, hroute, Int64.not_le.mp htime, hid, hfresh, ⟨guardian, happroved⟩, hstate⟩, rfl⟩

-- The part that resuming a route and updating its configuration share: an
-- active control action that two current signers have approved.
structure Controlled (store : KVStore) (config : RouteConfig) (action : ControlAction)
    (signatures : List Bytes) (id : Hash) : Prop where
  config_valid : config.validate env = .ok ()
  route : action.routeID = config.routeID
  active : action.notBeforeUnix ≤ ctx.blockTime ∧ ctx.blockTime < action.expiresUnix
  id_eq : action.id env = .ok id
  fresh : store.has (processedControlKey id) = false
  approved : ∃ digest, controlDigest env action = .ok digest ∧
    Quorum env digest config.bridgeSigners signatures

theorem resumeRoute_ok (config : RouteConfig) (action : ControlAction) (signatures : List Bytes)
    (s t : State Bank) (h : (resumeRoute env ctx config action signatures).run s = .ok () t) :
    ∃ id, Controlled env ctx s.store config action signatures id ∧
      getRouteState s.store = .ok ⟨true⟩ ∧
      t = { s with
        store := (s.store.set routeStateKey (RouteState.encode ⟨false⟩)).set (processedControlKey id) [1] } := by
  simp only [resumeRoute, writeStore, run_get_bind, run_lift_bind, run_modify_bind, run_modify_eq_ok,
    failIf_eq_ok, exists_const, Bool.or_eq_false_iff, bne_eq_false_iff_eq, decide_eq_false_iff_not,
    Bool.not_eq_false'] at h
  obtain ⟨⟨⟩, hconfig, ⟨-, hroute⟩, ⟨⟩, -, hactive, ⟨paused⟩, hstate, hpaused, -, -, -, id, hid, hfresh,
    approvers, happroved, rfl⟩ := h
  subst hpaused
  exact ⟨id, ⟨hconfig, hroute, ⟨Int64.not_lt.mp hactive.1, Int64.not_le.mp hactive.2⟩, hid, hfresh,
    verifyQuorum_ok env _ _ _ _ happroved⟩, hstate, rfl⟩

theorem applyRouteConfigUpdate_ok (current : RouteConfig) (action : ControlAction)
    (next : RouteConfig) (signatures : List Bytes) (s t : State Bank)
    (h : (applyRouteConfigUpdate env ctx current action next signatures).run s = .ok () t) :
    ∃ id, Controlled env ctx s.store current action signatures id ∧ next.validate env = .ok () ∧
      next.routeID = current.routeID ∧
      t = { s with
        store := (s.store.set routeConfigKey next.encode).set (processedControlKey id) [1] } := by
  simp only [applyRouteConfigUpdate, setRouteConfig, writeStore, run_get_bind, run_lift_bind,
    bind_assoc, run_modify_bind, run_modify_eq_ok, failIf_eq_ok, exists_const, Bool.or_eq_false_iff,
    bne_eq_false_iff_eq, decide_eq_false_iff_not, Bool.not_eq_false'] at h
  obtain ⟨⟨⟩, hconfig, ⟨⟩, hnext, ⟨⟨-, hroute⟩, hsame⟩, ⟨⟩, -, hactive, -, -, -, id, hid, hfresh, approvers,
    happroved, ⟨⟩, -, rfl⟩ := h
  exact ⟨id, ⟨hconfig, hroute, ⟨Int64.not_lt.mp hactive.1, Int64.not_le.mp hactive.2⟩, hid, hfresh,
    verifyQuorum_ok env _ _ _ _ happroved⟩, hnext, hsame, rfl⟩

theorem withBank_eq_ok (action : Action Bank Unit) (s t : State Bank) (u : Unit) :
    (withBank action).run s = .ok u t ↔
      ∃ bank, action.run s.bank = .ok () bank ∧ { s with bank } = t := by
  rw [withBank, run_onPart_eq_ok]
  simp only [eq_comm]

-- The values of an inbound settlement. The amount is read from the text with a
-- base taken from its prefix, and so is the limit.
structure Settling (Bank : Type) where
  settlement : Settlement
  recipient : AccAddress
  amount : SdkInt
  before : SdkInt
  after : SdkInt
  limit : SdkInt
  minted : Bank
  paid : Bank

structure Settling.Holds (w : Settling Bank) (s : State Bank) (config : RouteConfig)
    (attestation : Attestation) : Prop where
  settlement_eq : keeper.settlement = some w.settlement
  recipient_eq : env.accAddressFromBech32 (Text.trimSpace attestation.destination) = .ok w.recipient
  amount_eq : SdkInt.newIntFromString attestation.amount = some w.amount
  amount_pos : 0 < w.amount.value
  before_eq : outstandingAmount s.store = .ok w.before
  after_eq : w.after.value = w.before.value + w.amount.value
  limit_eq : SdkInt.newIntFromString config.maxOutstandingAmount = some w.limit
  after_le : w.after.value ≤ w.limit.value
  supply_le : (env.bank.getSupply s.bank w.settlement.nativeDenom).value + w.amount.value ≤
    w.settlement.maxSupply.value
  mint : (env.bank.mintCoins moduleName ⟨w.settlement.nativeDenom, w.amount⟩).run s.bank =
    .ok () w.minted
  pay : (env.bank.sendCoinsFromModuleToAccount moduleName w.recipient
    ⟨w.settlement.nativeDenom, w.amount⟩).run w.minted = .ok () w.paid

theorem settleInbound_ok (config : RouteConfig) (attestation : Attestation) (s t : State Bank)
    (h : (settleInbound env keeper config attestation).run s = .ok () t) :
    ∃ w : Settling Bank, w.Holds env keeper s config attestation ∧
      t = { s with store := putOutstandingAmount w.after s.store, bank := w.paid } := by
  simp only [settleInbound, setOutstandingAmount, writeStore, run_get_bind, run_lift_bind,
    run_bind_eq_ok (withBank _), run_modify_eq_ok, failIf_eq_ok, orFail_eq_ok, passOn_eq_ok,
    mapError_eq_ok, withBank_eq_ok, SdkInt.add_eq_ok, SdkInt.gtNil_eq_ok, SdkInt.gt,
    SdkInt.isPositive, exists_const, Bool.not_eq_false', decide_eq_true_eq, decide_eq_false_iff_not,
    not_lt] at h
  obtain ⟨settlement, hsettlement, -, recipient, hrecipient, amount, hamount, hpos, before, hbefore,
    after, hafter, _, ⟨limit, hlimit, rfl⟩, hle, supply, hsupply, hmax, _, ⟨minted, hmint, rfl⟩, _,
    ⟨paid, hpay, rfl⟩, rfl⟩ := h
  simp only [decide_eq_false_iff_not, not_lt] at hle
  rw [hsupply] at hmax
  exact ⟨⟨settlement, recipient, amount, before, after, limit, minted, paid⟩,
    ⟨hsettlement, hrecipient, hamount, hpos, hbefore, hafter, hlimit, hle, hmax, hmint, hpay⟩, rfl⟩

structure Burning (Bank : Type) where
  settlement : Settlement
  amount : SdkInt
  written : Int
  before : SdkInt
  after : SdkInt
  taken : Bank
  burned : Bank

structure Burning.Holds (w : Burning Bank) (s : State Bank) (config : RouteConfig)
    (sender : AccAddress) (destination amountText : String) : Prop where
  settlement_eq : keeper.settlement = some w.settlement
  destination_valid : Ethereum.isHexAddress (Text.trimSpace destination) = true ∧
    Ethereum.hexToAddress (Text.trimSpace destination) ≠ Ethereum.zeroAddress
  amount_eq : SdkInt.newIntFromString amountText = some w.amount
  amount_pos : 0 < w.amount.value
  limited : Limited env ctx s.store config amountText w.written
  before_eq : outstandingAmount s.store = .ok w.before
  amount_le : w.amount.value ≤ w.before.value
  after_eq : w.after.value = w.before.value - w.amount.value
  take : (env.bank.sendCoinsFromAccountToModule sender moduleName
    ⟨w.settlement.nativeDenom, w.amount⟩).run s.bank = .ok () w.taken
  burn : (env.bank.burnCoins moduleName ⟨w.settlement.nativeDenom, w.amount⟩).run w.taken =
    .ok () w.burned

def outboundStore (config : RouteConfig) (w : Burning Bank) (store : KVStore) : KVStore :=
  putOutstandingAmount w.after ((recordUsage env ctx config w.written store).set keyOutboundNonce
    (Bytes.putUint64 (outboundNonce store + 1)))

theorem outstandingAmount_recordUsage (config : RouteConfig) (amount : Int) (store : KVStore) :
    outstandingAmount (recordUsage env ctx config amount store) = outstandingAmount store := by
  simp [outstandingAmount, recordUsage, dailyUsageKey, keyOutstandingAmount]

theorem outboundNonce_recordUsage (config : RouteConfig) (amount : Int) (store : KVStore) :
    outboundNonce (recordUsage env ctx config amount store) = outboundNonce store := by
  simp [outboundNonce, recordUsage, dailyUsageKey, keyOutboundNonce]

theorem initiateOutboundTransfer_ok (config : RouteConfig) (sender : AccAddress)
    (destination amountText : String) (s t : State Bank) (id : Hash) (nonce : UInt64)
    (h : (initiateOutboundTransfer env keeper ctx config sender destination amountText).run s =
      .ok (id, nonce) t) :
    ∃ w : Burning Bank, w.Holds env keeper ctx s config sender destination amountText ∧
      nonce = outboundNonce s.store + 1 ∧
      id = env.sha256 (Bytes.utf8
        (requestText env config sender (Text.trimSpace destination) w.amount nonce)) ∧
      t = { s with store := outboundStore env ctx config w s.store, bank := w.burned } := by
  simp only [initiateOutboundTransfer, nextOutboundNonce, setOutstandingAmount, writeStore,
    run_get_bind, run_lift_bind, bind_assoc, pure_bind, run_bind_eq_ok (withBank _),
    run_bind_eq_ok (checkAndRecordLimits _ _ _ _), run_modify_bind, run_pure_eq_ok, failIf_eq_ok,
    orFail_eq_ok, withBank_eq_ok, SdkInt.sub_eq_ok, SdkInt.gt, SdkInt.isPositive, exists_const,
    Bool.not_eq_false', Bool.or_eq_false_iff, beq_eq_false_iff_ne, decide_eq_true_eq,
    decide_eq_false_iff_not, not_lt, Prod.mk.injEq] at h
  obtain ⟨settlement, hsettlement, ⟨⟩, -, hdestination, amount, hamount, hpos, ⟨⟩, r, hlimits, before,
    hbefore, hle, _, ⟨taken, htake, rfl⟩, _, ⟨burned, hburn, rfl⟩, after, hafter, ⟨rfl, rfl⟩, rfl⟩ := h
  obtain ⟨written, hlimited, rfl⟩ := checkAndRecordLimits_ok env ctx config amountText s r hlimits
  have hnonce := outboundNonce_recordUsage env ctx config written s.store
  rw [outstandingAmount_recordUsage] at hbefore
  refine ⟨⟨settlement, amount, written, before, after, taken, burned⟩, ⟨hsettlement, hdestination,
    hamount, hpos, hlimited, hbefore, hle, hafter, htake, hburn⟩, ?_, rfl, ?_⟩
  · simp only [hnonce]
  · simp only [outboundStore, hnonce]

end Success

-- The bank side of a settlement and of a burn: the supply moves by the amount
-- and the module account keeps its balance.
section Bank

variable {Bank : Type} {env : Env Bank} {keeper : Keeper} {ctx : Context} {s : State Bank}
  {config : RouteConfig} {held : Bank → String → Int} {payers : Set AccAddress}

theorem Settling.Holds.supply (hl : env.bank.Lawful moduleName) {w : Settling Bank} {attestation : Attestation}
    (h : w.Holds env keeper s config attestation) (denom : String) :
    (env.bank.getSupply w.paid denom).value = (env.bank.getSupply s.bank denom).value +
      BankKeeper.amountOf ⟨w.settlement.nativeDenom, w.amount⟩ denom := by
  rw [hl.pay _ _ _ _ h.pay, hl.mint _ _ _ h.mint]

theorem Settling.Holds.balance (hb : env.bank.Balanced moduleName held payers) {w : Settling Bank}
    {attestation : Attestation}
    (h : w.Holds env keeper s config attestation) (denom : String) :
    held w.paid denom = held s.bank denom := by
  rw [hb.pay _ _ _ _ h.pay, hb.mint _ _ _ h.mint, Int.add_sub_cancel]

theorem Burning.Holds.supply (hl : env.bank.Lawful moduleName) {w : Burning Bank} {sender : AccAddress}
    {destination amountText : String}
    (h : w.Holds env keeper ctx s config sender destination amountText) (denom : String) :
    (env.bank.getSupply w.burned denom).value = (env.bank.getSupply s.bank denom).value -
      BankKeeper.amountOf ⟨w.settlement.nativeDenom, w.amount⟩ denom := by
  rw [hl.burn _ _ _ h.burn, hl.take _ _ _ _ h.take]

theorem Burning.Holds.balance (hb : env.bank.Balanced moduleName held payers) {w : Burning Bank}
    {sender : AccAddress} {destination amountText : String} (hpayer : sender ∈ payers)
    (h : w.Holds env keeper ctx s config sender destination amountText) (denom : String) :
    held w.burned denom = held s.bank denom := by
  rw [hb.burn _ _ _ h.burn, hb.take _ hpayer _ _ _ h.take, Int.add_sub_cancel]

end Bank

end PosChain.Bridge
