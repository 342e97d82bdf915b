import PosChain.Bridge.Steps

namespace PosChain.Bridge

structure GenesisState where
  routeConfig : Option RouteConfig
  paused : Bool
  outstandingAmount : String
  outboundNonce : UInt64
  deriving DecidableEq, Repr

def defaultGenesisState : GenesisState :=
  ⟨none, false, "", 0⟩

section Genesis

variable {Bank : Type} (env : Env Bank)

def GenesisState.validate (g : GenesisState) : Check Unit :=
  match g.routeConfig with
  | none =>
    failIf (g.paused || g.outstandingAmount != "" || g.outboundNonce != 0)
      "bridge state requires a route configuration"
  | some config => do
    config.validate env
    if g.outstandingAmount == "" then pure ()
    else do
      let outstanding ← orFail (BigInt.setString g.outstandingAmount 10)
        (.error "invalid bridge outstanding amount")
      failIf (outstanding < 0) "invalid bridge outstanding amount"
      let limit ← orFail (BigInt.setString config.maxOutstandingAmount 10) nilDereference
      failIf (limit < outstanding) "bridge outstanding amount exceeds route limit"

-- Genesis import and export raise every error as a panic.
def initGenesis (state : GenesisState) : Action (State Bank) Unit :=
  match state.routeConfig with
  | none => pure ()
  | some config => do
    must (config.validate env)
    writeStore (·.set routeConfigKey config.encode)
    runIf state.paused (writeStore (·.set routeStateKey (RouteState.encode ⟨true⟩)))
    runIf (state.outstandingAmount != "") do
      let amount ← orFail (SdkInt.newIntFromString state.outstandingAmount)
        (.panic "invalid bridge outstanding amount")
      setOutstandingAmount amount
    runIf (state.outboundNonce != 0)
      (writeStore (·.set keyOutboundNonce (Bytes.putUint64 state.outboundNonce)))

def exportGenesis (store : KVStore) : Check GenesisState := do
  match ← must (getRouteConfig env store) with
  | none => return defaultGenesisState
  | some config =>
    let state ← must (getRouteState store)
    let outstanding ← outstandingAmount store
    return { routeConfig := some config, paused := state.paused,
             outstandingAmount := outstanding.toText, outboundNonce := outboundNonce store }

end Genesis

section Import

variable {Bank : Type} (env : Env Bank)

-- What an import takes the outstanding amount for: an empty text is zero.
def GenesisState.importedAmount (g : GenesisState) : Option SdkInt :=
  if g.outstandingAmount = "" then some SdkInt.zeroInt
  else SdkInt.newIntFromString g.outstandingAmount

def GenesisState.validatedAmount (g : GenesisState) : Option Int :=
  if g.outstandingAmount = "" then some 0 else BigInt.setString g.outstandingAmount 10

structure GenesisState.Valid (g : GenesisState) (config : RouteConfig) : Prop where
  config_valid : config.validate env = .ok ()
  amount : ∃ outstanding limit : Int, g.validatedAmount = some outstanding ∧ 0 ≤ outstanding ∧
    BigInt.setString config.maxOutstandingAmount 10 = some limit ∧ outstanding ≤ limit

theorem GenesisState.validate_eq_ok (g : GenesisState) (config : RouteConfig)
    (hg : g.routeConfig = some config) : g.validate env = .ok () ↔ g.Valid env config := by
  simp only [GenesisState.validate, hg, Check.bind_eq_ok]
  constructor
  · rintro ⟨⟨⟩, hvalid, hrest⟩
    refine ⟨hvalid, ?_⟩
    obtain ⟨limit, hlimit, hpos⟩ := RouteConfig.maxOutstandingAmount_ok hvalid
    by_cases he : g.outstandingAmount = ""
    · exact ⟨0, limit, by simp [validatedAmount, he], le_refl _, hlimit, hpos.le⟩
    · simp only [beq_iff_eq, he, if_false, Check.bind_eq_ok, orFail_eq_ok, failIf_eq_ok,
        exists_const, decide_eq_false_iff_not, not_lt] at hrest
      obtain ⟨outstanding, hamount, hn, limit', hlimit', hle⟩ := hrest
      exact ⟨outstanding, limit', by simp [validatedAmount, he, hamount], hn, hlimit', hle⟩
  · rintro ⟨hvalid, outstanding, limit, hamount, hn, hlimit, hle⟩
    refine ⟨(), hvalid, ?_⟩
    by_cases he : g.outstandingAmount = ""
    · simp [he, pure, Except.pure]
    · simp only [validatedAmount, he, if_false] at hamount
      simp only [beq_iff_eq, he, if_false, Check.bind_eq_ok, orFail_eq_ok, failIf_eq_ok,
        exists_const, decide_eq_false_iff_not, not_lt]
      exact ⟨outstanding, hamount, hn, limit, hlimit, hle⟩

-- The store that an import writes, one function for each part of the state.
def suspendedStore (g : GenesisState) (store : KVStore) : KVStore :=
  if g.paused then store.set routeStateKey (RouteState.encode ⟨true⟩) else store

def fundedStore (g : GenesisState) (amount : SdkInt) (store : KVStore) : KVStore :=
  if g.outstandingAmount != "" then putOutstandingAmount amount store else store

def numberedStore (g : GenesisState) (store : KVStore) : KVStore :=
  if g.outboundNonce != 0 then store.set keyOutboundNonce (Bytes.putUint64 g.outboundNonce) else store

def genesisStore (g : GenesisState) (config : RouteConfig) (amount : SdkInt) (store : KVStore) :
    KVStore :=
  numberedStore g (fundedStore g amount (suspendedStore g (store.set routeConfigKey config.encode)))

theorem initGenesis_eq_ok (g : GenesisState) (config : RouteConfig) (s t : State Bank)
    (hg : g.routeConfig = some config) :
    (initGenesis env g).run s = .ok () t ↔
      config.validate env = .ok () ∧ ∃ amount, g.importedAmount = some amount ∧
        t = { s with store := genesisStore g config amount s.store } := by
  simp only [initGenesis, hg, writeStore, setOutstandingAmount, run_lift_bind, run_modify_bind,
    run_bind_eq_ok (runIf _ _), run_runIf_eq_ok, run_modify_eq_ok, must_eq_ok, orFail_eq_ok,
    Unique.exists_iff]
  by_cases he : g.outstandingAmount = ""
  all_goals by_cases hn : g.outboundNonce = 0
  all_goals cases hp : g.paused
  all_goals simp [genesisStore, numberedStore, fundedStore, suspendedStore,
    GenesisState.importedAmount, he, hn, hp, eq_comm (a := t)]

theorem route_empty : route env KVStore.empty =
    ⟨none, false, 0, 0, fun _ => 0, fun _ => false, fun _ => false, fun _ => false⟩ := by
  simp [route, getRouteConfig, getRouteState, outboundNonce, isProcessed, Bytes.toNat, pure,
    Except.pure]

theorem route_genesisStore (g : GenesisState) (config : RouteConfig) (amount : SdkInt)
    (hv : config.validate env = .ok ()) (ha : g.importedAmount = some amount) (hn : 0 ≤ amount.value) :
    route env (genesisStore g config amount KVStore.empty) =
      ⟨some config, g.paused, amount.value.toNat, g.outboundNonce, fun _ => 0, fun _ => false,
        fun _ => false, fun _ => false⟩ := by
  have hsuspended (store : KVStore) (hs : (route env store).paused = false) :
      route env (suspendedStore g store) = { route env store with paused := g.paused } := by
    unfold suspendedStore
    split
    case isTrue hp => rw [route_setState, hp]
    case isFalse hp =>
      have hfalse : g.paused = false := by simpa using hp
      rw [hfalse, ← hs]
  have hfunded (store : KVStore) (hs : (route env store).outstanding = 0) :
      route env (fundedStore g amount store) =
        { route env store with outstanding := amount.value.toNat } := by
    unfold fundedStore
    split
    case isTrue he => rw [route_putOutstandingAmount env _ _ hn]
    case isFalse he =>
      have hempty : g.outstandingAmount = "" := by simpa using he
      obtain rfl : SdkInt.zeroInt = amount := by
        simpa [GenesisState.importedAmount, hempty] using ha
      change route env store = { route env store with outstanding := 0 }
      rw [← hs]
  have hnumbered (store : KVStore) (hs : (route env store).nonce = 0) :
      route env (numberedStore g store) = { route env store with nonce := g.outboundNonce } := by
    unfold numberedStore
    split
    case isTrue => rw [route_setNonce]
    case isFalse hz =>
      have hzero : g.outboundNonce = 0 := by simpa using hz
      rw [hzero, ← hs]
  have hconfig := route_setConfig env KVStore.empty config hv
  rw [route_empty] at hconfig
  have hs := hsuspended _ (congrArg Route.paused hconfig)
  rw [hconfig] at hs
  have hf := hfunded _ (congrArg Route.outstanding hs)
  rw [hs] at hf
  have hn' := hnumbered _ (congrArg Route.nonce hf)
  rw [hf] at hn'
  exact hn'

-- Validation and import read the amount of a genesis with two readers, which
-- agree unless the text has a leading zero and is at least eight.
theorem GenesisState.importedAmount_nonneg {g : GenesisState} {outstanding : Int} {amount : SdkInt}
    (hv : g.validatedAmount = some outstanding) (hn : 0 ≤ outstanding)
    (ha : g.importedAmount = some amount) : 0 ≤ amount.value := by
  by_cases he : g.outstandingAmount = ""
  · obtain rfl : SdkInt.zeroInt = amount := by simpa [importedAmount, he] using ha
    exact le_refl _
  · simp only [validatedAmount, importedAmount, he, if_false,
      SdkInt.newIntFromString_eq_some] at hv ha
    exact BigInt.setString_nonneg _ _ _ hv ha hn

theorem GenesisState.importedAmount_eq_iff {g : GenesisState} {outstanding : Int} {amount : SdkInt}
    (hv : g.validatedAmount = some outstanding) (hn : 0 ≤ outstanding) (ha : g.importedAmount = some amount) :
    amount.value = outstanding ↔ ¬ BigInt.LeadingZero g.outstandingAmount ∨ outstanding < 8 := by
  by_cases he : g.outstandingAmount = ""
  · obtain rfl : SdkInt.zeroInt = amount := by simpa [importedAmount, he] using ha
    obtain rfl : 0 = outstanding := by simpa [validatedAmount, he] using hv
    exact iff_of_true rfl (Or.inr (by decide))
  · simp only [validatedAmount, importedAmount, he, if_false,
      SdkInt.newIntFromString_eq_some] at hv ha
    rw [BigInt.setString_agree_iff _ _ _ hv ha]
    have habs : outstanding.natAbs < 8 ↔ outstanding < 8 := by omega
    rw [habs]

end Import

-- A chain starts from a genesis that validates, imported into an empty store.
structure Started {Bank : Type} (env : Env Bank) (g : GenesisState) (s : State Bank) : Prop where
  valid : g.validate env = .ok ()
  imported : ∃ bank, (initGenesis env g).run ⟨KVStore.empty, bank, []⟩ = .ok () s

def Reachable {Bank : Type} (env : Env Bank) (keeper : Keeper) : State Bank → Prop :=
  Run.Reachable (deliver env keeper) fun s => ∃ g, Started env g s

section Started

variable {Bank : Type} {env : Env Bank}

theorem Started.cases {g : GenesisState} {s : State Bank} (h : Started env g s) :
    (g.routeConfig = none ∧ s.store = KVStore.empty) ∨
      ∃ config amount, g.routeConfig = some config ∧ g.Valid env config ∧
        g.importedAmount = some amount ∧ 0 ≤ amount.value ∧
        s.store = genesisStore g config amount KVStore.empty := by
  obtain ⟨bank, himport⟩ := h.imported
  cases hg : g.routeConfig with
  | none =>
    simp only [initGenesis, hg, run_pure_eq_ok, true_and] at himport
    exact Or.inl ⟨rfl, by rw [← himport]⟩
  | some config =>
    have hvalid := (GenesisState.validate_eq_ok env g config hg).mp h.valid
    obtain ⟨-, amount, hamount, rfl⟩ := (initGenesis_eq_ok env g config _ s hg).mp himport
    obtain ⟨outstanding, limit, hread, hn, -⟩ := hvalid.amount
    exact Or.inr ⟨config, amount, rfl, hvalid, hamount,
      GenesisState.importedAmount_nonneg hread hn hamount, rfl⟩

end Started

end PosChain.Bridge
