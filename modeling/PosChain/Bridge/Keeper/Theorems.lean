import PosChain.Bridge.Keeper
import PosChain.Bridge.Types.Theorems

namespace PosChain.Bridge

-- The typed content of the byte store: what the keeper reads at its eight
-- families of keys. What does not decode reads as absent.
@[ext] structure Route where
  config : Option RouteConfig
  paused : Bool
  outstanding : Nat
  nonce : UInt64
  usage : Bytes → Nat
  settled : Hash → Bool
  controls : Hash → Bool
  pauses : Hash → Bool

section Route

variable {Bank : Type} (env : Env Bank)

def route (store : KVStore) : Route where
  config :=
    match getRouteConfig env store with
    | .ok found => found
    | .error _ => none
  paused :=
    match getRouteState store with
    | .ok state => state.paused
    | .error _ => false
  outstanding := Bytes.toNat (store.get keyOutstandingAmount)
  nonce := outboundNonce store
  usage index := Bytes.toNat (store.get (0x03 :: index))
  settled id := isProcessed store id
  controls id := store.has (processedControlKey id)
  pauses id := store.has (processedPauseKey id)

theorem Hash.ext_bytes {left right : Hash} (h : left.bytes = right.bytes) : left = right := by
  obtain ⟨left, hl⟩ := left
  obtain ⟨right, hr⟩ := right
  subst h
  rfl

theorem getRouteConfig_set (store : KVStore) (config : RouteConfig) (hv : config.validate env = .ok ()) :
    getRouteConfig env (store.set routeConfigKey config.encode) = .ok (some config) := by
  have hne : config.encode.isEmpty = false := by
    simpa using config.encode_ne_nil
  simp only [getRouteConfig, KVStore.get_set, if_true, hne, Bool.false_eq_true, if_false,
    config.decode_encode]
  simp [orFail, hv, bind, Except.bind, pure, Except.pure]

theorem RouteState.decode_encode (state : RouteState) :
    (Json.unmarshal state.encode).bind RouteState.ofJson = some state := by
  obtain ⟨paused⟩ := state
  cases paused <;> decide

theorem getRouteState_set (store : KVStore) (state : RouteState) :
    getRouteState (store.set routeStateKey state.encode) = .ok state := by
  have hne : state.encode.isEmpty = false := by
    obtain ⟨paused⟩ := state
    cases paused <;> decide
  simp [getRouteState, hne, state.decode_encode, orFail]

theorem keys_eq : routeConfigKey = [0x02] ∧ routeStateKey = [0x05] ∧ keyOutstandingAmount = [0x07] ∧
    keyOutboundNonce = [0x08] ∧ ∀ id, processedKey id = 0x01 :: id.bytes ∧
      processedControlKey id = 0x04 :: id.bytes ∧ processedPauseKey id = 0x06 :: id.bytes :=
  ⟨rfl, rfl, rfl, rfl, fun _ => ⟨rfl, rfl, rfl⟩⟩

-- One rule for each kind of write: it changes its own part of the route only.
@[simp] theorem route_setConfig (store : KVStore) (config : RouteConfig) (hv : config.validate env = .ok ()) :
    route env (store.set routeConfigKey config.encode) =
      { route env store with config := some config } := by
  ext1
  · simp [route, getRouteConfig_set env store config hv]
  all_goals simp [route, getRouteState, outboundNonce, isProcessed, keys_eq]

@[simp] theorem route_setState (store : KVStore) (state : RouteState) :
    route env (store.set routeStateKey state.encode) =
      { route env store with paused := state.paused } := by
  ext1
  case paused => simp [route, getRouteState_set store state]
  all_goals simp [route, getRouteConfig, outboundNonce, isProcessed, keys_eq]

@[simp] theorem route_putOutstandingAmount (store : KVStore) (amount : SdkInt) (hn : 0 ≤ amount.value) :
    route env (putOutstandingAmount amount store) =
      { route env store with outstanding := amount.value.toNat } := by
  unfold putOutstandingAmount
  split
  case isTrue hz =>
      have hzero : amount.value = 0 := by simpa [SdkInt.isZero] using hz
      ext1
      case outstanding => simp [route, hzero, Bytes.toNat]
      all_goals simp [route, getRouteConfig, getRouteState, outboundNonce, isProcessed, keys_eq]
  case isFalse hz =>
      ext1
      case outstanding =>
        simp only [route, KVStore.get_set, if_true, Bytes.toNat_ofNat]
        omega
      all_goals simp [route, getRouteConfig, getRouteState, outboundNonce, isProcessed, keys_eq]

@[simp] theorem route_setNonce (store : KVStore) (nonce : UInt64) :
    route env (store.set keyOutboundNonce (Bytes.putUint64 nonce)) =
      { route env store with nonce } := by
  ext1
  case nonce => simp [route, outboundNonce, Bytes.length_putUint64, Bytes.uint64_putUint64]
  all_goals simp [route, getRouteConfig, getRouteState, isProcessed, keys_eq]

@[simp] theorem route_setUsage (store : KVStore) (index : Bytes) (used : Nat) :
    route env (store.set (0x03 :: index) (Bytes.ofNat used)) =
      { route env store with usage := Function.update (route env store).usage index used } := by
  ext1
  case usage =>
    funext other
    by_cases h : other = index
    · subst h
      simp [route, Bytes.toNat_ofNat]
    · simp [route, h, Ne.symm h]
  all_goals simp [route, getRouteConfig, getRouteState, outboundNonce, isProcessed, keys_eq]

theorem mark_eq_update (store : KVStore) (key : Hash → Bytes) (hk : Function.Injective key)
    (id : Hash) : (fun other => (store.set (key id) [1]).has (key other)) =
      Function.update (fun other => store.has (key other)) id true := by
  funext other
  by_cases h : other = id
  · subst h
    simp
  · have hne : key id ≠ key other := fun he => h (hk he).symm
    simp [h, hne]

theorem tagged_injective (tag : UInt8) : Function.Injective fun id : Hash => tag :: id.bytes :=
  fun _ _ h => Hash.ext_bytes (List.cons.inj h).2

@[simp] theorem route_markSettled (store : KVStore) (id : Hash) :
    route env (store.set (processedKey id) [1]) =
      { route env store with settled := Function.update (route env store).settled id true } := by
  ext1
  case settled => exact mark_eq_update store processedKey (tagged_injective _) id
  all_goals simp [route, getRouteConfig, getRouteState, outboundNonce, keys_eq]

@[simp] theorem route_markControl (store : KVStore) (id : Hash) :
    route env (store.set (processedControlKey id) [1]) =
      { route env store with controls := Function.update (route env store).controls id true } := by
  ext1
  case controls => exact mark_eq_update store processedControlKey (tagged_injective _) id
  all_goals simp [route, getRouteConfig, getRouteState, outboundNonce, isProcessed, keys_eq]

@[simp] theorem route_markPause (store : KVStore) (id : Hash) :
    route env (store.set (processedPauseKey id) [1]) =
      { route env store with pauses := Function.update (route env store).pauses id true } := by
  ext1
  case pauses => exact mark_eq_update store processedPauseKey (tagged_injective _) id
  all_goals simp [route, getRouteConfig, getRouteState, outboundNonce, isProcessed, keys_eq]

theorem dailyUsage_eq (ctx : Context) (store : KVStore) (routeID : String) :
    dailyUsage env ctx store routeID =
      (route env store).usage (usageIndex env routeID ctx.blockTime) := rfl

theorem config_of_found {store : KVStore} {found : Option RouteConfig}
    (h : getRouteConfig env store = .ok found) : (route env store).config = found := by
  simp [route, h]

theorem found_of_config {store : KVStore} {config : RouteConfig}
    (h : (route env store).config = some config) : getRouteConfig env store = .ok (some config) := by
  simp only [route] at h
  split at h
  case h_1 found heq => rw [heq, h]
  case h_2 => cases h

theorem paused_of_read {store : KVStore} {state : RouteState} (h : getRouteState store = .ok state) :
    (route env store).paused = state.paused := by
  simp [route, h]

theorem outstanding_of_read {store : KVStore} {amount : SdkInt}
    (h : outstandingAmount store = .ok amount) : amount.value = (route env store).outstanding := by
  simp only [outstandingAmount] at h
  split at h
  case isTrue he =>
    rw [Check.pure_eq_ok] at h
    simp only [route, List.isEmpty_iff.mp he, ← h]
    rfl
  case isFalse he => exact (SdkInt.newIntFromBigInt_eq_ok _ _).mp h

end Route

end PosChain.Bridge
