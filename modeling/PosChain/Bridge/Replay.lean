import PosChain.Bridge.Tables

namespace PosChain.Bridge

-- A source event is named by route, source chain, normalised transaction
-- reference and nonce.
structure SourceEvent where
  routeID : String
  sourceChainID : String
  sourceRef : String
  nonce : UInt64
  deriving DecidableEq, Repr

def Msg.attestation? : Msg → Option Attestation
  | .submitAttestation req => some req.attestation
  | _ => none

section Once

variable {Bank : Type} (env : Env Bank) (keeper : Keeper)

def Attestation.sourceEvent (a : Attestation) : SourceEvent :=
  ⟨a.routeID, a.sourceChainID, normalizeHexReference env a.sourceRef, a.nonce⟩

def carries (event : SourceEvent) (call : Call) : Bool :=
  call.msg.attestation?.any fun a => a.sourceEvent env == event

def executions (event : SourceEvent) (s : State Bank) (calls : List Call) : List (Call × Response) :=
  (Run.accepted (deliver env keeper) s calls).filter fun entry => carries env event entry.1

-- All submissions for an event are one attestation, up to spaces around the
-- destination and the spelling of the reference.
def OneVersion (event : SourceEvent) (calls : List Call) : Prop :=
  ∀ first ∈ calls, ∀ second ∈ calls, ∀ a b, first.msg.attestation? = some a →
    second.msg.attestation? = some b → a.sourceEvent env = event → b.sourceEvent env = event →
    Text.trimSpace a.destination = Text.trimSpace b.destination ∧ a.amount = b.amount ∧
      a.deadlineUnix = b.deadlineUnix

def settledKey (call : Call) : Option Hash :=
  call.msg.attestation?.map fun a => env.sha256 (Bytes.utf8 (a.idText env))

variable {env keeper}

theorem RouteStep.settled_mono {ctx : Context} {r next : Route} {msg : Msg}
    (h : RouteStep env ctx r msg next) (id : Hash) (hid : r.settled id = true) :
    next.settled id = true := by
  cases h with
  | settle req config amount written found enabled running detected ten fresh below =>
    by_cases he : id = env.sha256 (Bytes.utf8 (req.attestation.idText env))
    · simp [he]
    · simpa [he] using hid
  | _ => exact hid

theorem RouteStep.config_of_submit {ctx : Context} {r next : Route} {msg : Msg}
    (h : RouteStep env ctx r msg next) {a : Attestation} (ha : msg.attestation? = some a) :
    next.config = r.config := by
  cases h with
  | settle => rfl
  | _ => simp [Msg.attestation?] at ha

theorem RouteStep.settled_once {ctx : Context} {r next : Route} {msg : Msg}
    (h : RouteStep env ctx r msg next) (id : Hash) (hid : settledKey env ⟨ctx, msg⟩ = some id) :
    r.settled id = false ∧ next.settled id = true := by
  cases h with
  | settle req config amount written found enabled running detected ten fresh below =>
    obtain rfl : env.sha256 (Bytes.utf8 (req.attestation.idText env)) = id := by
      simpa [settledKey, Msg.attestation?] using hid
    exact ⟨fresh, by simp⟩
  | _ => simp [settledKey, Msg.attestation?] at hid

theorem settledKey_nodup (s : State Bank) (calls : List Call) :
    ((Run.accepted (deliver env keeper) s calls).filterMap fun entry =>
      settledKey env entry.1).Nodup := by
  apply Run.accepted_key_nodup (settledKey env)
    (fun s id => (route env s.store).settled id = true)
  · intro s call response t id h hid
    exact (deliver_routeStep h).settled_mono id hid
  · intro s call response t id h hid
    have hstep := (deliver_routeStep h).settled_once id hid
    exact ⟨by simp [hstep.1], hstep.2⟩

theorem accepted_direction (s : State Bank) (calls : List Call) :
    ∀ entry ∈ Run.accepted (deliver env keeper) s calls, ∀ a,
      entry.1.msg.attestation? = some a → a.direction = directionCronosToXitcoin := by
  apply Run.accepted_of_step (fun _ : State Bank => True) (fun (call : Call) (_ : Response) =>
    ∀ a, call.msg.attestation? = some a → a.direction = directionCronosToXitcoin)
  · intro s call response t h _
    refine ⟨?_, trivial⟩
    obtain ⟨ctx, msg⟩ := call
    intro a ha
    cases deliver_accepted h with
    | settled req config id written w found inbound admitted holds =>
      obtain rfl : req.attestation = a := by simpa [Msg.attestation?] using ha
      exact inbound
    | _ => simp [Msg.attestation?] at ha
  · trivial

theorem idText_eq_of_event {a b : Attestation} {event : SourceEvent}
    (ha : a.sourceEvent env = event) (hb : b.sourceEvent env = event) (hdirection : a.direction = b.direction)
    (hsame : Text.trimSpace a.destination = Text.trimSpace b.destination ∧ a.amount = b.amount ∧
      a.deadlineUnix = b.deadlineUnix) : a.idText env = b.idText env := by
  rw [← hb] at ha
  simp only [Attestation.sourceEvent, SourceEvent.mk.injEq] at ha
  simp only [Attestation.idText, ha, hdirection, hsame]

end Once

-- In every run, from any state, an event whose submissions are one attestation
-- is executed at most once.
theorem source_event_executed_once {Bank : Type} (env : Env Bank) (keeper : Keeper) (s : State Bank)
    (calls : List Call) (event : SourceEvent) (hone : OneVersion env event calls) :
    (executions env keeper event s calls).length ≤ 1 := by
  have hnodup : ((executions env keeper event s calls).filterMap fun entry =>
      settledKey env entry.1).Nodup :=
    (List.filter_sublist.filterMap _).nodup (settledKey_nodup s calls)
  have hmem (entry : Call × Response) (he : entry ∈ executions env keeper event s calls) :
      entry.1 ∈ calls ∧ ∃ a, entry.1.msg.attestation? = some a ∧ a.sourceEvent env = event ∧
        a.direction = directionCronosToXitcoin := by
    obtain ⟨haccepted, hcarries⟩ := List.mem_filter.mp he
    simp only [carries, Option.any_eq_true, beq_iff_eq] at hcarries
    obtain ⟨a, ha, hevent⟩ := hcarries
    exact ⟨Run.mem_of_mem_accepted s calls entry haccepted, a, ha, hevent,
      accepted_direction s calls entry haccepted a ha⟩
  -- All executions mark the identifier of the first one.
  cases hlist : executions env keeper event s calls with
  | nil => simp
  | cons first rest =>
    rw [hlist] at hnodup hmem
    obtain ⟨hfirst, a, ha, hevent, hdirection⟩ := hmem first List.mem_cons_self
    have hkeys : ∀ entry ∈ first :: rest,
        settledKey env entry.1 = some (env.sha256 (Bytes.utf8 (a.idText env))) := by
      intro entry he
      obtain ⟨hentry, b, hb, hevent', hdirection'⟩ := hmem entry he
      have hsame := hone entry.1 hentry first.1 hfirst b a hb ha hevent' hevent
      have htext := idText_eq_of_event hevent' hevent (hdirection'.trans hdirection.symm) hsame
      simp [settledKey, hb, htext]
    have hmap : (first :: rest).filterMap (fun entry => settledKey env entry.1) =
        List.replicate (first :: rest).length (env.sha256 (Bytes.utf8 (a.idText env))) := by
      rw [List.filterMap_congr hkeys, List.filterMap_eq_map', List.map_const']
    rw [hmap, List.nodup_replicate] at hnodup
    exact hnodup

-- Two signed versions of one event that differ in the deadline only.
def lockSignatures : List Bytes :=
  [bytesOfHex ("bf7c0b3e22606e06b34198d8426c6e2094f5f8941e13af6731c9e71c873d4f6f" ++
      "3f1dcd1b63833e344465f970ea0af636c2cab837bcd68108286e07cb023419b800"),
    bytesOfHex ("213d6f30bf6a94fa055f1953629cb16aa94eefa5fa8c20211a698888931c2d4f" ++
      "4df2044385b4f3e3cb783db83800fb65bfa71eb1d6d948eb9668e28bb3f34c3c00")]

def laterSignatures : List Bytes :=
  [bytesOfHex ("a96847678fa738e4f5f0fb09d0458a4b1325d41a2a2cdbc6161b40ae53d65146" ++
      "53776a7ea2ab072fc5c13607faca0bd538bc72ca7b104d8e25d0e160bb2c74c501"),
    bytesOfHex ("4b50b4039aa73b33df7484c4a5c15edea190b144215f52e4b380ce7abd65e75d" ++
      "61b14f8c1de6b9b500b8f2399fe4189812a73dd8b910b2158c86ca2b6123f22100")]

def lockMsg (deadline : Int64) (signatures : List Bytes) : MsgSubmitAttestation where
  submitter := sampleAccount
  routeId := "cronos-testnet"
  direction := "cronos_to_xitcoin"
  sourceChainId := "338"
  sourceRef := "abababababababababababababababababababababababababababababababab"
  nonce := 1
  destination := sampleAccount
  amount := "100"
  deadlineUnix := deadline
  signatures := signatures

def lockText (deadline : String) : Bytes :=
  Bytes.utf8 (Text.join ["cronos-testnet", "cronos_to_xitcoin", "338",
    "abababababababababababababababababababababababababababababababab", "1", sampleAccount, "100",
    deadline] "\x00")

def lockId : Hash :=
  Ethereum.hexToHash "dbb0fa14afa9fbab24dec3b4f5528f2f8037dadbdbe750b2c5989871aceda391"

def laterId : Hash :=
  Ethereum.hexToHash "32287a8d276c75beadf2e0e4639cd466b2345547b3f4862814caf03dec5f5f61"

def lockDigest : Hash :=
  Ethereum.hexToHash "b9c4d2d896e694f5e92b1216338f61d2b60e94c01443d9a2138581b419f37769"

def laterDigest : Hash :=
  Ethereum.hexToHash "cb30278c89a89ec11b2227e00edcae3ba438850d216971d204612586f58826cb"

def lockTables : Tables where
  sha256 := [(Bytes.utf8 "cronos-testnet",
      Ethereum.hexToHash "324aae0cc616238ccd0dbd3c8ef063339cb40cb6f6e561b52dad3942f6187934"),
    (lockText "1800000000", lockId), (lockText "1800000001", laterId)]
  keccak256 := [(Bytes.utf8 signingDomain ++ lockId.bytes, lockDigest),
    (Bytes.utf8 signingDomain ++ laterId.bytes, laterDigest)]
  sigToPub := sampleRecovery lockDigest lockSignatures ++ sampleRecovery laterDigest laterSignatures
  pubkeyToAddress := samplePubkeys
  accounts := [(sampleAccount, sampleAddress)]

def lockContext : Context :=
  ⟨1700000000, ""⟩

def lockCall : Call :=
  ⟨lockContext, .submitAttestation (lockMsg 1800000000 lockSignatures)⟩

def laterCall : Call :=
  ⟨lockContext, .submitAttestation (lockMsg 1800000001 laterSignatures)⟩

def lockEvent : SourceEvent :=
  ⟨"cronos-testnet", "338", "abababababababababababababababababababababababababababababababab", 1⟩

def lockGenesis : GenesisState :=
  ⟨some sampleConfig, false, "", 0⟩

def lockState : State Ledger where
  store := KVStore.empty.set routeConfigKey sampleConfig.encode
  bank := sampleLedger 0 zero_bounded
  events := []

theorem lock_event_executed_once :
    OneVersion lockTables.env lockEvent [lockCall, lockCall] ∧
      (executions lockTables.env sampleKeeper lockEvent lockState [lockCall, lockCall]).length ≤ 1 := by
  have hone : OneVersion lockTables.env lockEvent [lockCall, lockCall] := by
    intro first hfirst second hsecond a b ha hb _ _
    obtain rfl : first = lockCall := by simpa using hfirst
    obtain rfl : second = lockCall := by simpa using hsecond
    obtain rfl : a = b := by simpa [ha] using hb
    exact ⟨rfl, rfl, rfl⟩
  exact ⟨hone, source_event_executed_once lockTables.env sampleKeeper lockState _ lockEvent hone⟩

def lockedState : State Ledger :=
  endState ((submitUnder lockTables.env sampleKeeper lockContext (lockMsg 1800000000 lockSignatures)
    sampleConfig).run lockState)

theorem lock_config_valid : sampleConfig.validate lockTables.env = .ok () := by
  decide +kernel

theorem lock_config_found : getRouteConfig lockTables.env lockState.store = .ok (some sampleConfig) :=
  getRouteConfig_set lockTables.env _ sampleConfig lock_config_valid

theorem lock_accepted : ∃ response, deliver lockTables.env sampleKeeper lockState lockCall =
    some (response, lockedState) := by
  have hbasic : (lockMsg 1800000000 lockSignatures).validateBasic lockTables.env = .ok () := by
    decide +kernel
  have hsome : (kept ((submitUnder lockTables.env sampleKeeper lockContext
      (lockMsg 1800000000 lockSignatures) sampleConfig).run lockState)).isSome = true := by
    decide +kernel
  obtain ⟨id, hid⟩ := kept_of_isSome hsome
  exact ⟨.attestation id, deliver_submit hbasic lock_config_found hid⟩

theorem later_accepted : ∃ response t, deliver lockTables.env sampleKeeper lockedState laterCall =
    some (response, t) := by
  have hbasic : (lockMsg 1800000001 laterSignatures).validateBasic lockTables.env = .ok () := by
    decide +kernel
  have hfound : getRouteConfig lockTables.env lockedState.store = .ok (some sampleConfig) := by
    obtain ⟨response, hfirst⟩ := lock_accepted
    apply found_of_config
    rw [(deliver_routeStep hfirst).config_of_submit rfl]
    exact config_of_found lockTables.env lock_config_found
  have hsome : (kept ((submitUnder lockTables.env sampleKeeper lockContext
      (lockMsg 1800000001 laterSignatures) sampleConfig).run lockedState)).isSome = true := by
    decide +kernel
  obtain ⟨id, hid⟩ := kept_of_isSome hsome
  exact ⟨_, _, deliver_submit hbasic hfound hid⟩

theorem lock_started : Started lockTables.env lockGenesis lockState := by
  refine ⟨(GenesisState.validate_eq_ok _ lockGenesis sampleConfig rfl).mpr ⟨lock_config_valid,
    0, 10000, rfl, by decide, by decide, by decide⟩, sampleLedger 0 (by decide), ?_⟩
  rw [initGenesis_eq_ok lockTables.env lockGenesis sampleConfig _ _ rfl]
  exact ⟨lock_config_valid, SdkInt.zeroInt, rfl, rfl⟩

theorem lock_event_executed_twice :
    Started lockTables.env lockGenesis lockState ∧
      (executions lockTables.env sampleKeeper lockEvent lockState [lockCall, laterCall]).length = 2 := by
  refine ⟨lock_started, ?_⟩
  obtain ⟨first, hfirst⟩ := lock_accepted
  obtain ⟨second, t, hsecond⟩ := later_accepted
  have h1 : carries lockTables.env lockEvent lockCall = true := by decide +kernel
  have h2 : carries lockTables.env lockEvent laterCall = true := by decide +kernel
  rw [executions, Run.accepted_cons_some _ hfirst, Run.accepted_cons_some _ hsecond]
  simp [Run.accepted, h1, h2]

end PosChain.Bridge
