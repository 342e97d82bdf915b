import PosChain.Admission.Types
import PosChain.Base.KVStore

namespace PosChain.Admission

structure State (World : Type) where
  store : KVStore
  world : World

section Actions

variable {World : Type}

def writeStore (f : KVStore → KVStore) : Action (State World) Unit :=
  modify fun s => { s with store := f s.store }

def withWorld {α : Type} (action : Action World α) : Action (State World) α :=
  onPart State.world (fun world s => { s with world }) action

end Actions

def keyAuthority : Bytes := [0x01]
def keyMaxApprovedValidators : Bytes := [0x03]
def keyMinimumSelfDelegation : Bytes := [0x04]

-- Approvals are kept under the bytes of the address text.
def approvedKey (validatorAddress : String) : Bytes :=
  0x02 :: Bytes.utf8 validatorAddress

section Reads

def getAuthority (store : KVStore) : String :=
  Bytes.toText (store.get keyAuthority)

def getMaxApprovedValidators (store : KVStore) : UInt32 :=
  let value := store.get keyMaxApprovedValidators
  if value.length != 4 then defaultMaxApprovedValidators
  else UInt32.ofNat (Bytes.toNat value)

def getMinimumSelfDelegation (store : KVStore) : String :=
  let value := Bytes.toText (store.get keyMinimumSelfDelegation)
  if value == "" then defaultMinimumSelfDelegation else value

-- An approval is looked up without the spaces around the text, but it is
-- written under the text as given.
def isApprovedValidator (store : KVStore) (validatorAddress : String) : Bool :=
  store.has (approvedKey (Text.trimSpace validatorAddress))

def approvedValidatorCount (store : KVStore) : UInt32 :=
  UInt32.ofNat (store.keysUnder 0x02).length

end Reads

section Writes

def setAuthority (authority : String) (store : KVStore) : KVStore :=
  store.set keyAuthority (Bytes.utf8 authority)

def setMaxApprovedValidators (value : UInt32) (store : KVStore) : KVStore :=
  store.set keyMaxApprovedValidators (Bytes.fixed 4 value.toNat)

def setMinimumSelfDelegation (value : String) (store : KVStore) : KVStore :=
  store.set keyMinimumSelfDelegation (Bytes.utf8 value)

def setApprovedValidator (validatorAddress : String) (approved : Bool) (store : KVStore) : KVStore :=
  if approved then store.set (approvedKey validatorAddress) [1]
  else store.delete (approvedKey validatorAddress)

def initGenesis (g : GenesisState) (store : KVStore) : KVStore :=
  let policy := g.policy
  let configured := setMinimumSelfDelegation policy.2
    (setMaxApprovedValidators policy.1 (setAuthority g.authority store))
  g.approvedValidators.foldl (fun store address => setApprovedValidator address true store) configured

def exportGenesis (store : KVStore) : GenesisState where
  authority := getAuthority store
  approvedValidators :=
    ((store.keysUnder 0x02).map fun key => Bytes.toText (key.drop 1)).mergeSort fun a b =>
      compare (Bytes.utf8 a) (Bytes.utf8 b) != .gt
  maxApprovedValidators := getMaxApprovedValidators store
  minimumSelfDelegation := getMinimumSelfDelegation store

end Writes

section Handlers

variable {World : Type} (env : Env World) (ctx : Context)

def validateAuthority (store : KVStore) (authority : String) : Check Unit :=
  passOn (env.validateAuthority ctx (getAuthority store) authority)

def approveValidator (req : MsgApproveValidator) : Action (State World) Unit := do
  let s ← get
  validateAuthority env ctx s.store req.authority
  req.validateBasic env
  if isApprovedValidator s.store req.validatorAddress then pure ()
  else do
    failIf (approvedValidatorCount s.store ≥ getMaxApprovedValidators s.store)
      "Validator Admission: approved validator capacity reached"
    writeStore (setApprovedValidator req.validatorAddress true)

-- A validator that exists and is not jailed yet is jailed.
def jailRevoked (validatorAddress : ValAddress) : Action (State World) Unit := do
  match env.staking.getValidator (← get).world validatorAddress with
  | .error .noValidatorFound => pure ()
  | .error (.other text) => throw (.error text)
  | .ok validator =>
    if validator.jailed then pure ()
    else do
      let consensusAddress ← passOn validator.consAddr
      withWorld (env.staking.jail consensusAddress)

def revokeValidator (req : MsgRevokeValidator) : Action (State World) Unit := do
  let s ← get
  validateAuthority env ctx s.store req.authority
  req.validateBasic env
  let validatorAddress ← passOn (env.valAddressFromBech32 req.validatorAddress)
  writeStore (setApprovedValidator req.validatorAddress false)
  jailRevoked env validatorAddress

def updateParams (req : MsgUpdateParams) : Action (State World) Unit := do
  let s ← get
  validateAuthority env ctx s.store req.authority
  req.validateBasic env
  failIf (req.maxApprovedValidators < approvedValidatorCount s.store)
    "Validator Admission: capacity cannot be below approved validator count"
  writeStore (setMaxApprovedValidators req.maxApprovedValidators)
  writeStore (setMinimumSelfDelegation req.minimumSelfDelegation)

end Handlers

inductive AdmissionMsg where
  | approveValidator (req : MsgApproveValidator)
  | revokeValidator (req : MsgRevokeValidator)
  | updateParams (req : MsgUpdateParams)
  deriving DecidableEq, Repr

structure Call where
  ctx : Context
  msg : AdmissionMsg
  deriving DecidableEq, Repr

section Deliver

variable {World : Type} (env : Env World)

def serve (ctx : Context) : AdmissionMsg → Action (State World) Unit
  | .approveValidator req => approveValidator env ctx req
  | .revokeValidator req => revokeValidator env ctx req
  | .updateParams req => updateParams env ctx req

-- The writes of a message are kept only when it succeeds.
def deliver (s : State World) (call : Call) : Option (Unit × State World) :=
  kept ((serve env call.ctx call.msg).run s)

end Deliver

end PosChain.Admission
