import PosChain.Base.Text
import PosChain.Cosmos.Bank

namespace PosChain.Admission

abbrev ValAddress := Bytes
abbrev ConsAddress := Bytes

structure Context where
  consensusAuthority : String
  deriving DecidableEq, Repr

structure Validator where
  jailed : Bool
  consAddr : Except String ConsAddress

inductive LookupError where
  | noValidatorFound
  | other (text : String)
  deriving DecidableEq, Repr

structure StakingKeeper (World : Type) where
  getValidator : World → ValAddress → Except LookupError Validator
  jail : ConsAddress → Action World Unit

-- The libraries the module calls: the two address codecs, the coin parser, the
-- authority check and the staking keeper.
structure Env (World : Type) where
  accAddressFromBech32 : String → Except String AccAddress
  valAddressFromBech32 : String → Except String ValAddress
  parseCoinNormalized : String → Except String Coin
  validateAuthority : Context → String → String → Except String Unit
  staking : StakingKeeper World

def defaultMaxApprovedValidators : UInt32 := 258
def defaultMinimumSelfDelegation : String := "5000000000000000000000000axtc"

section Policy

variable {World : Type} (env : Env World)

def validatePolicyAmount (maxApprovedValidators : UInt32) (minimumSelfDelegation : String) :
    Check Coin := do
  failIf (maxApprovedValidators == 0) "max approved validators must be greater than zero"
  let coin ← annotate "invalid minimum self delegation" (passOn (env.parseCoinNormalized minimumSelfDelegation))
  failIf (!coin.isValid || !coin.amount.isPositive) "minimum self delegation must be positive"
  return coin

def validatePolicy (maxApprovedValidators : UInt32) (minimumSelfDelegation : String) :
    Check Unit := do
  let coin ← validatePolicyAmount env maxApprovedValidators minimumSelfDelegation
  failIf (coin.denom != "axtc") "minimum self delegation must use axtc"

-- A genesis may use a denomination of its own; updates may not.
def validateGenesisPolicy (maxApprovedValidators : UInt32) (minimumSelfDelegation : String) :
    Check Unit := do
  let _ ← validatePolicyAmount env maxApprovedValidators minimumSelfDelegation
  return ()

end Policy

structure GenesisState where
  authority : String
  approvedValidators : List String
  maxApprovedValidators : UInt32
  minimumSelfDelegation : String
  deriving DecidableEq, Repr

namespace GenesisState

variable {World : Type} (env : Env World)

-- Missing values of the policy are the default ones.
def policy (g : GenesisState) : UInt32 × String :=
  (if g.maxApprovedValidators == 0 then defaultMaxApprovedValidators else g.maxApprovedValidators,
    if g.minimumSelfDelegation == "" then defaultMinimumSelfDelegation else g.minimumSelfDelegation)

def validateApproved (seen : List String) : List String → Check Unit
  | [] => pure ()
  | address :: rest => do
    let trimmed := Text.trimSpace address
    failIf (trimmed == "") "approved validator address is empty"
    failIf (trimmed != address) "approved validator address contains surrounding spaces"
    let _ ← annotate "invalid Xitcoin validator address" (passOn (env.valAddressFromBech32 address))
    failIf (seen.contains address) ("approved validator listed twice: " ++ address)
    validateApproved (address :: seen) rest

def validate (g : GenesisState) : Check Unit := do
  let authority := Text.trimSpace g.authority
  if authority == "" then do
    -- A module that is not configured at all is disabled.
    failIf (g.approvedValidators.length != 0) "validator admission authority is required"
    validateGenesisPolicy env g.policy.1 g.policy.2
  else do
    failIf (authority != g.authority) "validator admission authority contains surrounding spaces"
    let _ ← annotate "invalid Xitcoin authority address" (passOn (env.accAddressFromBech32 authority))
    validateGenesisPolicy env g.policy.1 g.policy.2
    failIf (UInt32.ofNat g.approvedValidators.length > g.policy.1)
      "approved validators exceed configured capacity"
    failIf (g.approvedValidators.length == 0) "at least one approved validator is required"
    validateApproved env [] g.approvedValidators

end GenesisState

structure MsgApproveValidator where
  authority : String
  validatorAddress : String
  deriving DecidableEq, Repr

structure MsgRevokeValidator where
  authority : String
  validatorAddress : String
  deriving DecidableEq, Repr

structure MsgUpdateParams where
  authority : String
  maxApprovedValidators : UInt32
  minimumSelfDelegation : String
  deriving DecidableEq, Repr

section Basic

variable {World : Type} (env : Env World)

def validateAuthorityAndValidator (authority validatorAddress : String) : Check Unit := do
  let _ ← annotate "invalid Xitcoin authority address" (passOn (env.accAddressFromBech32 authority))
  let _ ← annotate "invalid Xitcoin validator address" (passOn (env.valAddressFromBech32 validatorAddress))
  return ()

def MsgApproveValidator.validateBasic (m : MsgApproveValidator) : Check Unit :=
  validateAuthorityAndValidator env m.authority m.validatorAddress

def MsgRevokeValidator.validateBasic (m : MsgRevokeValidator) : Check Unit :=
  validateAuthorityAndValidator env m.authority m.validatorAddress

def MsgUpdateParams.validateBasic (m : MsgUpdateParams) : Check Unit := do
  let _ ← annotate "invalid Xitcoin authority address" (passOn (env.accAddressFromBech32 m.authority))
  validatePolicy env m.maxApprovedValidators m.minimumSelfDelegation

end Basic

end PosChain.Admission
