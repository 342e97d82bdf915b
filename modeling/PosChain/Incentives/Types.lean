import PosChain.Base.Json
import PosChain.Cosmos.Bank

namespace PosChain.Incentives

structure Env (World : Type) where
  accAddressFromBech32 : String → Except String AccAddress
  getModuleAddress : String → AccAddress
  getBalance : World → AccAddress → String → Coin
  sendCoinsFromModuleToModule : String → String → Coin → Action World Unit
  totalValidatorPower : World → Except String SdkInt

def basisPointDenominator : UInt32 := 10000
def defaultTreasuryReleaseRateBasisPoints : UInt32 := 1000
def defaultBlocksPerYear : UInt64 := 6311520
def defaultCalculationPeriodBlocks : UInt64 := 17280

section Policy

-- The conversion of a small unsigned number to a signed one keeps its value.
def toInt64 (value : UInt32) : Int64 :=
  Int64.ofNat value.toNat

def annualizedRewardCapacity (treasuryBalance : SdkInt) (releaseRateBasisPoints : UInt32) :
    Check SdkInt := do
  failIf treasuryBalance.isNegative "treasury balance cannot be negative"
  failIf (releaseRateBasisPoints > basisPointDenominator) "treasury release rate exceeds 100 percent"
  let product ← treasuryBalance.mul (SdkInt.newInt (toInt64 releaseRateBasisPoints))
  product.quo (SdkInt.newInt (toInt64 basisPointDenominator))

def periodProvision (annualizedCapacity : SdkInt) (periodBlocks blocksPerYear : UInt64) :
    Check SdkInt := do
  failIf annualizedCapacity.isNegative "annualized capacity cannot be negative"
  failIf (periodBlocks == 0) "calculation period must contain at least one block"
  failIf (blocksPerYear == 0) "blocks per year must be greater than zero"
  failIf (periodBlocks > blocksPerYear) "calculation period cannot exceed one year"
  let product ← annualizedCapacity.mul (SdkInt.newIntFromUint64 periodBlocks)
  product.quo (SdkInt.newIntFromUint64 blocksPerYear)

def derivedAPYBasisPoints (annualizedCapacity eligibleBonded : SdkInt) : Check SdkInt := do
  failIf annualizedCapacity.isNegative "annualized capacity cannot be negative"
  failIf eligibleBonded.isNegative "eligible bonded stake cannot be negative"
  if eligibleBonded.isZero then pure SdkInt.zeroInt
  else do
    let product ← annualizedCapacity.mul (SdkInt.newInt (toInt64 basisPointDenominator))
    product.quo eligibleBonded

def cumulativeProvision (periodProvision : SdkInt) (elapsedBlocks periodBlocks : UInt64) :
    Check SdkInt := do
  failIf periodProvision.isNegative "period provision cannot be negative"
  failIf (periodBlocks == 0) "calculation period must contain at least one block"
  failIf (elapsedBlocks > periodBlocks) "elapsed blocks exceed the calculation period"
  let product ← periodProvision.mul (SdkInt.newIntFromUint64 elapsedBlocks)
  product.quo (SdkInt.newIntFromUint64 periodBlocks)

end Policy

structure Params where
  treasuryReleaseRateBasisPoints : UInt32
  blocksPerYear : UInt64
  calculationPeriodBlocks : UInt64
  deriving DecidableEq, Repr

def defaultParams : Params :=
  ⟨defaultTreasuryReleaseRateBasisPoints, defaultBlocksPerYear, defaultCalculationPeriodBlocks⟩

def Params.validate (p : Params) : Check Unit := do
  failIf (p.treasuryReleaseRateBasisPoints > basisPointDenominator)
    "treasury release rate exceeds 100 percent"
  failIf (p.blocksPerYear == 0) "blocks per year must be greater than zero"
  failIf (p.calculationPeriodBlocks == 0) "calculation period must contain at least one block"
  failIf (p.calculationPeriodBlocks > p.blocksPerYear) "calculation period cannot exceed one year"

def Params.validateUpdate (p previous : Params) : Check Unit := do
  annotate "invalid previous parameters" previous.validate
  p.validate

-- The snapshot of one calculation period. Amounts are base-10 texts.
structure PeriodState where
  startBlock : UInt64
  endBlock : UInt64
  treasuryReleaseRateBasisPoints : UInt32
  treasuryBalanceAtomic : String
  eligibleBondedAtomic : String
  annualizedCapacityAtomic : String
  derivedAPYBasisPoints : String
  periodProvisionAtomic : String
  distributedAtomic : String
  deriving DecidableEq, Repr

def parseAtomicAmount (value : String) : Check SdkInt := do
  let parsed ← orFail (BigInt.setString value 10) (.error "amount is not a base-10 integer")
  SdkInt.newIntFromBigInt parsed

def maxUint64 : UInt64 := 18446744073709551615

-- Nothing is provided for a period that starts without bonded stake.
def bondedProvision (annualized eligibleBonded : SdkInt) (params : Params) : Check SdkInt :=
  if eligibleBonded.isPositive then
    periodProvision annualized params.calculationPeriodBlocks params.blocksPerYear
  else pure SdkInt.zeroInt

def newPeriodState (startBlock : UInt64) (eligibleBonded treasuryBalance : SdkInt) (params : Params) :
    Check PeriodState := do
  params.validate
  failIf (startBlock > maxUint64 - params.calculationPeriodBlocks)
    "calculation period end block overflows"
  failIf eligibleBonded.isNegative "eligible bonded stake cannot be negative"
  let annualized ← annualizedRewardCapacity treasuryBalance params.treasuryReleaseRateBasisPoints
  let apy ← derivedAPYBasisPoints annualized eligibleBonded
  let provision ← bondedProvision annualized eligibleBonded params
  return { startBlock, endBlock := startBlock + params.calculationPeriodBlocks,
           treasuryReleaseRateBasisPoints := params.treasuryReleaseRateBasisPoints,
           treasuryBalanceAtomic := treasuryBalance.toText,
           eligibleBondedAtomic := eligibleBonded.toText,
           annualizedCapacityAtomic := annualized.toText,
           derivedAPYBasisPoints := apy.toText,
           periodProvisionAtomic := provision.toText,
           distributedAtomic := "0" }

namespace PeriodState

def parseField (name value : String) : Check SdkInt := do
  let amount ← annotate ("invalid " ++ name ++ " amount") (parseAtomicAmount value)
  failIf amount.isNegative (name ++ " amount cannot be negative")
  return amount

def validate (p : PeriodState) : Check Unit := do
  failIf (p.endBlock ≤ p.startBlock) "calculation period end block must follow start block"
  failIf (p.treasuryReleaseRateBasisPoints > basisPointDenominator)
    "treasury release rate exceeds 100 percent"
  let treasuryBalance ← parseField "treasury balance" p.treasuryBalanceAtomic
  let _ ← parseField "eligible bonded" p.eligibleBondedAtomic
  let _ ← parseField "annualized capacity" p.annualizedCapacityAtomic
  let _ ← parseField "derived APY" p.derivedAPYBasisPoints
  let provision ← parseField "period provision" p.periodProvisionAtomic
  let distributed ← parseField "distributed" p.distributedAtomic
  failIf (distributed.gt provision) "distributed amount exceeds period provision"
  failIf (provision.gt treasuryBalance) "period provision exceeds treasury snapshot"

def remainingProvision (p : PeriodState) : Check SdkInt := do
  p.validate
  let provision ← parseAtomicAmount p.periodProvisionAtomic
  let distributed ← parseAtomicAmount p.distributedAtomic
  provision.sub distributed

def toJson (p : PeriodState) : Json.Value :=
  .obj [("start_block", .num (toString p.startBlock.toNat)),
    ("end_block", .num (toString p.endBlock.toNat)),
    ("treasury_release_rate_basis_points", .num (toString p.treasuryReleaseRateBasisPoints.toNat)),
    ("treasury_balance_atomic", .str p.treasuryBalanceAtomic),
    ("eligible_bonded_atomic", .str p.eligibleBondedAtomic),
    ("annualized_capacity_atomic", .str p.annualizedCapacityAtomic),
    ("derived_apy_basis_points", .str p.derivedAPYBasisPoints),
    ("period_provision_atomic", .str p.periodProvisionAtomic),
    ("distributed_atomic", .str p.distributedAtomic)]

def ofJson (value : Json.Value) : Option PeriodState := do
  guard (Json.isStruct value)
  let startBlock ← Json.uintField value "start_block" (2 ^ 64)
  let endBlock ← Json.uintField value "end_block" (2 ^ 64)
  let rate ← Json.uintField value "treasury_release_rate_basis_points" (2 ^ 32)
  let treasuryBalanceAtomic ← Json.stringField value "treasury_balance_atomic"
  let eligibleBondedAtomic ← Json.stringField value "eligible_bonded_atomic"
  let annualizedCapacityAtomic ← Json.stringField value "annualized_capacity_atomic"
  let derivedAPYBasisPoints ← Json.stringField value "derived_apy_basis_points"
  let periodProvisionAtomic ← Json.stringField value "period_provision_atomic"
  let distributedAtomic ← Json.stringField value "distributed_atomic"
  return { startBlock := UInt64.ofNat startBlock, endBlock := UInt64.ofNat endBlock,
           treasuryReleaseRateBasisPoints := UInt32.ofNat rate, treasuryBalanceAtomic,
           eligibleBondedAtomic, annualizedCapacityAtomic, derivedAPYBasisPoints,
           periodProvisionAtomic, distributedAtomic }

def encode (p : PeriodState) : Bytes :=
  Json.marshal p.toJson

end PeriodState

structure GenesisState where
  authority : String
  params : Params
  deriving DecidableEq, Repr

def defaultGenesisState : GenesisState :=
  ⟨"", defaultParams⟩

structure UpdateParamsCommand where
  authority : String
  params : Params
  deriving DecidableEq, Repr

structure MsgUpdateParams where
  authority : String
  treasuryReleaseRateBasisPoints : UInt32
  blocksPerYear : UInt64
  calculationPeriodBlocks : UInt64
  deriving DecidableEq, Repr

section Basic

variable {World : Type} (env : Env World)

def GenesisState.validate (g : GenesisState) : Check Unit := do
  annotate "invalid genesis parameters" g.params.validate
  let authority := Text.trimSpace g.authority
  if authority == "" then pure ()
  else do
    failIf (authority != g.authority) "incentive authority contains surrounding spaces"
    let _ ← annotate "invalid incentive authority address" (passOn (env.accAddressFromBech32 authority))
    return ()

def validateCommandAuthority (authority : String) : Check Unit := do
  failIf (authority == "") "authority is required"
  let _ ← annotate "invalid authority address" (passOn (env.accAddressFromBech32 authority))
  return ()

def UpdateParamsCommand.validateBasic (c : UpdateParamsCommand) : Check Unit := do
  validateCommandAuthority env c.authority
  annotate "invalid incentive parameters" c.params.validate

end Basic

end PosChain.Incentives
