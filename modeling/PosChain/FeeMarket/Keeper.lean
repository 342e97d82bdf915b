import PosChain.Cosmos.LegacyDec

namespace PosChain.FeeMarket

structure Params where
  noBaseFee : Bool
  baseFeeChangeDenominator : UInt32
  elasticityMultiplier : UInt32
  baseFee : Option LegacyDec
  enableHeight : Int64
  minGasPrice : Option LegacyDec
  minGasMultiplier : Option LegacyDec
  deriving DecidableEq

def defaultParams : Params where
  noBaseFee := false
  baseFeeChangeDenominator := 8
  elasticityMultiplier := 2
  baseFee := some (.newDec 1000000000)
  enableHeight := 0
  minGasPrice := some .zeroDec
  minGasMultiplier := some ⟨500000000000000000⟩

-- A method of a nil decimal dereferences a nil pointer.
def notNil (dec : Option LegacyDec) : Check LegacyDec :=
  orFail dec nilDereference

def validateMinGasPrice (gasPrice : Option LegacyDec) : Check Unit := do
  let gasPrice ← orFail gasPrice (.error "invalid parameter: nil")
  failIf gasPrice.isNegative ("value cannot be negative: " ++ gasPrice.toText)

def validateMinGasMultiplier (multiplier : Option LegacyDec) : Check Unit := do
  let multiplier ← orFail multiplier (.error "invalid parameter: nil")
  failIf multiplier.isNegative ("value cannot be negative: " ++ multiplier.toText)
  failIf (multiplier.gt .oneDec) ("value cannot be greater than 1: " ++ multiplier.toText)

def Params.validate (p : Params) : Check Unit := do
  failIf (p.baseFeeChangeDenominator == 0) "base fee change denominator cannot be 0"
  let baseFee ← notNil p.baseFee
  failIf baseFee.isNegative ("initial base fee cannot be negative: " ++ baseFee.toText)
  failIf (p.enableHeight < 0) ("enable height cannot be negative: " ++ toString p.enableHeight.toInt)
  failIf (p.elasticityMultiplier == 0) "elasticity multiplier cannot be zero: 0"
  validateMinGasMultiplier p.minGasMultiplier
  validateMinGasPrice p.minGasPrice

def Params.isBaseFeeEnabled (p : Params) (height : Int64) : Bool :=
  !p.noBaseFee && p.enableHeight ≤ height

def calcGasBaseFee (gasUsed gasTarget baseFeeChangeDenom : UInt64) (baseFee minUnitGas : LegacyDec)
    (minGasPrice : Option LegacyDec) : Check LegacyDec := do
  if gasUsed = gasTarget then return baseFee
  if gasTarget = 0 then return .zeroDec
  let delta ← (SdkInt.newIntFromUint64 gasUsed).sub (.newIntFromUint64 gasTarget)
  let num ← (LegacyDec.ofInt delta.value.natAbs).mul baseFee
  let num ← num.quoInt (.newIntFromUint64 gasTarget)
  let num ← num.quoInt (.newIntFromUint64 baseFeeChangeDenom)
  if gasTarget < gasUsed then
    baseFee.add (num.maxDec minUnitGas)
  else
    return (← baseFee.sub num).maxDec (← notNil minGasPrice)

-- The decimals of the EVM coin, which the configuration has validated.
structure Decimals where
  value : Nat
  valid : 0 < value ∧ value ≤ 18

def eighteenDecimals : Decimals :=
  ⟨18, by decide⟩

def Decimals.conversionFactor (d : Decimals) : SdkInt :=
  ⟨(10 ^ (18 - d.value) : Nat), by
    have hpow : 10 ^ (18 - d.value) ≤ 10 ^ 18 := Nat.pow_le_pow_right (by decide) (Nat.sub_le _ _)
    rw [Int.natAbs_natCast]
    exact lt_of_le_of_lt hpow (by decide)⟩

structure Event where
  kind : String
  attributes : List (String × String)
  deriving DecidableEq, Repr

structure State where
  params : Option Params
  blockGasWanted : Option UInt64
  events : List Event
  deriving DecidableEq

-- MaxGas is missing when the consensus parameters have no block part.
structure Context where
  blockHeight : Int64
  maxGas : Option Int64
  hasBlockGasMeter : Bool
  blockGasWanted : UInt64
  blockGasUsed : UInt64

namespace State

def getParams (s : State) : Params :=
  s.params.getD defaultParams

def setParams (params : Params) (s : State) : State :=
  { s with params := some params }

def getBaseFee (s : State) : Option LegacyDec :=
  if s.getParams.noBaseFee then none else s.getParams.baseFee

def setBaseFee (baseFee : LegacyDec) (s : State) : State :=
  s.setParams { s.getParams with baseFee := some baseFee }

def getBlockGasWanted (s : State) : UInt64 :=
  s.blockGasWanted.getD 0

def setBlockGasWanted (gas : UInt64) (s : State) : State :=
  { s with blockGasWanted := some gas }

def emitEvent (event : Event) (s : State) : State :=
  { s with events := s.events ++ [event] }

end State

-- A MaxGas of -1 means that block gas is unlimited.
def gasLimit (maxGas : Option Int64) : SdkInt :=
  match maxGas with
  | some maxGas => if -1 < maxGas then .newInt maxGas else .newIntFromUint64 (UInt64.ofNat (2 ^ 64 - 1))
  | none => .newIntFromUint64 (UInt64.ofNat (2 ^ 64 - 1))

def isUint64 (number : SdkInt) : Bool :=
  0 ≤ number.value && number.value < 2 ^ 64

def uint64 (number : SdkInt) : UInt64 :=
  UInt64.ofNat number.value.toNat

def calculateBaseFee (decimals : Decimals) (ctx : Context) (s : State) : Check (Option LegacyDec) := do
  let params := s.getParams
  if !params.isBaseFeeEnabled ctx.blockHeight then return none
  if ctx.blockHeight = params.enableHeight then return params.baseFee
  match params.baseFee with
  | none => return none
  | some parentBaseFee =>
    let parentGasUsed := s.getBlockGasWanted
    let parentGasTarget ← (gasLimit ctx.maxGas).quo
      (.newIntFromUint64 params.elasticityMultiplier.toUInt64)
    if !isUint64 parentGasTarget then return none
    let minUnitGas ← LegacyDec.oneDec.quoInt decimals.conversionFactor
    return some (← calcGasBaseFee parentGasUsed (uint64 parentGasTarget)
      params.baseFeeChangeDenominator.toUInt64 parentBaseFee minUnitGas params.minGasPrice)

def beginBlock (decimals : Decimals) (ctx : Context) : Action State Unit := do
  match ← calculateBaseFee decimals ctx (← get) with
  | none => return
  | some baseFee =>
    modify (State.setBaseFee baseFee)
    modify (State.emitEvent ⟨"fee_market", [("base_fee", baseFee.toText)]⟩)

def overflow (kind : String) (gas : UInt64) : String :=
  "integer overflow by integer type conversion. Gas " ++ kind ++ " > MaxInt64. Gas " ++ kind ++ ": " ++
    toString gas.toNat

def endBlock (ctx : Context) : Action State Unit := do
  failIf (!ctx.hasBlockGasMeter) "block gas meter is nil when setting block gas wanted"
  let gasWanted := ctx.blockGasWanted
  let gasUsed := ctx.blockGasUsed
  failIf (UInt64.ofNat (2 ^ 63 - 1) < gasWanted) (overflow "wanted" gasWanted)
  failIf (UInt64.ofNat (2 ^ 63 - 1) < gasUsed) (overflow "used" gasUsed)
  let minGasMultiplier ← notNil (← get).getParams.minGasMultiplier
  let limitedGasWanted ← (LegacyDec.newDec gasWanted.toInt64).mul minGasMultiplier
  let updatedGasWanted ← (limitedGasWanted.maxDec (LegacyDec.newDec gasUsed.toInt64)).truncateInt
  modify (State.setBlockGasWanted (uint64 updatedGasWanted))
  modify (State.emitEvent ⟨"block_gas",
    [("height", toString ctx.blockHeight.toInt), ("amount", toString (uint64 updatedGasWanted).toNat)]⟩)

end PosChain.FeeMarket
