import PosChain.Base.Run
import PosChain.Cosmos.Bank
import PosChain.FeeMarket.BaseFee

namespace PosChain.FeeMarket

structure GenesisState where
  params : Params
  blockGas : UInt64

def GenesisState.validate (gs : GenesisState) : Check Unit :=
  gs.params.validate

def initGenesis (data : GenesisState) (s : State) : State :=
  (s.setParams data.params).setBlockGasWanted data.blockGas

def exportGenesis (s : State) : GenesisState :=
  ⟨s.getParams, s.getBlockGasWanted⟩

structure Env where
  accAddressFromBech32 : String → Except String AccAddress
  validateAuthority : Context → String → Except String Unit

structure MsgUpdateParams where
  authority : String
  params : Params

def MsgUpdateParams.validateBasic (env : Env) (m : MsgUpdateParams) : Check Unit := do
  let _ ← passOn ((env.accAddressFromBech32 m.authority).mapError ("invalid authority address: " ++ ·))
  m.params.validate

def updateParams (env : Env) (ctx : Context) (req : MsgUpdateParams) : Action State Unit := do
  passOn (env.validateAuthority ctx req.authority)
  modify (State.setParams req.params)

-- What reaches the module. The router validates a message before it is handled.
inductive Call where
  | beginBlock (ctx : Context)
  | endBlock (ctx : Context)
  | updateParams (ctx : Context) (req : MsgUpdateParams)

section Runs

variable (env : Env) (decimals : Decimals)

def deliver (s : State) : Call → Option (Unit × State)
  | .beginBlock ctx => kept ((beginBlock decimals ctx).run s)
  | .endBlock ctx => kept ((endBlock ctx).run s)
  | .updateParams ctx req => kept ((do req.validateBasic env; updateParams env ctx req : Action State Unit).run s)

variable {env decimals}

-- What a call does to the stored parameters: a block moves the base fee as the update
-- does, and only a message sets others.
theorem deliver_params {s t : State} {call : Call} {u : Unit} {p : Params} {base floor multiplier : LegacyDec}
    (hp : s.params = some p) (hvalid : p.Valid base floor multiplier)
    (h : deliver env decimals s call = some (u, t)) :
    (s.blockGasWanted.isSome → t.blockGasWanted.isSome) ∧ ∃ next, t.params = some next ∧ (next = p ∨
      (∃ ctx new, call = .beginBlock ctx ∧ next = { p with baseFee := some new } ∧
        new.raw = nextBaseFee base.raw (unitGas decimals) floor.raw s.getBlockGasWanted.toNat
          (gasTarget ctx.maxGas p) p.baseFeeChangeDenominator.toNat) ∨
      ∃ ctx req, call = .updateParams ctx req ∧ next = req.params ∧ req.params.validate = .ok ()) := by
  obtain rfl : s.getParams = p := by rw [State.getParams, hp, Option.getD_some]
  cases call with
  | beginBlock ctx =>
    rw [deliver, kept_eq_some, beginBlock, run_get_bind, run_lift_bind] at h
    obtain ⟨_ | new, hnew, h⟩ := h
    · cases h
      exact ⟨id, _, hp, .inl rfl⟩
    · cases h
      refine ⟨id, _, rfl, ?_⟩
      by_cases hafter : s.getParams.enableHeight < ctx.blockHeight
      · exact .inr (.inl ⟨ctx, new, rfl, rfl, calculateBaseFee_eq_some hvalid hafter hnew⟩)
      · rw [calculateBaseFee] at hnew
        dsimp only at hnew
        split at hnew
        · cases hnew
        · rename_i henabled
          have hle : s.getParams.enableHeight ≤ ctx.blockHeight := by
            simp_all [Params.isBaseFeeEnabled]
          rw [if_pos (Int64.le_antisymm (Int64.not_lt.mp hafter) hle)] at hnew
          rw [← Except.ok.inj hnew]
          exact .inl rfl
  | endBlock ctx =>
    simp only [deliver, kept_eq_some, endBlock, run_lift_bind, run_get_bind, run_modify_bind,
      run_modify_eq_ok] at h
    obtain ⟨-, -, -, -, -, -, -, -, -, -, -, -, rfl⟩ := h
    exact ⟨fun _ => rfl, _, hp, .inl rfl⟩
  | updateParams ctx req =>
    simp only [deliver, kept_eq_some, updateParams, run_lift_bind, run_modify_eq_ok,
      MsgUpdateParams.validateBasic, Check.bind_eq_ok] at h
    obtain ⟨_, ⟨-, -, hnext⟩, -, -, rfl⟩ := h
    exact ⟨id, _, rfl, .inr (.inr ⟨ctx, req, rfl, rfl, hnext⟩)⟩

theorem validate_setBaseFee {p : Params} {new : LegacyDec} (h : p.validate = .ok ()) (hnew : 0 ≤ new.raw) :
    { p with baseFee := some new }.validate = .ok () := by
  simp only [Params.validate, notNil, Check.bind_eq_ok, failIf_eq_ok, orFail_eq_ok, exists_const] at h ⊢
  obtain ⟨hdenominator, base, -, -, hrest⟩ := h
  exact ⟨hdenominator, new, rfl, decide_eq_false (not_lt.mpr hnew), hrest⟩

def Stored (s : State) : Prop :=
  s.blockGasWanted.isSome ∧ ∃ p, s.params = some p ∧ p.validate = .ok ()

theorem Stored.deliver {s t : State} {call : Call} {u : Unit} (hs : Stored s)
    (h : deliver env decimals s call = some (u, t)) : Stored t := by
  obtain ⟨hgas, p, hp, hvalid⟩ := hs
  obtain ⟨base, floor, multiplier, hread⟩ := Params.validate_eq_ok hvalid
  obtain ⟨hkeep, next, hnext, hcase⟩ := deliver_params hp hread h
  obtain rfl | ⟨ctx, new, -, rfl, hnew⟩ | ⟨ctx, req, -, rfl, hreq⟩ := hcase
  · exact ⟨hkeep hgas, _, hnext, hvalid⟩
  · refine ⟨hkeep hgas, _, hnext, validate_setBaseFee hvalid ?_⟩
    rw [hnew]
    exact nextBaseFee_nonneg hread.base_nonneg hread.floor_nonneg
  · exact ⟨hkeep hgas, _, hnext, hreq⟩

end Runs

theorem market_restarts (env : Env) (decimals : Decimals) (data : GenesisState) (hdata : data.validate = .ok ())
    (s : State) (calls : List Call) :
    let t := Run.run (deliver env decimals) (initGenesis data s) calls
    (exportGenesis t).validate = .ok () ∧
      ∀ empty, initGenesis (exportGenesis t) empty = { t with events := empty.events } := by
  intro t
  obtain ⟨hgas, p, hp, hvalid⟩ : Stored t := Run.run_invariant Stored
    (fun s call u next h hs => hs.deliver h) _ calls ⟨rfl, data.params, rfl, hdata⟩
  obtain ⟨gas, hgas⟩ := Option.isSome_iff_exists.mp hgas
  simp [exportGenesis, GenesisState.validate, initGenesis, State.getParams, State.getBlockGasWanted,
    State.setParams, State.setBlockGasWanted, hp, hgas, hvalid]

def openEnv : Env :=
  ⟨fun _ => .ok [], fun _ _ => .ok ()⟩

theorem default_market_restarts :
    (exportGenesis (Run.run (deliver openEnv eighteenDecimals) (initGenesis ⟨defaultParams, 0⟩ ⟨none, none, []⟩)
      [.beginBlock hundredGas, .endBlock hundredGas])).validate = .ok () :=
  (market_restarts openEnv eighteenDecimals ⟨defaultParams, 0⟩ rfl _ _).1

def AtFloor (p : Params) : Prop :=
  ∀ base floor, p.baseFee = some base → p.minGasPrice = some floor → floor.raw ≤ base.raw

-- Blocks have a gas target, and messages set no base fee under the minimum gas price.
def Kept (s : State) : Call → Prop
  | .beginBlock ctx => 0 < gasTarget ctx.maxGas s.getParams
  | .endBlock _ => True
  | .updateParams _ req => AtFloor req.params

theorem floor_kept (env : Env) (decimals : Decimals) (data : GenesisState) (hdata : data.validate = .ok ())
    (hfloor : AtFloor data.params) (s : State) (calls : List Call)
    (hcalls : Run.Along (deliver env decimals) Kept (initGenesis data s) calls) :
    AtFloor (Run.run (deliver env decimals) (initGenesis data s) calls).getParams := by
  refine (hcalls.invariant (fun t => Stored t ∧ AtFloor t.getParams) ?_
    ⟨⟨rfl, data.params, rfl, hdata⟩, hfloor⟩).2
  rintro s call u t h hkept ⟨hs, hat⟩
  refine ⟨hs.deliver h, ?_⟩
  obtain ⟨-, p, hp, hvalid⟩ := hs
  obtain ⟨base, floor, multiplier, hread⟩ := Params.validate_eq_ok hvalid
  obtain rfl : s.getParams = p := by rw [State.getParams, hp, Option.getD_some]
  obtain ⟨-, next, hnext, hcase⟩ := deliver_params hp hread h
  rw [State.getParams, hnext, Option.getD_some]
  obtain rfl | ⟨ctx, new, rfl, rfl, hnew⟩ | ⟨ctx, req, rfl, rfl, hreq⟩ := hcase
  · exact hat
  · rintro _ low ⟨⟩ hlow
    obtain rfl : floor = low := Option.some.inj (hread.minGasPrice.symm.trans hlow)
    rw [hnew]
    exact floor_le_nextBaseFee hread.base_nonneg hkept (.inr (hat base floor hread.baseFee hread.minGasPrice))
  · exact hkept

-- An empty block would take an eighth off the fee, and stops at the minimum.
def flooredParams : Params :=
  { defaultParams with minGasPrice := some (.newDec 950000000) }

theorem empty_block_floor_kept :
    let p := (Run.run (deliver openEnv eighteenDecimals) (initGenesis ⟨flooredParams, 0⟩ ⟨none, none, []⟩)
      [.beginBlock hundredGas]).getParams
    AtFloor p ∧ p.baseFee = some (.newDec 950000000) := by
  refine ⟨floor_kept openEnv eighteenDecimals ⟨flooredParams, 0⟩ rfl ?_ _ _ ⟨fun _ _ _ => ?_, trivial⟩, rfl⟩
  · rintro _ _ ⟨⟩ ⟨⟩
    decide
  · change 0 < gasTarget _ flooredParams
    decide

end PosChain.FeeMarket
