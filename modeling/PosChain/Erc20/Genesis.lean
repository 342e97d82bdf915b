import PosChain.Erc20.Keeper

namespace PosChain.Erc20

open Evm (World)

def orPanic {σ : Type} (description : String) (action : Action σ Unit) : Action σ Unit := fun s =>
  match action.run s with
  | .ok u next => .ok u next
  | .error (.error text) next => .error (.panic (description ++ " " ++ text)) next
  | .error (.panic text) next => .error (.panic text) next

section Genesis

variable {R : Type} (k : Env R)

def getModuleAccount : Action (World R) Unit := fun w =>
  match w.accounts k.moduleAddress with
  | some account =>
    if account.kind = .moduleAccount then .ok () w
    else .error (.panic "account is not a module account") w
  | none => .ok () ({ w with nextNumber := w.nextNumber + 1 }.putAccount k.moduleAddress
      ⟨.moduleAccount, w.nextNumber, 0⟩)

-- The loop over the pairs ends the import at the first one that is refused.
def importTokenPairs : List TokenPair → Action Store Bool
  | [] => pure true
  | pair :: rest => do
    let stored ← attempt (Store.setToken k.sum pair)
    if stored then importTokenPairs rest else pure false

def importAllowance (allowance : Allowance) : Action Store Unit :=
  orPanic "error setting allowance"
    (Store.unsafeSetAllowance k.evm.keccak256 (Ethereum.hexToAddress allowance.erc20Address)
      (Ethereum.hexToAddress allowance.owner) (Ethereum.hexToAddress allowance.spender)
      allowance.value.value)

def importRest (data : GenesisState) : Action (State R) Unit := do
  data.nativePrecompiles.forM fun precompile => orPanic "error registering native precompiles"
    (Keeper.enableNativePrecompile k (Ethereum.hexToAddress precompile))
  data.dynamicPrecompiles.forM fun precompile => orPanic "error registering dynamic precompiles"
    (Keeper.enableDynamicPrecompile k (Ethereum.hexToAddress precompile))
  onStore (data.allowances.forM (importAllowance k))

def initGenesis (data : GenesisState) : Action (State R) Unit := do
  onStore (modify fun store => { store with params := data.params })
  onWorld (getModuleAccount k)
  let imported ← onStore (importTokenPairs k data.tokenPairs)
  runIf imported (importRest k data)

end Genesis

end PosChain.Erc20
