import PosChain.Evm.Transition

namespace PosChain.Evm

open Ethereum

variable {R : Type}

-- The part of the bank that moves coins of the EVM denomination between accounts.
namespace Bank

def emit (event : Event) : Action (Ctx (World R)) Unit :=
  modify fun ctx => { ctx with events := ctx.events ++ [event] }

def spend (w : World R) (address : Address) (amount : Nat) : World R :=
  w.putBalance address (w.balances address - amount) (lt_of_le_of_lt (Nat.sub_le _ _) (w.bounded address))

def subUnlockedCoins (address : Address) (amount : Nat) : Action (Ctx (World R)) Unit := do
  let w := (← get).world
  failIf (w.spendableCoin address < amount) ("spendable balance " ++ toString (w.spendableCoin address) ++
    " is smaller than " ++ toString amount ++ ": insufficient funds")
  modify fun ctx => { ctx with world := spend ctx.world address amount }
  emit (.coinSpent address.bytes amount)

def addCoins (address : Address) (amount : Nat) : Action (Ctx (World R)) Unit := do
  let ctx ← get
  if h : ctx.world.balances address + amount < 2 ^ 256 then
    set { ctx with world := ctx.world.putBalance address (ctx.world.balances address + amount) h }
  else throw (.panic "Integer overflow")
  emit (.coinReceived address.bytes amount)

-- An account that receives coins is made if there is none.
def makeAccount (kind : AccountKind) (address : Address) (w : World R) : World R :=
  match w.accounts address with
  | some _ => w
  | none =>
    let (account, w) := w.newAccountWithAddress
    w.putAccount address { account with kind := kind }

def sendCoins (sender recipient : Address) (amount : Nat) : Action (Ctx (World R)) Unit := do
  subUnlockedCoins sender amount
  addCoins recipient amount
  modify fun ctx => { ctx with world := makeAccount .baseAccount recipient ctx.world }
  emit (.other "transfer")
  emit (.other "message")

def getModuleAccount (address : Address) : Action (Ctx (World R)) Unit := do
  let isOther := ((← get).world.accounts address).any fun account => account.kind ≠ .moduleAccount
  must (failIf isOther "account is not a module account")
  modify fun ctx => { ctx with world := makeAccount .moduleAccount address ctx.world }

def sendCoinsFromAccountToModule (sender moduleAddress : Address) (amount : Nat) :
    Action (Ctx (World R)) Unit := do
  getModuleAccount moduleAddress
  sendCoins sender moduleAddress amount

def sendCoinsFromModuleToAccount (config : Config) (moduleAddress recipient : Address) (amount : Nat) :
    Action (Ctx (World R)) Unit := do
  failIf (config.blockedAddr recipient.bytes)
    (config.bech32 recipient.bytes ++ " is not allowed to receive funds: unauthorized")
  sendCoins moduleAddress recipient amount

end Bank

-- What the transactions of a block are executed with. The hooks see the sender, the
-- message and the result.
structure Block (R : Type) where
  config : Config
  chain : Chain (World R)
  feeMarket : FeeMarket.State
  decimals : FeeMarket.Decimals
  evmDenom : String
  coinbase : Check Address
  hooks : Option (Address → Message → Response → Action (Ctx (World R)) Unit)
  feeCollector : Address

namespace Block

variable (block : Block R)

def env : Env (World R) :=
  VmKeeper.env block.config

def convertAmount (amount : LegacyDec) : Check LegacyDec :=
  amount.mulInt block.decimals.conversionFactor

def convertBaseFee : Option LegacyDec → Check (Option LegacyDec)
  | none => .ok none
  | some baseFee => some <$> block.convertAmount baseFee

def wrappedParams : Check FeeMarket.Params := do
  let params := block.feeMarket.getParams
  let baseFee ← block.convertBaseFee params.baseFee
  let minGasPrice ← FeeMarket.notNil params.minGasPrice
  let minGasPrice ← block.convertAmount minGasPrice
  return { params with baseFee := baseFee, minGasPrice := some minGasPrice }

-- There is no base fee before London, and it is zero without a fee market.
def getBaseFee : Check (Option Int) := do
  if !block.chain.rules.isLondon then return none
  match block.feeMarket.getBaseFee with
  | none => return some 0
  | some baseFee =>
    let converted ← block.convertAmount baseFee
    return some (← converted.truncateInt).value

def evmConfig : Check EVMConfig := do
  let params ← block.wrappedParams
  let _ ← annotate "failed to obtain coinbase address" block.coinbase
  return ⟨params.minGasMultiplier, ← block.getBaseFee⟩

-- The coins that were paid for the gas that is left go back to the sender.
def refundGas (msg : Message) (leftoverGas : UInt64) : Action (Ctx (World R)) Unit := do
  let remaining := leftoverGas.toNat * msg.gasPrice
  failIf (remaining < 0) ("refunded amount value cannot be negative " ++ toString remaining ++
    ": invalid gas refund amount")
  if 0 < remaining then
    let amount ← SdkInt.newIntFromBigInt remaining
    rewordError (fun text => "failed to refund " ++ toString leftoverGas.toNat ++ " leftover gas (" ++
        amount.toText ++ block.evmDenom ++ "): fee collector account failed to refund fees: " ++ text ++
        ": insufficient funds")
      (Bank.sendCoinsFromModuleToAccount block.config block.feeCollector msg.sender amount.value.toNat)

def applyMessage (msg : Message) (cfg : EVMConfig) (txIndex : Nat) (ctx : Ctx (World R)) :
    Check (Response × Ctx (World R)) :=
  match (block.chain.applyMessageWithConfig block.env msg cfg true false false).run
      ⟨.new ⟨ctx.world, []⟩ txIndex, []⟩ with
  | .ok res m => .ok (res, m.db.ctx)
  | .error fault _ => .error fault

-- A cache context that is written to the context below it.
def writeCtx (tmp : Ctx (World R)) (ctx : Ctx (World R)) : Ctx (World R) :=
  ⟨tmp.world, ctx.events ++ tmp.events⟩

-- A transaction that failed leaves its hooks a new cache context. Hooks that fail
-- undo the whole transaction, and those of a failed one may still write.
def postTxProcessing (msg : Message) (res : Response) (tmp : Ctx (World R)) :
    Action (Ctx (World R)) Response := do
  let ctx ← get
  let tmp := if res.failed then ⟨ctx.world, []⟩ else tmp
  match block.hooks with
  | none =>
    runIf (!res.failed) (modify (writeCtx tmp))
    return res
  | some hooks =>
    match (hooks msg.sender msg res).run tmp with
    | .ok _ tmp =>
      modify (writeCtx tmp)
      return res
    | .error (.error text) _ =>
      return { res with vmError := "failed to execute post transaction processing: " ++ text }
    | .error (.panic text) _ => throw (.panic text)

def remainingGas (msg : Message) (res : Response) : UInt64 :=
  if res.gasUsed < msg.gasLimit then msg.gasLimit - res.gasUsed else 0

-- The transaction without the refund, with the message that it was made into.
def executeTransaction (tx : Transaction) (txIndex : Nat) : Action (Ctx (World R)) (Message × Response) := do
  let cfg ← annotate "failed to load evm config" block.evmConfig
  let msg ← annotate "failed to return ethereum transaction as core message" (tx.toMessage cfg.baseFee)
  let (res, tmp) ← annotate "failed to apply ethereum core message"
    (block.applyMessage msg cfg txIndex (← get))
  return (msg, ← block.postTxProcessing msg res tmp)

def applyTransaction (tx : Transaction) (txIndex : Nat) : Action (Ctx (World R)) Response := do
  let (msg, res) ← block.executeTransaction tx txIndex
  wrapError ("failed to refund leftover gas to sender " ++
      addressHex block.config.keccak256 msg.sender)
    (block.refundGas msg (remainingGas msg res))
  return res

end Block

end PosChain.Evm
