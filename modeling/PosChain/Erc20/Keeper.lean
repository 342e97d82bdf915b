import PosChain.Base.Triple
import PosChain.Erc20.Store
import PosChain.Evm.Keeper

namespace PosChain.Erc20

open Evm (World)

inductive Method where
  | name
  | symbol
  | decimals
  | balanceOf (account : Address)
  | transfer (recipient : Address) (amount : SdkInt)
  deriving DecidableEq

structure Message where
  sender : Address
  contract : Address
  method : Method
  deriving DecidableEq

structure Response where
  ret : Bytes
  vmError : String
  logs : List Evm.Log
  deriving DecidableEq

structure Metadata where
  description : String
  base : String
  denomUnits : List (String × Nat)
  name : String
  symbol : String
  display : String
  deriving DecidableEq

structure ERC20Data where
  name : String
  symbol : String
  decimals : Nat
  deriving DecidableEq

-- The trace of an ICS-20 denomination lists its hops by port and channel.
structure Denom where
  base : String
  trace : List (String × String)
  deriving DecidableEq

-- What the module needs of the rest of the application: the hashes, the codecs,
-- the other keepers, and how the virtual machine runs a contract. Running a
-- contract may change every store except the module's own.
structure Env (R : Type) where
  evm : Evm.Config
  sum : Bytes → Bytes
  bytecode : Bytes
  moduleAddress : Address
  accAddressFromBech32 : String → Except String AccAddress
  stringToBytes : String → Except String AccAddress
  validateAuthority : World R → String → Except String Unit
  bondDenom : World R → Except String String
  isModuleAccount : World R → AccAddress → Bool
  extractDenomFromPath : String → Denom
  ibcDenom : Denom → String
  isSendEnabledCoin : World R → String → Bool
  getBalance : World R → AccAddress → String → SdkInt
  spendableCoin : World R → AccAddress → String → SdkInt
  getSupply : World R → String → Int
  hasDenomMetaData : World R → String → Bool
  setDenomMetaData : Metadata → World R → World R
  metadataValidate : Metadata → Except String Unit
  mintCoins : String → Coin → Action (World R) Unit
  burnCoins : String → Coin → Action (World R) Unit
  sendCoinsFromModuleToAccount : String → AccAddress → Coin → Action (World R) Unit
  sendCoinsFromAccountToModule : AccAddress → String → Coin → Action (World R) Unit
  execute : Message → Action (World R) Response
  unpackBool : Bytes → Except String Bool
  unpackUint256 : Bytes → Except String Nat
  unpackUint8 : Bytes → Except String Nat
  unpackString : Bytes → Except String String

structure State (R : Type) where
  store : Store
  world : World R

def onStore {R α : Type} (action : Action Store α) : Action (State R) α :=
  onPart State.store (fun store s => { s with store := store }) action

def onWorld {R α : Type} (action : Action (World R) α) : Action (State R) α :=
  onPart State.world (fun world s => { s with world := world }) action

namespace Keeper

variable {R : Type} (k : Env R)

def addressHex (address : Address) : String :=
  Ethereum.addressHex k.evm.keccak256 address

section CallEVM

-- Without a commit the changes of an execution are dropped.
def applyMessage (msg : Message) (commit : Bool) : Action (World R) Response := fun w =>
  match (k.execute msg).run w with
  | .ok res next => .ok res (if commit then next else w)
  | .error fault next => .error fault (if commit then next else w)

def callEVMWithData (msg : Message) (commit : Bool) : Action (World R) Response := do
  let w ← get
  failIf (w.accounts msg.sender).isNone
    ("account " ++ k.evm.bech32 msg.sender.bytes ++ " does not exist: unknown address")
  let res ← applyMessage k msg commit
  failIf (res.vmError != "") (res.vmError ++ ": evm transaction execution failed")
  return res

def callEVM (sender contract : Address) (method : String) (call : Method) (commit : Bool) :
    Action (World R) Response :=
  wrapError ("contract call failed: method '" ++ method ++ "', contract '" ++ addressHex k contract ++ "'")
    (callEVMWithData k ⟨sender, contract, call⟩ commit)

-- A query leaves no trace, so only its answer counts.
def query (w : World R) (contract : Address) (method : String) (call : Method) : Check Response :=
  match (callEVM k k.moduleAddress contract method call false).run w with
  | .ok res _ => .ok res
  | .error fault _ => .error fault

def bytes32ToString (bytes : Bytes) : String :=
  Bytes.toText (bytes.takeWhile (· != 0))

def queryERC20String (w : World R) (contract : Address) (method : String) (call : Method) : Check String := do
  let res ← query k w contract method call
  match k.unpackString res.ret with
  | .ok text => pure text
  | .error _ =>
    if res.ret.length = 32 then pure (bytes32ToString res.ret)
    else throw (.error (s!"failed to unpack {method} as both string and raw bytes32 " ++
      s!"(len={res.ret.length}): contract ABI unpack failed"))

def queryERC20 (w : World R) (contract : Address) : Check ERC20Data := do
  let name ← queryERC20String k w contract "name" .name
  let symbol ← queryERC20String k w contract "symbol" .symbol
  let res ← query k w contract "decimals" .decimals
  let decimals ← passOn ((k.unpackUint8 res.ret).mapError fun text =>
    "failed to unpack decimals: " ++ text ++ ": contract ABI unpack failed")
  return ⟨name, symbol, decimals⟩

-- The balance is missing when the call fails or its answer is no number.
def balanceOf (w : World R) (contract account : Address) : Check (Option Nat) :=
  match query k w contract "balanceOf" (.balanceOf account) with
  | .ok res => .ok (k.unpackUint256 res.ret).toOption
  | .error (.error _) => .ok none
  | .error (.panic text) => .error (.panic text)

def logTransferSigHash : Hash :=
  k.evm.keccak256 (Bytes.utf8 "Transfer(address,address,uint256)")

-- Reading the first topic of a log without any is out of range.
def findTransferEvent (tokenAddress : Address) (found : Bool) : List Evm.Log → Check Bool
  | [] => pure found
  | log :: rest => do
    let topic ← orFail log.topics.head? (.panic "index out of range [0] with length 0")
    if topic = logTransferSigHash k then do
      failIf (log.address != tokenAddress) "Transfer event from unexpected address: unexpected event"
      failIf found "duplicate Transfer event: unexpected event"
      findTransferEvent tokenAddress true rest
    else findTransferEvent tokenAddress found rest

def validateTransferEventExists (logs : List Evm.Log) (tokenAddress : Address) : Check Unit := do
  failIf logs.isEmpty "expected Transfer event: expected event"
  let found ← findTransferEvent k tokenAddress false logs
  failIf (!found) "expected Transfer event: expected event"

-- A token that returns nothing must have logged its transfer.
def checkReturn (contract : Address) (failure : String) (res : Response) : Check Unit :=
  if res.ret.length = 0 then validateTransferEventExists k res.logs contract
  else do
    let value ← passOn (k.unpackBool res.ret)
    failIf (!value) (failure ++ ": internal logic error")

def retrieveBalance (w : World R) (contract account : Address) : Check Nat := do
  let balance ← balanceOf k w contract account
  orFail balance (.error "failed to retrieve balance: EVM call unexpected error")

end CallEVM

section Registration

def registerERC20CodeHash (erc20Addr : Address) : Action (World R) Unit := do
  let codeHash := k.evm.keccak256 k.bytecode
  modify fun w => if ((w.getCode codeHash).getD []).length = 0 then w.setCode codeHash k.bytecode else w
  let w ← get
  let acc := (w.getAccount k.evm erc20Addr).getD ⟨0, 0, k.evm.emptyCodeHash, none⟩
  Evm.VmKeeper.setAccount k.evm erc20Addr { acc with codeHash := codeHash }

def enableNativePrecompile (address : Address) : Action (State R) Unit := do
  let s ← get
  runIf (!s.store.isNativePrecompileAvailable k.evm.keccak256 address)
    (onWorld (registerERC20CodeHash k address))
  onStore (modify fun store => store.setNativePrecompile k.evm.keccak256 address)

def enableDynamicPrecompile (address : Address) : Action (State R) Unit := do
  let s ← get
  runIf (!s.store.isDynamicPrecompileAvailable k.evm.keccak256 address)
    (onWorld (registerERC20CodeHash k address))
  onStore (modify fun store => store.setDynamicPrecompile k.evm.keccak256 address)

def hasCodeHash (w : World R) (address : Address) : Bool :=
  (w.accounts address).isSome && w.getCodeHash k.evm address != k.evm.emptyCodeHash

def createNewTokenPair (denom : String) : Action (State R) TokenPair := do
  let pair ← newTokenPairSTRv2 k.evm.keccak256 denom
  let s ← get
  failIf (hasCodeHash k s.world pair.getERC20Contract)
    ("token already exists for token " ++ pair.erc20Address ++ ": token pair already exists")
  onStore (Store.setToken k.sum pair)
  return pair

def registerERC20Extension (denom : String) : Action (State R) TokenPair := do
  let pair ← createNewTokenPair k denom
  enableDynamicPrecompile k pair.getERC20Contract
  return pair

def coinMetadata (strContract : String) (data : ERC20Data) : Metadata :=
  let base := createDenom strContract
  let sanitized := sanitizeERC20Name data.name
  { description := "Cosmos coin token representation of " ++ strContract
    base := base
    denomUnits := if 0 < data.decimals then [(base, 0), (sanitized, data.decimals)] else [(base, 0)]
    name := base
    symbol := data.symbol
    display := if 0 < data.decimals then sanitized else base }

def createCoinMetadata (contract : Address) : Action (State R) Metadata := do
  let strContract := addressHex k contract
  let s ← get
  let erc20Data ← queryERC20 k s.world contract
  failIf (k.hasDenomMetaData s.world (createDenom strContract))
    "denom metadata already registered: internal ethereum token mapping error"
  failIf (s.store.isDenomRegistered (createDenom strContract))
    ("coin denomination already registered: " ++ erc20Data.name ++ ": internal ethereum token mapping error")
  let metadata := coinMetadata strContract erc20Data
  annotate ("ERC20 token data is invalid for contract " ++ strContract)
    (passOn (k.metadataValidate metadata))
  onWorld (modify (k.setDenomMetaData metadata))
  return metadata

def registerERC20 (contract : Address) : Action (State R) TokenPair := do
  let s ← get
  failIf (s.store.isERC20Registered contract)
    ("token ERC20 contract already registered: " ++ addressHex k contract ++ ": token pair already exists")
  let metadata ← wrapError "failed to create wrapped coin denom metadata for ERC20"
    (createCoinMetadata k contract)
  let pair := newTokenPair k.evm.keccak256 contract metadata.name .ownerExternal
  onStore (Store.setToken k.sum pair)
  return pair

end Registration

section Conversion

def mintingEnabled (s : State R) (receiver : AccAddress) (token : String) : Check TokenPair := do
  failIf (!s.store.params.enableErc20)
    "module is currently disabled by governance: erc20 module is disabled"
  let id ← orFail (s.store.getTokenPairID token)
    (.error ("token '" ++ token ++ "' not registered by id: token pair not found"))
  let pair ← orFail (s.store.getTokenPair (some id))
    (.error ("token '" ++ token ++ "' not registered: token pair not found"))
  failIf (!pair.enabled)
    ("minting token '" ++ token ++ "' is not enabled by governance: erc20 token pair is disabled")
  failIf (k.evm.blockedAddr receiver)
    (k.evm.bech32 receiver ++ " is not allowed to receive transactions: unauthorized")
  failIf (!k.isSendEnabledCoin s.world pair.denom)
    ("minting '" ++ token ++ "' coins to an external address is currently disabled: " ++
      "send transactions are disabled")
  return pair

def escrowCoins (sender : AccAddress) (coin : Coin) : Action (World R) Unit :=
  wrapError "failed to escrow coins" (k.sendCoinsFromAccountToModule sender moduleName coin)

-- A transfer of tokens whose effect on one account is checked afterwards.
def transferTokens (contract account : Address) (amount : SdkInt) (balanceToken : Nat)
    (call : Action (World R) Response) (failure : String) : Action (World R) Unit := do
  let res ← call
  checkReturn k contract failure res
  let w ← get
  let balanceTokenAfter ← retrieveBalance k w contract account
  failIf ((balanceTokenAfter : Int) != balanceToken + amount.value)
    (s!"invalid token balance - expected: {balanceToken + amount.value}, " ++
      s!"actual: {balanceTokenAfter}: post transfer balance invariant failed")

def convertCoinNativeERC20 (pair : TokenPair) (amount : SdkInt) (receiver : Address)
    (sender : AccAddress) : Action (World R) Unit := do
  failIf (!amount.isPositive) "converted coin amount must be positive: token amount is negative"
  let contract := pair.getERC20Contract
  let w ← get
  let balanceToken ← retrieveBalance k w contract receiver
  escrowCoins k sender ⟨pair.denom, amount⟩
  transferTokens k contract receiver amount balanceToken
    (callEVM k k.moduleAddress contract "transfer" (.transfer receiver amount) true)
    "failed to execute unescrow tokens from user"
  wrapError "failed to burn coins" (k.burnCoins moduleName ⟨pair.denom, amount⟩)

def undefinedOwner (pair : TokenPair) : Fault :=
  if pair.isNativeCoin then .error "native coins manual conversion is disabled"
  else .error "undefined owner of contract pair"

-- Tokens that the module receives are minted as coins to the receiver.
def mintForTokens (pair : TokenPair) (amount : SdkInt) (receiver : AccAddress) (sender : Address) :
    Action (World R) Unit := do
  let contract := pair.getERC20Contract
  let w ← get
  let balanceCoin := k.getBalance w receiver pair.denom
  let balanceToken ← retrieveBalance k w contract k.moduleAddress
  transferTokens k contract k.moduleAddress amount balanceToken
    (callEVMWithData k ⟨sender, contract, .transfer k.moduleAddress amount⟩ true)
    "failed to execute transfer"
  k.mintCoins moduleName ⟨pair.denom, amount⟩
  k.sendCoinsFromModuleToAccount moduleName receiver ⟨pair.denom, amount⟩
  let w ← get
  let expCoin ← balanceCoin.add amount
  failIf (k.getBalance w receiver pair.denom != expCoin)
    (s!"invalid coin balance - expected: {expCoin.toText}{pair.denom}, " ++
      s!"actual: {(k.getBalance w receiver pair.denom).toText}{pair.denom}: " ++
      "post transfer balance invariant failed")

-- The pair of a contract that has destructed itself is deleted instead.
def convertERC20IntoCoinsForNativeToken (contract : Address) (amount : SdkInt) (receiver : AccAddress)
    (sender : Address) : Action (State R) Unit := do
  let s ← get
  let pair ← mintingEnabled k s receiver (addressHex k contract)
  if !pair.isNativeERC20 then throw (undefinedOwner pair)
  else if !hasCodeHash k s.world pair.getERC20Contract then
    onStore (modify fun store => store.deleteTokenPair k.sum pair)
  else onWorld (mintForTokens k pair amount receiver sender)

end Conversion

section Messages

structure MsgConvertERC20 where
  contractAddress : String
  amount : SdkInt
  receiver : String
  sender : String

def convertERC20 (msg : MsgConvertERC20) : Action (State R) Unit := do
  failIf (!Ethereum.isHexAddress msg.contractAddress)
    ("invalid contract hex address '" ++ msg.contractAddress ++ "': invalid address")
  failIf (!msg.amount.isPositive) "cannot mint a non-positive amount: invalid coins"
  let receiver ← annotate "invalid receiver address" (passOn (k.accAddressFromBech32 msg.receiver))
  failIf (!Ethereum.isHexAddress msg.sender)
    ("invalid sender hex address " ++ msg.sender ++ ": invalid address")
  convertERC20IntoCoinsForNativeToken k (Ethereum.hexToAddress msg.contractAddress) msg.amount receiver
    (Ethereum.hexToAddress msg.sender)

structure MsgConvertCoin where
  coin : Coin
  receiver : String
  sender : String

def convertCoin (msg : MsgConvertCoin) : Action (State R) Unit := do
  failIf (msg.coin.denom == "") "denom cannot be empty: invalid coins"
  failIf (!msg.coin.amount.isPositive) "cannot mint a non-positive amount: invalid coins"
  let sender ← annotate "invalid sender address" (passOn (k.accAddressFromBech32 msg.sender))
  failIf (!Ethereum.isHexAddress msg.receiver)
    ("invalid receiver hex address " ++ msg.receiver ++ ": invalid address")
  let receiver := Ethereum.hexToAddress msg.receiver
  let s ← get
  let pair ← mintingEnabled k s receiver.bytes msg.coin.denom
  if !pair.isNativeERC20 then throw (undefinedOwner pair)
  else if !hasCodeHash k s.world pair.getERC20Contract then
    onStore (modify fun store => store.deleteTokenPair k.sum pair)
  else onWorld (convertCoinNativeERC20 k pair msg.coin.amount receiver sender)

structure MsgUpdateParams where
  authority : String
  params : Params

def checkAuthority (w : World R) (authority : String) : Check Unit := do
  let _ ← passOn ((k.stringToBytes authority).mapError fun text =>
    "invalid authority address: " ++ text ++ ": invalid address")
  passOn (k.validateAuthority w authority)

def updateParams (req : MsgUpdateParams) : Action (State R) Unit := do
  let s ← get
  checkAuthority k s.world req.authority
  onStore (modify fun store => { store with params := req.params })

structure MsgRegisterERC20 where
  signer : String
  erc20Addresses : List String

def registerAddress (address : String) : Action (State R) Unit := do
  failIf (!Ethereum.isHexAddress address)
    ("invalid ERC20 contract address: " ++ address ++ ": invalid address")
  let _ ← registerERC20 k (Ethereum.hexToAddress address)

def registerERC20s (req : MsgRegisterERC20) : Action (State R) Unit := do
  let s ← get
  runIf (!s.store.params.permissionlessRegistration) (liftM (checkAuthority k s.world req.signer))
  failIf (!s.store.params.enableErc20)
    "registration is currently disabled by governance: erc20 module is disabled"
  req.erc20Addresses.forM (registerAddress k)

structure MsgToggleConversion where
  authority : String
  token : String

def toggleConversion (req : MsgToggleConversion) : Action (State R) Unit := do
  let s ← get
  failIf (!s.store.params.enableErc20)
    "toggle conversion is currently disabled by governance: erc20 module is disabled"
  checkAuthority k s.world req.authority
  let _ ← onStore (Store.toggleConversion k.sum req.token)

end Messages

-- The callbacks of the IBC middleware. A packet that is not decoded has no data.
section Callbacks

structure FungibleTokenPacketData where
  denom : String
  amount : String
  sender : String
  receiver : String
  deriving DecidableEq

structure Packet where
  sourcePort : String
  sourceChannel : String
  destinationPort : String
  destinationChannel : String
  data : Option FungibleTokenPacketData

-- A coin coming home loses the hop it was sent with, any other one gains a hop.
def getReceivedDenom (packet : Packet) (denom : Denom) : String :=
  if denom.trace.head? = some (packet.sourcePort, packet.sourceChannel) then
    k.ibcDenom { denom with trace := denom.trace.tail }
  else
    k.ibcDenom { denom with trace := (packet.destinationPort, packet.destinationChannel) :: denom.trace }

def convertReceived (s : State R) (recipient : AccAddress) (amount : Option SdkInt) (denom : String) :
    Action (State R) Unit := do
  let pair ← mintingEnabled k s recipient denom
  let amount ← orFail amount nilDereference
  onWorld (convertCoinNativeERC20 k pair amount (Ethereum.bytesToAddress recipient) recipient)

-- The pair of the received coin decides: a new IBC coin is given an extension,
-- the coin of a token is converted, and every other coin stays as it is.
def dispatchReceived (s : State R) (recipient : AccAddress) (amount : Option SdkInt) (denom : String) :
    Action (State R) Unit :=
  match s.store.getTokenPair (s.store.getTokenPairID denom) with
  | none =>
    if ibcHead.isPrefixOf (Bytes.utf8 denom) then do
      let _ ← registerERC20Extension k denom
    else pure ()
  | some pair =>
    if pair.isNativeERC20 && pair.enabled then convertReceived k s recipient amount denom else pure ()

def onRecvPacket (packet : Packet) : Action (State R) Unit := do
  let s ← get
  if !s.store.params.enableErc20 then pure ()
  else do
    let data ← orFail packet.data (.error "cannot unmarshal ICS-20 transfer packet data: invalid type")
    let denom := getReceivedDenom k packet (k.extractDenomFromPath data.denom)
    if (Bytes.utf8 "factory/").isPrefixOf (Bytes.utf8 data.denom) then pure ()
    else do
      let bondDenom ← passOn (k.bondDenom s.world)
      if denom = bondDenom then pure ()
      else do
        let recipient ← annotate "invalid recipient" (passOn (k.stringToBytes data.receiver))
        if k.isModuleAccount s.world recipient then pure ()
        else dispatchReceived k s recipient (SdkInt.newIntFromString data.amount) denom

def refundedPair (s : State R) (sender : AccAddress) (denom : String) : Option TokenPair :=
  match s.store.getTokenPair (s.store.getTokenPairID denom) with
  | none => none
  | some pair =>
    let coinDenom := k.ibcDenom (k.extractDenomFromPath denom)
    if pair.isNativeERC20 && s.store.params.enableErc20 && s.store.isDenomRegistered coinDenom &&
      !k.isModuleAccount s.world sender then some pair
    else none

def convertRefund (pair : TokenPair) (amount : Option SdkInt) (sender : AccAddress) : Action (World R) Unit := do
  let amount ← orFail amount nilDereference
  convertCoinNativeERC20 k pair amount (Ethereum.bytesToAddress sender) sender

-- The error of a failed conversion is only reported in an event.
def convertCoinToERC20FromPacket (data : FungibleTokenPacketData) : Action (State R) Unit := do
  let sender ← passOn (k.stringToBytes data.sender)
  let s ← get
  match refundedPair k s sender data.denom with
  | none => pure ()
  | some pair => do
    let _ ← attempt (onWorld (convertRefund k pair (SdkInt.newIntFromString data.amount) sender))

inductive Acknowledgement where
  | result
  | error
  deriving DecidableEq

def onAcknowledgementPacket (data : FungibleTokenPacketData) : Acknowledgement → Action (State R) Unit
  | .error => convertCoinToERC20FromPacket k data
  | .result => pure ()

def onTimeoutPacket (data : FungibleTokenPacketData) : Action (State R) Unit :=
  convertCoinToERC20FromPacket k data

end Callbacks

end Keeper

end PosChain.Erc20
