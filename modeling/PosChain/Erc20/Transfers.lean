import PosChain.Erc20.Keeper

namespace PosChain.Erc20

open Evm (World)
open Keeper

structure MsgTransfer where
  token : Coin
  sender : String
  receiver : String
  sourcePort : String
  sourceChannel : String
  memo : String

-- The ICS-20 application below the middleware: it receives a packet, pays back the
-- sender of one, and sends coins away.
structure Ics20 (R : Type) where
  onRecvPacket : Packet → Action (World R) Unit
  refund : FungibleTokenPacketData → Action (World R) Unit
  transfer : MsgTransfer → Action (World R) Unit

section Transfers

variable {R : Type} (k : Env R) (ics20 : Ics20 R)

-- The middleware runs the application first.
def receivePacket (packet : Packet) : Action (State R) Unit := do
  onWorld (ics20.onRecvPacket packet)
  onRecvPacket k packet

def acknowledgePacket (data : FungibleTokenPacketData) (ack : Acknowledgement) : Action (State R) Unit := do
  runIf (ack == .error) (onWorld (ics20.refund data))
  onAcknowledgementPacket k data ack

def timeoutPacket (data : FungibleTokenPacketData) : Action (State R) Unit := do
  onWorld (ics20.refund data)
  onTimeoutPacket k data

-- The precompile converts tokens for the part of the amount that the sender has no
-- coins for.
def transferPair (msg : MsgTransfer) (pair : TokenPair) (sender : AccAddress) (balance : SdkInt) :
    Action (State R) Unit :=
  if !balance.lt msg.token.amount then onWorld (ics20.transfer msg)
  else do
    let difference ← msg.token.amount.sub balance
    convertERC20IntoCoinsForNativeToken k pair.getERC20Contract difference sender
      (Ethereum.bytesToAddress sender)
    onWorld (ics20.transfer msg)

def missingPair : TokenPair :=
  ⟨"", "", false, .unspecified⟩

def transferRegistered (msg : MsgTransfer) (pair : TokenPair) : Action (State R) Unit := do
  let sender ← must (passOn (k.accAddressFromBech32 msg.sender))
  let s ← get
  if !s.store.params.enableErc20 then onWorld (ics20.transfer msg)
  else
    let msg := { msg with token := { msg.token with denom := pair.denom } }
    if !pair.isNativeERC20 then onWorld (ics20.transfer msg)
    else transferPair k ics20 msg pair sender (k.spendableCoin s.world sender pair.denom)

def transferWithStateDB (msg : MsgTransfer) : Action (State R) Unit := do
  let s ← get
  match s.store.getTokenPairID (Text.trimPrefix msg.token.denom "erc20:") with
  | none => onWorld (ics20.transfer msg)
  | some id =>
    let pair := (s.store.getTokenPair (some id)).getD missingPair
    if !pair.enabled then onWorld (ics20.transfer msg) else transferRegistered k ics20 msg pair

end Transfers

end PosChain.Erc20
