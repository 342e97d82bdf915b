import PosChain.Erc20.Backing
import PosChain.Evm.Keeper.Theorems

namespace PosChain.Erc20

open Evm (World)
open Keeper

-- What moves coins and tokens: the messages, the packets, the precompile for ICS-20
-- and the holders of the token, none of which is the module. What fails is rolled back.
inductive Move {R : Type} (k : Env R) where
  | convertERC20 (msg : MsgConvertERC20)
  | convertCoin (msg : MsgConvertCoin)
  | receive (packet : Packet)
  | acknowledge (data : FungibleTokenPacketData) (ack : Acknowledgement)
  | timeout (data : FungibleTokenPacketData)
  | transfer (msg : MsgTransfer)
  | send (sender recipient : Address) (amount : SdkInt) (hsender : sender ≠ k.moduleAddress)
      (hamount : 0 ≤ amount.value)

section Moves

variable {R : Type} (k : Env R) (ics20 : Ics20 R) (contract : Address)

def execute : Move k → Action (State R) Unit
  | .convertERC20 msg => convertERC20 k msg
  | .convertCoin msg => convertCoin k msg
  | .receive packet => receivePacket k ics20 packet
  | .acknowledge data ack => acknowledgePacket k ics20 data ack
  | .timeout data => timeoutPacket k ics20 data
  | .transfer msg => transferWithStateDB k ics20 msg
  | .send sender recipient amount _ _ => do
    let _ ← onWorld (k.execute ⟨sender, contract, .transfer recipient amount⟩)

def Move.texts : Move k → Set Bytes
  | .receive packet => packet.texts k
  | _ => ∅

def moveStep (s : State R) (move : Move k) : Option (Unit × State R) :=
  kept ((execute k ics20 contract move).run s)

def movedTexts (s : State R) (moves : List (Move k)) : Set Bytes :=
  {text | ∃ entry ∈ Run.accepted (moveStep k ics20 contract) s moves, text ∈ entry.1.texts k}

end Moves

-- The precompile sends coins, after a conversion where some are missing.
section Precompile

variable {R : Type} {k : Env R} {ics20 : Ics20 R} {s t : State R}

theorem transferPair_ok {msg : MsgTransfer} {pair : TokenPair} {sender : AccAddress} {balance : SdkInt}
    (h : (transferPair k ics20 msg pair sender balance).run s = .ok () t) :
    ∃ middle, (middle = s ∨ ∃ token amount receiver sender, 0 < amount.value ∧
        (convertERC20IntoCoinsForNativeToken k token amount receiver sender).run s = .ok () middle) ∧
      (onWorld (ics20.transfer msg)).run middle = .ok () t := by
  unfold transferPair at h
  split at h
  · exact ⟨s, .inl rfl, h⟩
  · rename_i hshort
    rw [run_lift_bind] at h
    obtain ⟨difference, hdifference, h⟩ := h
    rw [run_bind_eq_ok] at h
    obtain ⟨_, converted, hconvert, h⟩ := h
    have hpositive : 0 < difference.value := by
      have hvalue := (SdkInt.sub_eq_ok _ _ _).mp hdifference
      simp only [SdkInt.lt, Bool.not_eq_true', decide_eq_false_iff_not, not_not] at hshort
      omega
    exact ⟨converted, .inr ⟨_, difference, _, _, hpositive, hconvert⟩, h⟩

theorem transferWithStateDB_ok {msg : MsgTransfer} (h : (transferWithStateDB k ics20 msg).run s = .ok () t) :
    ∃ middle sent, (middle = s ∨ ∃ token amount receiver sender, 0 < amount.value ∧
        (convertERC20IntoCoinsForNativeToken k token amount receiver sender).run s = .ok () middle) ∧
      (onWorld (ics20.transfer sent)).run middle = .ok () t := by
  rw [transferWithStateDB, run_get_bind] at h
  split at h
  · exact ⟨s, msg, .inl rfl, h⟩
  dsimp only at h
  split at h
  · exact ⟨s, msg, .inl rfl, h⟩
  rw [transferRegistered, run_lift_bind] at h
  obtain ⟨sender, -, h⟩ := h
  rw [run_get_bind] at h
  dsimp only at h
  split at h
  · exact ⟨s, msg, .inl rfl, h⟩
  split at h
  · exact ⟨s, _, .inl rfl, h⟩
  · obtain ⟨middle, hmiddle, hsend⟩ := transferPair_ok h
    exact ⟨middle, _, hmiddle, hsend⟩

end Precompile

-- What a conversion that completes does. A message names the pair by its contract
-- or by its coin, and a contract without code has its pair deleted instead.
structure Exact {R : Type} (k : Env R) (contract : Address) (denom : String) (tokens : World R → Address → Nat)
    (worlds : Set (World R)) (s : State R) : Prop where
  toTokens : ∀ id pair amount receiver sender next, ∀ w ∈ worlds, s.store.pairAt id = some pair →
    pair.isNativeERC20 = true → pair.getERC20Contract = contract →
    (convertCoinNativeERC20 k pair amount receiver sender).run w = .ok () next →
    Swapped k denom tokens (some sender) none k.moduleAddress receiver amount w next
  toCoins : ∀ id pair amount receiver sender next, ∀ w ∈ worlds, s.store.pairAt id = some pair →
    pair.isNativeERC20 = true → pair.getERC20Contract = contract → 0 < amount.value →
    (mintForTokens k pair amount receiver sender).run w = .ok () next →
    Swapped k denom tokens none (some receiver) sender k.moduleAddress amount w next
  convertCoin : ∀ msg t, s.store.getTokenPairID msg.coin.denom = s.store.erc20Map contract →
    hasCodeHash k s.world contract = true → (convertCoin k msg).run s = .ok () t →
    ∃ sender, k.accAddressFromBech32 msg.sender = .ok sender ∧
      Swapped k denom tokens (some sender) none k.moduleAddress (Ethereum.hexToAddress msg.receiver)
        msg.coin.amount s.world t.world
  convertERC20 : ∀ msg t, Ethereum.hexToAddress msg.contractAddress = contract →
    hasCodeHash k s.world contract = true → (convertERC20 k msg).run s = .ok () t →
    ∃ receiver, k.accAddressFromBech32 msg.receiver = .ok receiver ∧
      Swapped k denom tokens none (some receiver) (Ethereum.hexToAddress msg.sender) k.moduleAddress
        msg.amount s.world t.world

section Steps

variable {R : Type} {k : Env R} {ics20 : Ics20 R} {contract : Address} {denom : String}
  {tokens : World R → Address → Nat} {worlds : Set (World R)} {s t : State R}

theorem Linked.of_pairs {store next : Store} (h : Linked contract denom store)
    (hpairs : ∀ id pair, next.pairAt id = some pair → pair.isNativeERC20 = true → store.pairAt id = some pair) :
    Linked contract denom next := by
  intro id pair hpair hnative
  exact h id pair (hpairs id pair hpair hnative) hnative

theorem Linked.deleteTokenPair {store : Store} (h : Linked contract denom store) (sum : Bytes → Bytes)
    (pair : TokenPair) : Linked contract denom (store.deleteTokenPair sum pair) := by
  refine h.of_pairs fun id other hother _ => ?_
  rw [pairAt_deleteTokenPair, Function.update_apply] at hother
  split at hother
  · cases hother
  · exact hother

theorem Linked.addExtension {store next : Store} (h : Linked contract denom store) (sum : Bytes → Bytes)
    {pair : TokenPair} (howner : pair.isNativeERC20 = false)
    (hnext : next.pairAt = (store.addToken sum pair).pairAt) : Linked contract denom next := by
  refine h.of_pairs fun id other hother hnative => ?_
  rw [hnext, pairAt_addToken, Function.update_apply] at hother
  split at hother
  · cases hother
    rw [howner] at hnative
    cases hnative
  · exact hother

theorem Store.Indexed.linked {sum : Bytes → Bytes} {texts : Set Bytes} {store : Store}
    (h : store.Indexed sum texts) {id : Bytes} {pair : TokenPair} (hpair : store.pairAt id = some pair) :
    Linked pair.getERC20Contract pair.denom store := by
  intro other row hrow _
  constructor
  · intro hcontract
    obtain rfl := h.byErc20.unique hrow hpair hcontract
    rw [hpair] at hrow
    rw [Option.some.inj hrow]
  · intro hdenom
    obtain rfl := h.byDenom.unique hrow hpair hdenom
    rw [hpair] at hrow
    rw [Option.some.inj hrow]

theorem pairAt_of_refundedPair {sender : AccAddress} {coin : String} {pair : TokenPair}
    (h : refundedPair k s sender coin = some pair) :
    ∃ id, s.store.pairAt id = some pair ∧ pair.isNativeERC20 = true := by
  unfold refundedPair at h
  split at h
  · cases h
  · rename_i found hfound
    dsimp only at h
    split at h
    · rename_i hconditions
      cases h
      obtain ⟨id, -, hid⟩ := Option.bind_eq_some_iff.mp hfound
      simp only [Bool.and_eq_true] at hconditions
      exact ⟨id, hid, hconditions.1.1.1⟩
    · cases h

theorem onWorld_backed {action : Action (World R) Unit}
    (hsafe : Safe k denom tokens worlds s.world (endState (action.run s.world)))
    (hlinked : Linked contract denom s.store) (h : (onWorld action).run s = .ok () t) :
    Safe k denom tokens worlds s.world t.world ∧ Linked contract denom t.store := by
  obtain ⟨next, hrun, rfl⟩ := (run_onWorld_eq_ok _).mp h
  rw [hrun] at hsafe
  exact ⟨hsafe, hlinked⟩

variable (hlaw : k.LawfulBank) (htoken : StandardToken k contract tokens worlds)
  (hworld : Surroundings k ics20 contract denom tokens worlds)

include hlaw htoken hworld

theorem toTokens_backed (hlinked : Linked contract denom s.store) {id : Bytes} {pair : TokenPair}
    (hpair : s.store.pairAt id = some pair) (hnative : pair.isNativeERC20 = true) (amount : SdkInt)
    (receiver : Address) (sender : AccAddress) {w : World R} (hw : w ∈ worlds) :
    Ends ((convertCoinNativeERC20 k pair amount receiver sender).run w) (fun _ => Safe k denom tokens worlds w)
      (fun next => sender ≠ k.moduleAccount → Safe k denom tokens worlds w next) := by
  have hlink := hlinked id pair hpair hnative
  by_cases hcontract : pair.getERC20Contract = contract
  · refine (convertCoinNativeERC20_ends hlaw htoken hworld hcontract (hlink.mp hcontract) receiver sender hw).mono
      (fun _ next hnext => ⟨hnext.1, ?_⟩) fun _ h => h
    obtain ⟨-, hswapped⟩ := hnext
    refine (hswapped.backing_eq ?_ (by simp)).ge
    simp [hswapped.distinct.symm]
  · exact (safe_convertCoin hlaw hworld hcontract (fun hdenom => hcontract (hlink.mpr hdenom)) receiver sender
      hw).mono (fun _ _ h => h) fun _ h _ => h

theorem toCoins_backed (hlinked : Linked contract denom s.store) {id : Bytes} {pair : TokenPair}
    (hpair : s.store.pairAt id = some pair) (hnative : pair.isNativeERC20 = true) {amount : SdkInt}
    (hamount : 0 < amount.value) {receiver : AccAddress} {sender : Address} {w next : World R}
    (hw : w ∈ worlds) (h : (mintForTokens k pair amount receiver sender).run w = .ok () next) :
    Safe k denom tokens worlds w next := by
  have hlink := hlinked id pair hpair hnative
  by_cases hcontract : pair.getERC20Contract = contract
  · obtain ⟨hmem, hswapped⟩ := mintForTokens_ok hlaw htoken hworld hcontract (hlink.mp hcontract) hw hamount h
    refine ⟨hmem, (hswapped.backing_eq (by simp) ?_).ge⟩
    simp [hswapped.distinct]
  · exact safe_mintForTokens hlaw hworld hcontract (fun hdenom => hcontract (hlink.mpr hdenom)) hw h

section

variable (hw : s.world ∈ worlds) (hlinked : Linked contract denom s.store)

include hw hlinked

theorem convertIntoCoins_backed {token sender : Address} {amount : SdkInt} {receiver : AccAddress}
    (hamount : 0 < amount.value)
    (h : (convertERC20IntoCoinsForNativeToken k token amount receiver sender).run s = .ok () t) :
    Safe k denom tokens worlds s.world t.world ∧ Linked contract denom t.store := by
  obtain ⟨id, pair, -, hpair, hnative, ⟨-, rfl⟩ | hconvert⟩ := convertERC20IntoCoins_ok h
  · exact ⟨.refl hw, hlinked.deleteTokenPair k.sum pair⟩
  · obtain ⟨next, hmint, rfl⟩ := (run_onWorld_eq_ok _).mp hconvert
    exact ⟨toCoins_backed hlaw htoken hworld hlinked hpair hnative hamount hw hmint, hlinked⟩

theorem convertCoin_backed {msg : MsgConvertCoin} (h : (convertCoin k msg).run s = .ok () t) :
    Safe k denom tokens worlds s.world t.world ∧ Linked contract denom t.store := by
  obtain ⟨id, pair, sender, -, -, hpair, hnative, ⟨-, rfl⟩ | hconvert⟩ := convertCoin_ok h
  · exact ⟨.refl hw, hlinked.deleteTokenPair k.sum pair⟩
  · obtain ⟨next, hrun, rfl⟩ := (run_onWorld_eq_ok _).mp hconvert
    exact ⟨(toTokens_backed hlaw htoken hworld hlinked hpair hnative _ _ _ hw).of_ok hrun, hlinked⟩

theorem onRecvPacket_backed {packet : Packet} (h : (onRecvPacket k packet).run s = .ok () t) :
    Safe k denom tokens worlds s.world t.world ∧ Linked contract denom t.store := by
  rcases onRecvPacket_ok h with rfl | ⟨data, pair, -, hextend⟩ | hconverted
  · exact ⟨.refl hw, hlinked⟩
  · obtain ⟨token, -, rfl, -, -, -, hstore, hcode, hextension⟩ := registerERC20Extension_ok hextend
    refine ⟨?_, hlinked.addExtension k.sum rfl (by rw [hstore]; rfl)⟩
    rcases hextension with hsame | hregister
    · rw [hsame]
      exact .refl hw
    · exact hworld.extension token t.world s.world hw hcode hregister
  · obtain ⟨id, pair, amount, recipient, hpair, hnative, hconvert⟩ := hconverted
    obtain ⟨next, hrun, rfl⟩ := (run_onWorld_eq_ok _).mp hconvert
    exact ⟨(toTokens_backed hlaw htoken hworld hlinked hpair hnative _ _ _ hw).of_ok hrun, hlinked⟩

theorem convertRefund_backed
    {pair : TokenPair} {sender : AccAddress} {coin : String} (hrefunded : refundedPair k s sender coin = some pair)
    (amount : Option SdkInt) :
    Ends ((convertRefund k pair amount sender).run s.world) (fun _ => Safe k denom tokens worlds s.world)
      (Safe k denom tokens worlds s.world) := by
  have hsender := not_module_of_refundedPair (hworld.isModule s.world hw) hrefunded
  obtain ⟨id, hpair, hnative⟩ := pairAt_of_refundedPair hrefunded
  refine ends_bind (fun _ next => next = s.world) (ends_lift (fun _ _ => rfl) fun _ _ => .refl hw) ?_
  rintro number next rfl
  exact (toTokens_backed hlaw htoken hworld hlinked hpair hnative number _ sender hw).mono (fun _ _ h => h)
    fun _ h => h hsender

-- The error of the conversion of a refund is swallowed with what it has done.
theorem refund_backed
    {data : FungibleTokenPacketData} (h : (convertCoinToERC20FromPacket k data).run s = .ok () t) :
    Safe k denom tokens worlds s.world t.world ∧ Linked contract denom t.store := by
  refine ⟨?_, by rwa [convertCoinToERC20FromPacket_store h]⟩
  simp only [convertCoinToERC20FromPacket, run_lift_bind, run_get_bind] at h
  obtain ⟨sender, -, h⟩ := h
  split at h
  · obtain ⟨-, rfl⟩ := (run_pure_eq_ok () () s t).mp h
    exact .refl hw
  · rename_i pair hrefunded
    have hends := convertRefund_backed hlaw htoken hworld hw hlinked hrefunded (SdkInt.newIntFromString data.amount)
    simp only [run_bind_eq_ok, run_pure_eq_ok, attempt_eq_ok, run_onWorld_eq_ok, run_onWorld_eq_error] at h
    obtain ⟨_, _, ⟨-, next, hrun, rfl⟩ | ⟨-, text, next, hrun, rfl⟩, -, rfl⟩ := h
    · exact hends.of_ok hrun
    · exact hends.of_error hrun

theorem transfer_backed {msg : MsgTransfer} (h : (transferWithStateDB k ics20 msg).run s = .ok () t) :
    Safe k denom tokens worlds s.world t.world ∧ Linked contract denom t.store := by
  obtain ⟨middle, sent, hmiddle, hsend⟩ := transferWithStateDB_ok h
  rcases hmiddle with rfl | ⟨token, amount, receiver, sender, hamount, hconvert⟩
  · exact onWorld_backed (hworld.transfer sent _ hw) hlinked hsend
  · obtain ⟨hsafe, hlinked⟩ := convertIntoCoins_backed hlaw htoken hworld hw hlinked hamount hconvert
    obtain ⟨hsent, hlinked⟩ := onWorld_backed (hworld.transfer sent _ hsafe.mem) hlinked hsend
    exact ⟨hsafe.trans hsent, hlinked⟩

theorem execute_backed {move : Move k} (h : (execute k ics20 contract move).run s = .ok () t) :
    Safe k denom tokens worlds s.world t.world ∧ Linked contract denom t.store := by
  cases move with
  | convertERC20 msg =>
    obtain ⟨hpositive, receiver, -, hconvert⟩ := convertERC20_ok h
    have hamount : 0 < msg.amount.value := by simpa [SdkInt.isPositive] using hpositive
    exact convertIntoCoins_backed hlaw htoken hworld hw hlinked hamount hconvert
  | convertCoin msg => exact convertCoin_backed hlaw htoken hworld hw hlinked h
  | receive packet =>
    rw [execute, receivePacket, run_bind_eq_ok] at h
    obtain ⟨_, received, hreceive, h⟩ := h
    obtain ⟨hreceived, hlinked⟩ := onWorld_backed (hworld.receive packet s.world hw) hlinked hreceive
    obtain ⟨hconverted, hlinked⟩ := onRecvPacket_backed hlaw htoken hworld hreceived.mem hlinked h
    exact ⟨hreceived.trans hconverted, hlinked⟩
  | acknowledge data ack =>
    rw [execute, acknowledgePacket, run_bind_eq_ok] at h
    obtain ⟨_, refunded, hrefund, h⟩ := h
    rw [run_runIf_eq_ok] at hrefund
    cases ack with
    | result =>
      obtain rfl := hrefund
      obtain ⟨-, rfl⟩ := (run_pure_eq_ok () () _ t).mp h
      exact ⟨.refl hw, hlinked⟩
    | error =>
      obtain ⟨hrefunded, hlinked⟩ := onWorld_backed (hworld.refund data s.world hw) hlinked hrefund
      obtain ⟨hconverted, hlinked⟩ := refund_backed hlaw htoken hworld hrefunded.mem hlinked h
      exact ⟨hrefunded.trans hconverted, hlinked⟩
  | timeout data =>
    rw [execute, timeoutPacket, run_bind_eq_ok] at h
    obtain ⟨_, refunded, hrefund, h⟩ := h
    obtain ⟨hrefunded, hlinked⟩ := onWorld_backed (hworld.refund data s.world hw) hlinked hrefund
    obtain ⟨hconverted, hlinked⟩ := refund_backed hlaw htoken hworld hrefunded.mem hlinked h
    exact ⟨hrefunded.trans hconverted, hlinked⟩
  | transfer msg => exact transfer_backed hlaw htoken hworld hw hlinked h
  | send sender recipient amount hsender hamount =>
    simp only [execute, run_bind_eq_ok, run_onWorld_eq_ok, run_pure_eq_ok] at h
    obtain ⟨res, _, ⟨next, hrun, rfl⟩, -, rfl⟩ := h
    have htransfer := htoken.transfers sender recipient amount s.world hw hamount
    have hmem := hworld.token sender recipient amount s.world hw
    rw [hrun] at htransfer hmem
    obtain ⟨hsame, ⟨-, -, hsent⟩ | ⟨-, htokens⟩⟩ := htransfer
    · -- the module is not the sender, so that it loses nothing
      have hmodule := hsent k.moduleAddress
      rw [if_neg hsender.symm] at hmodule
      have hgain : 0 ≤ if k.moduleAddress = recipient then amount.value else 0 := by split <;> omega
      refine ⟨⟨hmem, ?_⟩, hlinked⟩
      change backing k denom tokens s.world ≤ backing k denom tokens next
      rw [backing, backing, hsame.supplies]
      omega
    · exact ⟨.of_eq hmem (hsame.supplies denom) (congrFun htokens _), hlinked⟩

end

end Steps

section Runs

variable {R : Type} {k : Env R} {ics20 : Ics20 R} {contract : Address} {denom : String}
  {tokens : World R → Address → Nat} {worlds : Set (World R)} {texts : Set Bytes} {s t : State R}

theorem exact_of_linked (hlaw : k.LawfulBank) (htoken : StandardToken k contract tokens worlds)
    (hworld : Surroundings k ics20 contract denom tokens worlds) (hw : s.world ∈ worlds)
    (hlinked : Linked contract denom s.store) (hindexed : s.store.Indexed k.sum texts) :
    Exact k contract denom tokens worlds s where
  toTokens id pair amount receiver sender next w hw hpair hnative hcontract h :=
    ((convertCoinNativeERC20_ends hlaw htoken hworld hcontract ((hlinked id pair hpair hnative).mp hcontract)
      receiver sender hw).of_ok h).2
  toCoins id pair amount receiver sender next w hw hpair hnative hcontract hamount h :=
    (mintForTokens_ok hlaw htoken hworld hcontract ((hlinked id pair hpair hnative).mp hcontract) hw hamount h).2
  convertCoin msg t hnamed hcode h := by
    obtain ⟨id, pair, sender, hsender, hid, hpair, hnative, hdone⟩ := convertCoin_ok h
    rw [hnamed] at hid
    obtain ⟨row, hrow, hcontract⟩ := (hindexed.byErc20 contract id).mp hid
    obtain rfl : pair = row := Option.some.inj (hpair.symm.trans hrow)
    rcases hdone with ⟨hnone, -⟩ | hconvert
    · rw [hcontract, hcode] at hnone
      cases hnone
    · obtain ⟨next, hrun, rfl⟩ := (run_onWorld_eq_ok _).mp hconvert
      exact ⟨sender, hsender, ((convertCoinNativeERC20_ends hlaw htoken hworld hcontract
        ((hlinked id pair hpair hnative).mp hcontract) _ sender hw).of_ok hrun).2⟩
  convertERC20 msg t hnamed hcode h := by
    obtain ⟨hpositive, receiver, hreceiver, hconvert⟩ := convertERC20_ok h
    obtain ⟨id, pair, hid, hpair, hnative, hdone⟩ := convertERC20IntoCoins_ok hconvert
    rw [hnamed] at hid
    obtain ⟨row, hrow, hcontract⟩ := (hindexed.byErc20 contract id).mp hid
    obtain rfl : pair = row := Option.some.inj (hpair.symm.trans hrow)
    rcases hdone with ⟨hnone, -⟩ | hmint
    · rw [hcontract, hcode] at hnone
      cases hnone
    · obtain ⟨next, hrun, rfl⟩ := (run_onWorld_eq_ok _).mp hmint
      exact ⟨receiver, hreceiver, (mintForTokens_ok hlaw htoken hworld hcontract
        ((hlinked id pair hpair hnative).mp hcontract) hw (by simpa [SdkInt.isPositive] using hpositive) hrun).2⟩

theorem execute_changes {move : Move k} (htexts : move.texts k ⊆ texts)
    (h : (execute k ics20 contract move).run s = .ok () t) : Changes k texts s.store t.store := by
  cases move with
  | convertERC20 msg => exact convertERC20_changes h
  | convertCoin msg => exact convertCoin_changes h
  | receive packet =>
    rw [execute, receivePacket, run_bind_eq_ok] at h
    obtain ⟨_, received, hreceive, h⟩ := h
    rw [← store_onWorld hreceive]
    exact onRecvPacket_changes htexts h
  | acknowledge data ack =>
    rw [execute, acknowledgePacket, run_bind_eq_ok] at h
    obtain ⟨_, refunded, hrefund, h⟩ := h
    rw [run_runIf_eq_ok] at hrefund
    cases ack with
    | result =>
      obtain rfl := hrefund
      obtain ⟨-, rfl⟩ := (run_pure_eq_ok () () _ t).mp h
      exact .refl
    | error =>
      rw [convertCoinToERC20FromPacket_store h, store_onWorld hrefund]
      exact .refl
  | timeout data =>
    rw [execute, timeoutPacket, run_bind_eq_ok] at h
    obtain ⟨_, refunded, hrefund, h⟩ := h
    rw [convertCoinToERC20FromPacket_store h, store_onWorld hrefund]
    exact .refl
  | transfer msg =>
    obtain ⟨middle, sent, hmiddle, hsend⟩ := transferWithStateDB_ok h
    rw [store_onWorld hsend]
    rcases hmiddle with rfl | ⟨token, amount, receiver, sender, -, hconvert⟩
    · exact .refl
    · exact convertERC20IntoCoins_changes hconvert
  | send sender recipient amount hsender hamount =>
    simp only [execute, run_bind_eq_ok, run_onWorld_eq_ok, run_pure_eq_ok] at h
    obtain ⟨res, _, ⟨next, -, rfl⟩, -, rfl⟩ := h
    exact .refl

end Runs

section Ledger

variable {token : Address}

def ledgerTokens (w : World Book) : Address → Nat :=
  w.rest.tokens

def ledgerIcs20 : Ics20 Book :=
  ⟨fun _ => pure (), fun _ => pure (), fun _ => pure ()⟩

def ledgerWorlds : Set (World Book) :=
  {w | (w.accounts erc20Module).isSome = true}

theorem ledger_transfers (sender recipient : Address) (amount : SdkInt) (w : World Book) (hamount : 0 ≤ amount.value)
    (hcode : hasCodeHash (ledgerEnv true token) w token = true) :
    TransferEnds (ledgerEnv true token) token ledgerTokens sender recipient amount w
      ((transferToken true sender recipient amount.value.toNat).run w) := by
  rcases transferToken_run true sender recipient amount.value.toNat w with ⟨book, hsend, hrun⟩ | hrun
  · obtain ⟨htokens, hcoins, hsupply⟩ := Book.send_eq_some hsend
    rw [hrun]
    refine ⟨sameCoins_of_book hcoins hsupply, .inl ⟨⟨rfl, rfl⟩, hcode, ?_⟩⟩
    rw [← Int.toNat_of_nonneg hamount]
    exact htokens
  · rw [hrun]
    refine ⟨.refl w, .inr ⟨?_, rfl⟩⟩
    rintro ⟨-, hreturn⟩
    cases hreturn

theorem ledger_standard : StandardToken (ledgerEnv true token) token ledgerTokens ledgerWorlds where
  answers account w _ hcode := by
    have hunpack : (ledgerEnv true token).unpackUint256 = readWord := rfl
    refine ⟨⟨word (w.rest.tokens account), "", []⟩, w, ?_, rfl, ?_⟩
    · rw [execute_token _ _ hcode]
      rfl
    · rw [hunpack]
      exact readWord_word (w.rest.bounded account)
  silent account w _ hcode res next held hexecute := by
    rw [execute_nothing (.inr hcode)] at hexecute
    cases hexecute
    change readWord [] ≠ _
    simp [readWord]
  transfers sender recipient amount w _ hamount := by
    cases hcode : hasCodeHash (ledgerEnv true token) w token with
    | false =>
      rw [execute_nothing (.inr hcode)]
      refine ⟨.refl w, .inr ⟨?_, rfl⟩⟩
      rintro ⟨-, hreturn⟩
      cases hreturn
    | true =>
      rw [execute_token _ _ hcode]
      exact ledger_transfers sender recipient amount w hamount hcode

-- The code of an extension is written to one account, which is there then.
theorem registerERC20CodeHash_ok {R : Type} {k : Env R} {address : Address} {w next : World R}
    (h : (registerERC20CodeHash k address).run w = .ok () next) :
    next.rest = w.rest ∧ ∀ other, (w.accounts other).isSome = true → (next.accounts other).isSome = true := by
  have hwrite (account : Evm.Account) (w : World R) :
      (Evm.VmKeeper.writeAccount k.evm address account w).rest = w.rest ∧ ∀ other, (w.accounts other).isSome = true →
        ((Evm.VmKeeper.writeAccount k.evm address account w).accounts other).isSome = true := by
    simp only [Evm.VmKeeper.writeAccount, Evm.VmKeeper.authAccount, Evm.VmKeeper.putCodeHash]
    refine ⟨by split <;> split <;> rfl, fun other hother => ?_⟩
    by_cases heq : other = address
    · subst heq
      split <;> split <;> simp [World.putAccount]
    · split <;> split <;>
        · simp only [World.putAccount, Function.update_of_ne heq]
          exact hother
  simp only [registerERC20CodeHash, run_modify_bind, run_get_bind, Evm.VmKeeper.setAccount] at h
  rw [Evm.VmKeeper.setAccountBalance_eq, Evm.VmKeeper.setBalanceWithLocked, run_get_bind, run_lift_bind] at h
  obtain ⟨-, -, hset⟩ := h
  obtain ⟨hbound, rfl⟩ := Evm.VmKeeper.uncheckedSetBalance_ok hset
  refine ⟨?_, fun other hother => ?_⟩
  · change (Evm.VmKeeper.writeAccount k.evm address _ _).rest = w.rest
    rw [(hwrite _ _).1]
    split <;> rfl
  · refine (hwrite _ _).2 other ?_
    split <;> exact hother

theorem onBook_untouching {payer payee : Option AccAddress} (coin : Coin) (w : World Book) (hw : w ∈ ledgerWorlds) :
    Untouching ledgerTokens ledgerWorlds w (onBook (Book.move payer payee coin)) := by
  rw [Untouching, EStateM.run, onBook]
  cases hmove : w.rest.move payer payee coin with
  | none => exact ⟨hw, rfl⟩
  | some book =>
    obtain ⟨-, -, htokens⟩ := Book.move_eq_some hmove
    exact ⟨hw, htokens⟩

theorem execute_ledgerWorlds (msg : Message) {w : World Book} (hw : w ∈ ledgerWorlds) :
    endState (((ledgerEnv true token).execute msg).run w) ∈ ledgerWorlds := by
  change (World.accounts _ erc20Module).isSome = true
  rw [(execute_sameCoins msg w).2]
  exact hw

theorem ledger_surroundings (denom : String) :
    Surroundings (ledgerEnv true token) ledgerIcs20 token denom ledgerTokens ledgerWorlds where
  account w hw := by
    change (w.accounts erc20Module).isNone = false
    simpa [ledgerWorlds] using hw
  isModule w _ := by simp [ledgerEnv, Env.moduleAccount]
  escrow _ coin w hw := onBook_untouching coin w hw
  pay _ coin w hw := onBook_untouching coin w hw
  mint coin w hw := onBook_untouching coin w hw
  burn coin w hw := onBook_untouching coin w hw
  token sender recipient amount w hw := execute_ledgerWorlds _ hw
  contracts msg w hw hother := by
    rw [execute_nothing (.inl hother)]
    exact .refl hw
  extension address next w hw _ h := by
    obtain ⟨hrest, haccounts⟩ := registerERC20CodeHash_ok h
    exact .of_eq (haccounts erc20Module hw) (congrFun (congrArg Book.supply hrest) denom)
      (congrFun (congrArg Book.tokens hrest) _)
  receive _ _ hw := .refl hw
  refund _ _ hw := .refl hw
  transfer _ _ hw := .refl hw

def ledgerMoves : List (Move (ledgerEnv true ledgerToken)) :=
  [.convertERC20 ⟨ledgerPair.erc20Address, ⟨25, by decide⟩, holderText, "0xe1ab8145f7e55dc933d51a18c793f901a3a0b276"⟩,
    .receive ledgerPacket,
    .send holder erc20Module ⟨3, by decide⟩ (by decide +kernel) (by decide),
    .convertCoin ⟨⟨ledgerPair.denom, ⟨50, by decide⟩⟩, "0xe1ab8145f7e55dc933d51a18c793f901a3a0b276", holderText⟩]

theorem ledgerMoves_texts :
    occurring (ledgerEnv true ledgerToken) ledgerGenesis (ledgerState true) [] ∪
        movedTexts (ledgerEnv true ledgerToken) ledgerIcs20 ledgerToken (ledgerState true) ledgerMoves ⊆
      {ledgerPair.idBytes, voucherPair.idBytes} := by
  rintro text ((⟨pair, hpair, rfl⟩ | ⟨entry, hentry, -⟩) | ⟨entry, hentry, htext⟩)
  · obtain rfl := List.mem_singleton.mp hpair
    exact .inl rfl
  · cases hentry
  · obtain ⟨move, answer⟩ := entry
    have hmove : move ∈ ledgerMoves := Run.mem_of_mem_accepted _ _ _ hentry
    cases move with
    | receive packet =>
      obtain rfl : packet = ledgerPacket := by simpa [ledgerMoves] using hmove
      exact .inr (ledgerPacket_texts htext)
    | _ => cases htext

end Ledger

end PosChain.Erc20
