import PosChain.Erc20.Ledger

namespace PosChain.Erc20

open Evm (World)
open Keeper

section Conversion

variable {R : Type} (k : Env R) (pair : TokenPair) (amount : SdkInt) (sender : AccAddress)

def refundReceiver : Address :=
  Ethereum.bytesToAddress sender

def refundCoin : Coin :=
  ⟨pair.denom, amount⟩

def payout : Action (World R) Response :=
  callEVM k k.moduleAddress pair.getERC20Contract "transfer" (.transfer (refundReceiver sender) amount) true

-- The contract that the module calls while it holds the coins takes none of them and
-- leaves the account of the module what it is.
def LeavesEscrow (w : World R) : Prop :=
  ∀ escrowed, (escrowCoins k sender (refundCoin pair amount)).run w = .ok () escrowed →
    let called := endState
      ((k.execute ⟨k.moduleAddress, pair.getERC20Contract, .transfer (refundReceiver sender) amount⟩).run escrowed)
    k.balance escrowed k.moduleAccount pair.denom ≤ k.balance called k.moduleAccount pair.denom ∧
      k.isModuleAccount called k.moduleAccount = true

-- The conversion stops before any coin has moved: the amount is not positive, the
-- contract does not answer what the receiver holds, or the sender cannot pay.
def Refused (w : World R) : Prop :=
  amount.isPositive = false ∨
  (∃ text, retrieveBalance k w pair.getERC20Contract (refundReceiver sender) = .error (.error text)) ∨
  ∃ held text next, retrieveBalance k w pair.getERC20Contract (refundReceiver sender) = .ok held ∧
    (escrowCoins k sender (refundCoin pair amount)).run w = .error (.error text) next

-- The contract pays: called after the escrow it answers that it has transferred the
-- tokens, and the receiver then holds exactly that much more.
structure Pays (w escrowed called : World R) : Prop where
  positive : amount.isPositive = true
  escrow : (escrowCoins k sender (refundCoin pair amount)).run w = .ok () escrowed
  answers : ∃ res, (payout k pair amount sender).run escrowed = .ok res called ∧
    checkReturn k pair.getERC20Contract "failed to execute unescrow tokens from user" res = .ok ()
  credits : ∃ before after : Nat,
    retrieveBalance k w pair.getERC20Contract (refundReceiver sender) = .ok before ∧
    retrieveBalance k called pair.getERC20Contract (refundReceiver sender) = .ok after ∧
    (after : Int) = before + amount.value

-- The coins have left the sender before the contract was called, the tokens have
-- arrived, and the coins are gone.
structure Exchanged (w next : World R) : Prop where
  exchanged : ∃ escrowed called, k.Moved (some sender) (some k.moduleAccount) (refundCoin pair amount) w escrowed ∧
    (∃ res, (payout k pair amount sender).run escrowed = .ok res called) ∧
    (∃ before after : Nat,
      retrieveBalance k w pair.getERC20Contract (refundReceiver sender) = .ok before ∧
      retrieveBalance k called pair.getERC20Contract (refundReceiver sender) = .ok after ∧
      (after : Int) = before + amount.value) ∧
    k.Moved (some k.moduleAccount) none (refundCoin pair amount) called next

-- The parties hold what they held, and the supply is what it was.
structure Untouched (w next : World R) : Prop where
  sender : k.balance next sender pair.denom = k.balance w sender pair.denom
  moduleHeld : k.balance next k.moduleAccount pair.denom = k.balance w k.moduleAccount pair.denom
  supply : k.getSupply next pair.denom = k.getSupply w pair.denom

end Conversion

section Outcomes

variable {R : Type} {k : Env R} {pair : TokenPair} {amount : SdkInt} {sender : AccAddress} {w next : World R}

theorem escrowCoins_ends (hlaw : k.LawfulBank) (coin : Coin) (w : World R) :
    Ends ((escrowCoins k sender coin).run w)
      (fun _ next => k.Moved (some sender) (some k.moduleAccount) coin w next) (k.SameCoins w) :=
  ends_wrap (hlaw.escrow sender coin w)

theorem payout_ends (hleaves : LeavesEscrow k pair amount sender w) {escrowed : World R}
    (hescrow : (escrowCoins k sender (refundCoin pair amount)).run w = .ok () escrowed) :
    Ends ((payout k pair amount sender).run escrowed)
      (fun _ next => k.balance escrowed k.moduleAccount pair.denom ≤ k.balance next k.moduleAccount pair.denom ∧
        k.isModuleAccount next k.moduleAccount = true)
      (fun next => k.balance escrowed k.moduleAccount pair.denom ≤ k.balance next k.moduleAccount pair.denom) := by
  have hcalled := hleaves escrowed hescrow
  refine ends_wrap ((callEVMWithData_ends k _ escrowed).mono ?_ ?_)
  · rintro res next ⟨-, hexecute, -⟩
    rwa [hexecute] at hcalled
  · rintro next (rfl | ⟨text, hexecute⟩ | ⟨res, hexecute, -⟩)
    · exact le_rfl
    · rw [hexecute] at hcalled
      exact hcalled.1
    · rw [hexecute] at hcalled
      exact hcalled.1

theorem transferTokens_ends (hleaves : LeavesEscrow k pair amount sender w) (held : Nat) {escrowed : World R}
    (hescrow : (escrowCoins k sender (refundCoin pair amount)).run w = .ok () escrowed) :
    Ends ((transferTokens k pair.getERC20Contract (refundReceiver sender) amount held
        (payout k pair amount sender) "failed to execute unescrow tokens from user").run escrowed)
      (fun _ called => (∃ res, (payout k pair amount sender).run escrowed = .ok res called ∧
          checkReturn k pair.getERC20Contract "failed to execute unescrow tokens from user" res = .ok ()) ∧
        ∃ after : Nat, retrieveBalance k called pair.getERC20Contract (refundReceiver sender) = .ok after ∧
          (after : Int) = held + amount.value)
      (fun next => k.balance escrowed k.moduleAccount pair.denom ≤ k.balance next k.moduleAccount pair.denom) := by
  refine ends_bind _ ((ends_self (payout_ends hleaves hescrow)).mono (fun _ _ h => h) fun _ h => h.2) ?_
  rintro res called ⟨hcall, hkept, -⟩
  refine ends_bind (fun _ t => t = called ∧
      checkReturn k pair.getERC20Contract "failed to execute unescrow tokens from user" res = .ok ())
    (ends_lift (fun _ h => ⟨rfl, h⟩) fun _ _ => hkept) ?_
  rintro - t ⟨rfl, hreturn⟩
  refine ends_get_bind (ends_bind (fun after u => u = t ∧
      retrieveBalance k t pair.getERC20Contract (refundReceiver sender) = .ok after)
    (ends_lift (fun _ h => ⟨rfl, h⟩) fun _ _ => hkept) ?_)
  rintro after u ⟨rfl, hafter⟩
  refine ends_lift (fun _ h => ⟨⟨res, hcall, hreturn⟩, after, hafter, ?_⟩) fun _ _ => hkept
  simpa using h

-- Once the coins are escrowed, only a conversion that succeeds gives them up.
theorem convertRefund_ends (hlaw : k.LawfulBank) (hmodule : sender ≠ k.moduleAccount)
    (hleaves : LeavesEscrow k pair amount sender w) :
    Ends ((convertCoinNativeERC20 k pair amount (refundReceiver sender) sender).run w)
      (fun _ next => ∃ escrowed called, Pays k pair amount sender w escrowed called ∧
        k.Moved (some k.moduleAccount) none (refundCoin pair amount) called next)
      (fun next => Refused k pair amount sender w ∨
        k.balance w k.moduleAccount pair.denom < k.balance next k.moduleAccount pair.denom) := by
  refine ends_bind (fun _ t => t = w ∧ amount.isPositive = true)
    (ends_lift (fun _ h => ⟨rfl, by simpa using h⟩) fun text h => .inl (.inl ?_)) ?_
  · cases hpositive : amount.isPositive with
    | false => rfl
    | true => simp [failIf, hpositive] at h
  rintro - t ⟨rfl, hpositive⟩
  refine ends_get_bind (ends_bind (fun held u => u = t ∧
      retrieveBalance k t pair.getERC20Contract (refundReceiver sender) = .ok held)
    (ends_lift (fun _ h => ⟨rfl, h⟩) fun text h => .inl (.inr (.inl ⟨text, h⟩))) ?_)
  rintro held u ⟨rfl, hheld⟩
  refine ends_bind _ ((ends_self (escrowCoins_ends hlaw (refundCoin pair amount) u)).mono
    (fun _ _ h => h) fun next h => .inl (.inr (.inr ?_))) ?_
  · obtain ⟨⟨text, htext⟩, -⟩ := h
    exact ⟨held, text, next, hheld, htext⟩
  rintro _ escrowed ⟨hescrow, hmoved⟩
  -- from here on the module holds the coins of the sender
  have hheldCoins : k.balance u k.moduleAccount pair.denom + amount.value =
      k.balance escrowed k.moduleAccount pair.denom := by
    have hpayee := hmoved.balance_payee (by simpa using hmodule)
    exact hpayee.symm
  have hamount : 0 < amount.value := by simpa [SdkInt.isPositive] using hpositive
  refine ends_bind _ ((transferTokens_ends hleaves held hescrow).mono (fun _ _ h => h)
    fun next h => .inr (by omega)) ?_
  rintro - called ⟨⟨res, hcall, hreturn⟩, after, hafter, hcredit⟩
  have hkept : k.balance escrowed k.moduleAccount pair.denom ≤ k.balance called k.moduleAccount pair.denom :=
    ((payout_ends hleaves hescrow).of_ok hcall).1
  refine ends_wrap ((hlaw.burn (refundCoin pair amount) called).mono (fun _ next hburn => ?_)
    fun next hsame => .inr ?_)
  · exact ⟨escrowed, called, ⟨hpositive, hescrow, ⟨res, hcall, hreturn⟩, held, after, hheld, hafter, hcredit⟩,
      hburn⟩
  · rw [hsame.balances]
    omega

theorem refused_run (hlaw : k.LawfulBank) (h : Refused k pair amount sender w) :
    ∃ text next, (convertCoinNativeERC20 k pair amount (refundReceiver sender) sender).run w =
      .error (.error text) next ∧ k.SameCoins w next := by
  have hsame : k.SameCoins w w := ⟨fun _ _ => rfl, fun _ => rfl⟩
  have hnegative (hp : amount.isPositive = false) :
      failIf (!amount.isPositive) "converted coin amount must be positive: token amount is negative" =
        .error (.error "converted coin amount must be positive: token amount is negative") := by
    simp [failIf, hp]
  have hpositive (hp : amount.isPositive = true) :
      failIf (!amount.isPositive) "converted coin amount must be positive: token amount is negative" = .ok () := by
    simp [hp]
  cases hp : amount.isPositive with
  | false => exact ⟨_, w, run_bind_of_error (run_lift_of_error (hnegative hp)), hsame⟩
  | true =>
    rw [convertCoinNativeERC20, run_bind_of_ok (run_lift_of_ok (hpositive hp)), EStateM.run_bind,
      EStateM.run_get]
    dsimp only
    rcases h with h | ⟨text, htext⟩ | ⟨held, text, next, hheld, hescrow⟩
    · rw [hp] at h
      cases h
    · exact ⟨text, w, run_bind_of_error (run_lift_of_error htext), hsame⟩
    · refine ⟨text, next, ?_, (escrowCoins_ends hlaw _ w).of_error hescrow⟩
      rw [run_bind_of_ok (run_lift_of_ok hheld)]
      exact run_bind_of_error hescrow

theorem pays_run (hlaw : k.LawfulBank) (hmodule : sender ≠ k.moduleAccount)
    (hleaves : LeavesEscrow k pair amount sender w) {escrowed called : World R}
    (h : Pays k pair amount sender w escrowed called) :
    ∃ next, (convertCoinNativeERC20 k pair amount (refundReceiver sender) sender).run w = .ok () next := by
  obtain ⟨hpositive, hescrow, ⟨res, hcall, hreturn⟩, held, after, hheld, hafter, hcredit⟩ := h
  have hamount : 0 < amount.value := by simpa [SdkInt.isPositive] using hpositive
  -- the module still holds the escrowed coins after the call, so it can burn them
  have hescrowed := ((escrowCoins_ends hlaw (refundCoin pair amount) w).of_ok hescrow).balance_payee
    (by simpa using hmodule)
  obtain ⟨hkept, haccount⟩ := (payout_ends hleaves hescrow).of_ok hcall
  have hnonneg := hlaw.nonneg w k.moduleAccount pair.denom
  have hholds : amount.value ≤ k.balance called k.moduleAccount pair.denom := by
    change k.balance escrowed k.moduleAccount pair.denom =
      k.balance w k.moduleAccount pair.denom + amount.value at hescrowed
    omega
  obtain ⟨next, hburn⟩ := hlaw.burns (refundCoin pair amount) called haccount hamount hholds
  refine ⟨next, ?_⟩
  rw [convertCoinNativeERC20, run_lift_bind]
  refine ⟨(), by simp [hpositive], ?_⟩
  rw [run_get_bind, run_lift_bind]
  refine ⟨held, hheld, ?_⟩
  rw [run_bind_eq_ok]
  refine ⟨(), escrowed, hescrow, ?_⟩
  rw [run_bind_eq_ok]
  refine ⟨(), called, ?_, (wrapError_eq_ok _ _ _ _ _).mpr hburn⟩
  rw [transferTokens, run_bind_eq_ok]
  refine ⟨res, called, hcall, ?_⟩
  rw [run_lift_bind]
  refine ⟨(), hreturn, ?_⟩
  rw [run_get_bind, run_lift_bind]
  refine ⟨after, hafter, ?_⟩
  rw [run_lift_eq_ok]
  exact ⟨by simp [hcredit], rfl⟩

end Outcomes

inductive RefundEvent where
  | acknowledgementError
  | timeout

section Callbacks

variable {R : Type} (k : Env R)

def refundCallback (event : RefundEvent) (data : FungibleTokenPacketData) : Action (State R) Unit :=
  match event with
  | .acknowledgementError => onAcknowledgementPacket k data .error
  | .timeout => onTimeoutPacket k data

-- The callback succeeds; a conversion that fails leaves the parties as the refund
-- has left them, and one that succeeds gives tokens for the coins.
def RefundKept (event : RefundEvent) (data : FungibleTokenPacketData) (amount : SdkInt) (sender : AccAddress)
    (s : State R) : Prop :=
  ∃ t, (refundCallback k event data).run s = .ok () t ∧
    ∀ pair, refundedPair k s sender data.denom = some pair →
      (∀ text failed, (convertRefund k pair (some amount) sender).run s.world = .error (.error text) failed →
        Untouched k pair sender s.world t.world) ∧
      (∀ done, (convertRefund k pair (some amount) sender).run s.world = .ok () done →
        Exchanged k pair amount sender s.world t.world)

variable {k}

theorem refundCallback_eq (event : RefundEvent) (data : FungibleTokenPacketData) :
    refundCallback k event data = convertCoinToERC20FromPacket k data := by
  cases event <;> rfl

theorem convertRefund_eq (pair : TokenPair) (amount : SdkInt) (sender : AccAddress) :
    convertRefund k pair (some amount) sender =
      convertCoinNativeERC20 k pair amount (refundReceiver sender) sender :=
  rfl

theorem not_module_of_refundedPair {s : State R} (haccount : k.isModuleAccount s.world k.moduleAccount = true)
    {sender : AccAddress} {denom : String} {pair : TokenPair} (h : refundedPair k s sender denom = some pair) :
    sender ≠ k.moduleAccount := by
  unfold refundedPair at h
  split at h
  · cases h
  · dsimp only at h
    split at h
    · rename_i hconditions
      rintro rfl
      simp [haccount] at hconditions
    · cases h

theorem refundCallback_none {event : RefundEvent} {data : FungibleTokenPacketData} {sender : AccAddress}
    {s : State R} (hsender : k.stringToBytes data.sender = .ok sender)
    (hpair : refundedPair k s sender data.denom = none) :
    (refundCallback k event data).run s = .ok () s := by
  rw [refundCallback_eq, convertCoinToERC20FromPacket, run_lift_bind]
  refine ⟨sender, (passOn_eq_ok _ _).mpr hsender, ?_⟩
  rw [run_get_bind, hpair]
  rfl

theorem refundCallback_some {event : RefundEvent} {data : FungibleTokenPacketData} {amount : SdkInt}
    {sender : AccAddress} {s t : State R} {pair : TokenPair} (hsender : k.stringToBytes data.sender = .ok sender)
    (hamount : SdkInt.newIntFromString data.amount = some amount)
    (hpair : refundedPair k s sender data.denom = some pair) :
    (refundCallback k event data).run s = .ok () t ↔ ∃ w, t = { s with world := w } ∧
      ((convertRefund k pair (some amount) sender).run s.world = .ok () w ∨
        ∃ text, (convertRefund k pair (some amount) sender).run s.world = .error (.error text) w) := by
  have hread : passOn (k.stringToBytes data.sender) = .ok sender := (passOn_eq_ok _ _).mpr hsender
  rw [refundCallback_eq, convertCoinToERC20FromPacket, run_lift_bind]
  simp only [hread, Except.ok.injEq, exists_eq_left', run_get_bind, hpair, hamount]
  simp only [run_bind_eq_ok, attempt_eq_ok, run_onWorld_eq_ok, run_onWorld_eq_error, run_pure_eq_ok]
  constructor
  · rintro ⟨_, _, ⟨-, w, hrun, rfl⟩ | ⟨-, text, w, hrun, rfl⟩, -, rfl⟩
    · exact ⟨w, rfl, .inl hrun⟩
    · exact ⟨w, rfl, .inr ⟨text, hrun⟩⟩
  · rintro ⟨w, rfl, hrun | ⟨text, hrun⟩⟩
    · exact ⟨true, _, .inl ⟨rfl, w, hrun, rfl⟩, trivial, rfl⟩
    · exact ⟨false, _, .inr ⟨rfl, text, w, hrun, rfl⟩, trivial, rfl⟩

-- The sender and the amount of the packet have been read for the refund itself.
theorem refund_kept_iff (hlaw : k.LawfulBank) (event : RefundEvent) (data : FungibleTokenPacketData)
    (amount : SdkInt) (sender : AccAddress) (s : State R) (hsender : k.stringToBytes data.sender = .ok sender)
    (hamount : SdkInt.newIntFromString data.amount = some amount)
    (haccount : k.isModuleAccount s.world k.moduleAccount = true)
    (hleaves : ∀ pair, refundedPair k s sender data.denom = some pair →
      LeavesEscrow k pair amount sender s.world) :
    RefundKept k event data amount sender s ↔
      ∀ pair, refundedPair k s sender data.denom = some pair → Refused k pair amount sender s.world ∨
        ∃ escrowed called, Pays k pair amount sender s.world escrowed called := by
  cases hpair : refundedPair k s sender data.denom with
  | none => simp [RefundKept, hpair, refundCallback_none hsender hpair]
  | some pair =>
    have hmodule := not_module_of_refundedPair haccount hpair
    have hleaves := hleaves pair hpair
    have hends := convertRefund_ends hlaw hmodule hleaves
    simp only [RefundKept, refundCallback_some hsender hamount hpair, hpair, Option.some.injEq,
      forall_eq', convertRefund_eq]
    constructor
    · rintro ⟨_, ⟨w, rfl, hrun | ⟨text, hrun⟩⟩, hfailed, -⟩
      · obtain ⟨escrowed, called, hpays, -⟩ := hends.of_ok hrun
        exact .inr ⟨escrowed, called, hpays⟩
      · rcases hends.of_error hrun with hrefused | hmore
        · exact .inl hrefused
        · exact absurd (hfailed text w hrun).moduleHeld (Int.ne_of_gt hmore)
    · rintro (hrefused | ⟨escrowed, called, hpays⟩)
      · obtain ⟨text, next, hrun, hsame⟩ := refused_run hlaw hrefused
        refine ⟨_, ⟨next, rfl, .inr ⟨text, hrun⟩⟩, ?_, ?_⟩
        · intro _ _ _
          exact ⟨hsame.balances _ _, hsame.balances _ _, hsame.supplies _⟩
        · intro done hdone
          rw [hrun] at hdone
          cases hdone
      · obtain ⟨next, hrun⟩ := pays_run hlaw hmodule hleaves hpays
        refine ⟨_, ⟨next, rfl, .inl hrun⟩, ?_, ?_⟩
        · intro text failed hfailed
          rw [hrun] at hfailed
          cases hfailed
        · intro _ _
          obtain ⟨escrowed, called, ⟨-, hescrow, ⟨res, hcall, -⟩, hcredits⟩, hburned⟩ := hends.of_ok hrun
          exact ⟨escrowed, called, (escrowCoins_ends hlaw _ _).of_ok hescrow, ⟨res, hcall⟩, hcredits, hburned⟩

def ledgerRefund : FungibleTokenPacketData :=
  ⟨ledgerPair.denom, "10", holderText, ""⟩

theorem ledger_refundedPair (honest : Bool) : refundedPair (ledgerEnv honest ledgerToken) (ledgerState honest)
    holder.bytes ledgerRefund.denom = some ledgerPair := by
  cases honest <;> decide +kernel

theorem ledger_refund_kept :
    RefundKept (ledgerEnv true ledgerToken) .timeout ledgerRefund ⟨10, by decide⟩ holder.bytes
      (ledgerState true) := by
  refine (refund_kept_iff ledger_lawful .timeout ledgerRefund ⟨10, by decide⟩ holder.bytes (ledgerState true)
    rfl rfl rfl fun _ _ _ _ => ⟨((execute_sameCoins _ _).1.balances _ _).ge, rfl⟩).mpr fun pair hpair => .inr ?_
  obtain rfl : ledgerPair = pair := Option.some.inj ((ledger_refundedPair true).symm.trans hpair)
  exact ⟨_, _, rfl, rfl, ⟨_, rfl, rfl⟩, 60, 70, rfl, rfl, rfl⟩

-- A token that answers false leaves the coins of the sender with the module.
theorem false_answer_keeps_coins :
    ¬ RefundKept (ledgerEnv false ledgerToken) .timeout ledgerRefund ⟨10, by decide⟩ holder.bytes
      (ledgerState false) := by
  rintro ⟨t, hrun, h⟩
  have hend : t = endState ((refundCallback (ledgerEnv false ledgerToken) .timeout ledgerRefund).run
      (ledgerState false)) := by
    rw [hrun]
    rfl
  obtain ⟨hfailed, -⟩ := h ledgerPair (ledger_refundedPair false)
  have hheld := (hfailed _ _ rfl).moduleHeld
  rw [hend] at hheld
  revert hheld
  decide +kernel

end Callbacks

end PosChain.Erc20
