import PosChain.Erc20.Refund
import PosChain.Erc20.Registry
import PosChain.Erc20.Transfers

namespace PosChain.Erc20

open Evm (World)
open Keeper

-- A contract that implements a standard ERC-20 token, seen through the balances it
-- keeps, and what the rest of the application does to its backing.
section Laws

variable {R : Type} (k : Env R) (ics20 : Ics20 R) (contract : Address) (denom : String)
  (tokens : World R → Address → Nat) (worlds : Set (World R))

def TokensSent (sender recipient : Address) (amount : Int) (w next : World R) : Prop :=
  ∀ account, (tokens next account : Int) = tokens w account - (if account = sender then amount else 0) +
    (if account = recipient then amount else 0)

def Accepted (res : Response) : Prop :=
  res.vmError = "" ∧ checkReturn k contract "" res = .ok ()

-- A transfer has moved the tokens and says so, from a contract that is still there, or
-- it has moved nothing.
def TransferEnds (sender recipient : Address) (amount : SdkInt) (w : World R) :
    EStateM.Result Fault (World R) Response → Prop
  | .ok res next => k.SameCoins w next ∧
      (Accepted k contract res ∧ hasCodeHash k next contract = true ∧
          TokensSent tokens sender recipient amount.value w next ∨
        ¬ Accepted k contract res ∧ tokens next = tokens w)
  | .error _ next => k.SameCoins w next ∧ tokens next = tokens w

-- In the worlds that the application can be in the contract has the code of the token
-- or none, and then no answer is taken for a balance.
structure StandardToken : Prop where
  answers : ∀ account, ∀ w ∈ worlds, hasCodeHash k w contract = true → ∃ res next,
    (k.execute ⟨k.moduleAddress, contract, .balanceOf account⟩).run w = .ok res next ∧ res.vmError = "" ∧
      k.unpackUint256 res.ret = .ok (tokens w account)
  silent : ∀ account, ∀ w ∈ worlds, hasCodeHash k w contract = false → ∀ res next held,
    (k.execute ⟨k.moduleAddress, contract, .balanceOf account⟩).run w = .ok res next →
      k.unpackUint256 res.ret ≠ .ok held
  transfers : ∀ sender recipient amount, ∀ w ∈ worlds, 0 ≤ amount.value →
    TransferEnds k contract tokens sender recipient amount w
      ((k.execute ⟨sender, contract, .transfer recipient amount⟩).run w)

-- The tokens that the module holds beyond the coins that stand for them.
def backing (w : World R) : Int :=
  tokens w k.moduleAddress - k.getSupply w denom

def Untouching (w : World R) (action : Action (World R) Unit) : Prop :=
  endState (action.run w) ∈ worlds ∧ tokens (endState (action.run w)) = tokens w

-- A step of the application: it stays among the worlds, and no tokens are taken from
-- the module and no coins of the pair made without them.
structure Safe (w next : World R) : Prop where
  mem : next ∈ worlds
  backed : backing k denom tokens w ≤ backing k denom tokens next

-- The module has its account. The bank does not touch the token, and other contracts,
-- an extension that is put where there is no code and the ICS-20 application are safe.
structure Surroundings : Prop where
  account : ∀ w ∈ worlds, (w.accounts k.moduleAddress).isNone = false
  isModule : ∀ w ∈ worlds, k.isModuleAccount w k.moduleAccount = true
  escrow : ∀ sender coin, ∀ w ∈ worlds,
    Untouching tokens worlds w (k.sendCoinsFromAccountToModule sender moduleName coin)
  pay : ∀ receiver coin, ∀ w ∈ worlds,
    Untouching tokens worlds w (k.sendCoinsFromModuleToAccount moduleName receiver coin)
  mint : ∀ coin, ∀ w ∈ worlds, Untouching tokens worlds w (k.mintCoins moduleName coin)
  burn : ∀ coin, ∀ w ∈ worlds, Untouching tokens worlds w (k.burnCoins moduleName coin)
  token : ∀ sender recipient amount, ∀ w ∈ worlds,
    endState ((k.execute ⟨sender, contract, .transfer recipient amount⟩).run w) ∈ worlds
  contracts : ∀ msg, ∀ w ∈ worlds, msg.contract ≠ contract →
    Safe k denom tokens worlds w (endState ((k.execute msg).run w))
  extension : ∀ address next, ∀ w ∈ worlds, hasCodeHash k w address = false →
    (registerERC20CodeHash k address).run w = .ok () next → Safe k denom tokens worlds w next
  receive : ∀ packet, ∀ w ∈ worlds, Safe k denom tokens worlds w (endState ((ics20.onRecvPacket packet).run w))
  refund : ∀ data, ∀ w ∈ worlds, Safe k denom tokens worlds w (endState ((ics20.refund data).run w))
  transfer : ∀ msg, ∀ w ∈ worlds, Safe k denom tokens worlds w (endState ((ics20.transfer msg).run w))

-- Among the pairs with a contract of their own, the address and the denomination
-- belong together.
def Linked (store : Store) : Prop :=
  ∀ id pair, store.pairAt id = some pair → pair.isNativeERC20 = true →
    (pair.getERC20Contract = contract ↔ pair.denom = denom)

-- Coins of the pair against as many tokens, between two parties that differ.
structure Swapped (payer payee : Option AccAddress) (giver taker : Address) (amount : SdkInt)
    (w next : World R) : Prop where
  coins : k.Moved payer payee ⟨denom, amount⟩ w next
  sent : TokensSent tokens giver taker amount.value w next
  distinct : giver ≠ taker

end Laws

section Calls

variable {R : Type} {k : Env R} {contract : Address} {tokens : World R → Address → Nat}
  {worlds : Set (World R)} {w next : World R}

theorem query_of_account {method : String} {call : Method} {res : Response}
    (haccount : (w.accounts k.moduleAddress).isNone = false)
    (hexecute : (k.execute ⟨k.moduleAddress, contract, call⟩).run w = .ok res next) (hvm : res.vmError = "") :
    query k w contract method call = .ok res := by
  have happly : (applyMessage k ⟨k.moduleAddress, contract, call⟩ false).run w = .ok res w := by
    have hrun : (applyMessage k ⟨k.moduleAddress, contract, call⟩ false).run w =
        match (k.execute ⟨k.moduleAddress, contract, call⟩).run w with
        | .ok res _ => .ok res w
        | .error fault _ => .error fault w := rfl
    rw [hrun, hexecute]
  have hcall : (callEVM k k.moduleAddress contract method call false).run w = .ok res w := by
    rw [callEVM, wrapError_eq_ok, callEVMWithData, run_get_bind, run_lift_bind]
    refine ⟨(), by simp [haccount], ?_⟩
    rw [run_bind_of_ok happly, run_lift_bind]
    exact ⟨(), by simp [hvm], rfl⟩
  rw [query, hcall]

theorem execute_of_query {method : String} {call : Method} {res : Response}
    (h : query k w contract method call = .ok res) :
    ∃ next, (k.execute ⟨k.moduleAddress, contract, call⟩).run w = .ok res next := by
  unfold query at h
  split at h
  · rename_i answer last hcall
    cases h
    rw [callEVM, wrapError_eq_ok, callEVMWithData, run_get_bind, run_lift_bind] at hcall
    obtain ⟨_, -, hcall⟩ := hcall
    simp only [run_bind_eq_ok, run_pure_eq_ok] at hcall
    obtain ⟨_, _, happly, _, _, -, rfl, -⟩ := hcall
    rw [EStateM.run, applyMessage] at happly
    split at happly
    · rename_i found next hexecute
      cases happly
      exact ⟨next, hexecute⟩
    · cases happly
  · cases h

theorem retrieveBalance_of_code (htoken : StandardToken k contract tokens worlds) (account : Address)
    (hw : w ∈ worlds) (haccount : (w.accounts k.moduleAddress).isNone = false)
    (hcode : hasCodeHash k w contract = true) : retrieveBalance k w contract account = .ok (tokens w account) := by
  obtain ⟨res, next, hexecute, hvm, hunpack⟩ := htoken.answers account w hw hcode
  rw [retrieveBalance, Check.bind_eq_ok]
  refine ⟨some (tokens w account), ?_, rfl⟩
  rw [balanceOf, query_of_account haccount hexecute hvm]
  simp only [hunpack]
  rfl

theorem retrieveBalance_ok (htoken : StandardToken k contract tokens worlds) {account : Address} (hw : w ∈ worlds)
    (haccount : (w.accounts k.moduleAddress).isNone = false) {held : Nat}
    (h : retrieveBalance k w contract account = .ok held) : held = tokens w account := by
  cases hcode : hasCodeHash k w contract with
  | true =>
    rw [retrieveBalance_of_code htoken account hw haccount hcode] at h
    exact (Except.ok.inj h).symm
  | false =>
    -- without code there is no answer that could be a balance
    rw [retrieveBalance, Check.bind_eq_ok] at h
    obtain ⟨balance, hbalance, hheld⟩ := h
    obtain rfl := (orFail_eq_ok _ _ _).mp hheld
    unfold balanceOf at hbalance
    split at hbalance
    · rename_i res hquery
      obtain ⟨next, hexecute⟩ := execute_of_query hquery
      cases hunpack : k.unpackUint256 res.ret with
      | ok value => exact absurd hunpack (htoken.silent account w hw hcode res next value hexecute)
      | error text =>
        rw [hunpack] at hbalance
        cases hbalance
    · cases hbalance
    · cases hbalance

-- The description of a failure is only for its error.
theorem accepted_of_checkReturn {failure : String} {res : Response} (hvm : res.vmError = "") :
    checkReturn k contract failure res = .ok () ↔ Accepted k contract res := by
  rw [Accepted, checkReturn, checkReturn]
  simp only [hvm, true_and]
  split
  · rfl
  · simp only [Check.bind_eq_ok, failIf_eq_ok]

end Calls

section Pair

variable {R : Type} {k : Env R} {ics20 : Ics20 R} {contract : Address} {denom : String}
  {tokens : World R → Address → Nat} {worlds : Set (World R)} {pair : TokenPair} {amount : SdkInt}
  {w next : World R}

theorem TokensSent.of_tokens {sender recipient : Address} {number : Int} {first last : World R}
    (h : TokensSent tokens sender recipient number w next) (hfirst : tokens first = tokens w)
    (hlast : tokens last = tokens next) : TokensSent tokens sender recipient number first last := by
  intro account
  rw [hfirst, hlast]
  exact h account

theorem Swapped.backing_eq {payer payee : Option AccAddress} {giver taker : Address}
    (h : Swapped k denom tokens payer payee giver taker amount w next)
    (hout : payer = none ↔ taker = k.moduleAddress) (hin : payee = none ↔ giver = k.moduleAddress) :
    backing k denom tokens next = backing k denom tokens w := by
  have hsupply := h.coins.supplies denom
  have hsent := h.sent k.moduleAddress
  simp only [hout, hin, BankKeeper.amountOf, eq_comm (a := k.moduleAddress)] at hsupply hsent
  simp only [if_true] at hsupply
  rw [backing, backing, hsupply, hsent]
  omega

theorem Safe.refl (hw : w ∈ worlds) : Safe k denom tokens worlds w w :=
  ⟨hw, le_rfl⟩

theorem Safe.trans {last : World R} (h : Safe k denom tokens worlds w next)
    (h' : Safe k denom tokens worlds next last) : Safe k denom tokens worlds w last :=
  ⟨h'.mem, h.backed.trans h'.backed⟩

theorem Safe.of_eq (hmem : next ∈ worlds) (hsupply : k.getSupply next denom = k.getSupply w denom)
    (htokens : tokens next k.moduleAddress = tokens w k.moduleAddress) : Safe k denom tokens worlds w next :=
  ⟨hmem, by rw [backing, backing, hsupply, htokens]⟩

theorem payment_ends (htoken : StandardToken k contract tokens worlds)
    (hworld : Surroundings k ics20 contract denom tokens worlds) (hw : w ∈ worlds) (receiver : Address)
    (hamount : 0 < amount.value) :
    Ends ((callEVM k k.moduleAddress contract "transfer" (.transfer receiver amount) true).run w)
      (fun res next => next ∈ worlds ∧ res.vmError = "" ∧
        TransferEnds k contract tokens k.moduleAddress receiver amount w (.ok res next))
      (fun next => next ∈ worlds ∧ k.SameCoins w next ∧ tokens next = tokens w) := by
  have htransfer := htoken.transfers k.moduleAddress receiver amount w hw hamount.le
  have hmem := hworld.token k.moduleAddress receiver amount w hw
  refine ends_wrap ((callEVMWithData_ends k ⟨k.moduleAddress, contract, .transfer receiver amount⟩ w).mono ?_ ?_)
  · rintro res next ⟨-, hexecute, hvm⟩
    rw [hexecute] at htransfer hmem
    exact ⟨hmem, hvm, htransfer⟩
  · rintro next (rfl | ⟨text, hexecute⟩ | ⟨res, hexecute, hvm⟩)
    · exact ⟨hw, .refl next, rfl⟩
    · rw [hexecute] at htransfer hmem
      exact ⟨hmem, htransfer⟩
    · rw [hexecute] at htransfer hmem
      obtain ⟨hsame, ⟨hreturn, -⟩ | ⟨-, htokens⟩⟩ := htransfer
      · exact absurd hreturn.1 hvm
      · exact ⟨hmem, hsame, htokens⟩

theorem payTokens_ends (htoken : StandardToken k contract tokens worlds)
    (hworld : Surroundings k ics20 contract denom tokens worlds) (hw : w ∈ worlds) (receiver : Address) {held : Nat}
    (hamount : 0 < amount.value) (hheld : held = tokens w receiver) (failure : String) :
    Ends ((transferTokens k contract receiver amount held
        (callEVM k k.moduleAddress contract "transfer" (.transfer receiver amount) true) failure).run w)
      (fun _ next => next ∈ worlds ∧ k.SameCoins w next ∧
        TokensSent tokens k.moduleAddress receiver amount.value w next ∧ k.moduleAddress ≠ receiver)
      (fun next => next ∈ worlds ∧ k.SameCoins w next ∧
        tokens next k.moduleAddress = tokens w k.moduleAddress) := by
  refine ends_bind _ ((payment_ends htoken hworld hw receiver hamount).mono (fun _ _ h => h)
    fun _ h => ⟨h.1, h.2.1, congrFun h.2.2 _⟩) ?_
  rintro res called ⟨hmem, hvm, hsame, hmoved⟩
  refine ends_bind (fun _ t => t = called ∧ hasCodeHash k called contract = true ∧
      TokensSent tokens k.moduleAddress receiver amount.value w called)
    (ends_lift (fun _ h => ⟨rfl, ?_⟩) fun text h => ⟨hmem, hsame, ?_⟩) ?_
  · have haccepted := (accepted_of_checkReturn hvm).mp h
    exact (hmoved.resolve_right fun hnot => hnot.1 haccepted).2
  · rcases hmoved with ⟨haccepted, -⟩ | ⟨-, htokens⟩
    · rw [(accepted_of_checkReturn hvm).mpr haccepted] at h
      cases h
    · exact congrFun htokens _
  rintro - t ⟨rfl, hcode, hsent⟩
  have hafter := retrieveBalance_of_code htoken receiver hmem (hworld.account t hmem) hcode
  refine ends_get_bind (ends_bind (fun after u => u = t ∧ after = tokens t receiver)
    (ends_lift (fun after h => ⟨rfl, ?_⟩) fun text h => ?_) ?_)
  · rw [hafter] at h
    exact (Except.ok.inj h).symm
  · rw [hafter] at h
    cases h
  rintro after u ⟨rfl, rfl⟩
  have hreceiver := hsent receiver
  subst hheld
  by_cases hdistinct : k.moduleAddress = receiver
  · -- paying itself changes nothing, which the check of the balance finds
    subst hdistinct
    rw [if_pos rfl] at hreceiver
    refine ends_lift (fun _ h => ?_) fun _ _ => ⟨hmem, hsame, by omega⟩
    have hchecked : (tokens u k.moduleAddress : Int) = tokens w k.moduleAddress + amount.value := by simpa using h
    omega
  · rw [if_neg (Ne.symm hdistinct), if_pos rfl, sub_zero] at hreceiver
    refine ends_lift (fun _ _ => ⟨hmem, hsame, hsent, hdistinct⟩) fun text h => ?_
    simp [failIf, hreceiver] at h

-- The coins go to the module and are burned there after the tokens have been paid.
-- A failure on the way leaves at most escrowed coins behind.
theorem convertCoinNativeERC20_ends (hlaw : k.LawfulBank) (htoken : StandardToken k contract tokens worlds)
    (hworld : Surroundings k ics20 contract denom tokens worlds) (hcontract : pair.getERC20Contract = contract)
    (hdenom : pair.denom = denom) (receiver : Address) (sender : AccAddress) (hw : w ∈ worlds) :
    Ends ((convertCoinNativeERC20 k pair amount receiver sender).run w)
      (fun _ next => next ∈ worlds ∧
        Swapped k denom tokens (some sender) none k.moduleAddress receiver amount w next)
      (fun next => sender ≠ k.moduleAccount → Safe k denom tokens worlds w next) := by
  subst hcontract hdenom
  refine ends_bind (fun _ t => t = w ∧ 0 < amount.value)
    (ends_lift (fun _ h => ⟨rfl, by simpa [SdkInt.isPositive] using h⟩) fun _ _ _ => .refl hw) ?_
  rintro - t ⟨rfl, hamount⟩
  refine ends_get_bind (ends_bind (fun held u => u = t ∧ held = tokens t receiver)
    (ends_lift (fun held h => ⟨rfl, retrieveBalance_ok htoken hw (hworld.account t hw) h⟩)
      fun _ _ _ => .refl hw) ?_)
  rintro held u ⟨rfl, rfl⟩
  refine ends_bind _ (ends_wrap (((hlaw.escrow sender ⟨pair.denom, amount⟩ u).and_endState
    (fun next => next ∈ worlds ∧ tokens next = tokens u) (hworld.escrow sender _ u hw)).mono (fun _ _ h => h) ?_)) ?_
  · rintro next ⟨hsame, hmem, htokens⟩ -
    exact .of_eq hmem (hsame.supplies _) (congrFun htokens _)
  rintro - escrowed ⟨hescrow, hmem, hescrowed⟩
  have hsupply : k.getSupply escrowed pair.denom = k.getSupply u pair.denom := by
    simpa using hescrow.supplies pair.denom
  refine ends_bind _ ((payTokens_ends htoken hworld hmem receiver hamount (congrFun hescrowed.symm receiver) _).mono
    (fun _ _ h => h) ?_) ?_
  · rintro next ⟨hmem, hsame, hkept⟩ -
    exact .of_eq hmem ((hsame.supplies _).trans hsupply) (hkept.trans (congrFun hescrowed _))
  rintro - called ⟨hmem, hsame, hsent, hdistinct⟩
  refine ends_wrap (((ends_self (hlaw.burn ⟨pair.denom, amount⟩ called)).and_endState
    (fun next => next ∈ worlds ∧ tokens next = tokens called) (hworld.burn _ called hmem)).mono ?_ ?_)
  · rintro _ next ⟨⟨-, hburn⟩, hmem, htokens⟩
    exact ⟨hmem, (hescrow.congr_right hsame).trans hburn, hsent.of_tokens hescrowed.symm htokens, hdistinct⟩
  · -- the module holds the coins, so that burning them cannot fail
    rintro next ⟨⟨⟨text, herror⟩, -⟩, -⟩ hsender
    have hholds := hescrow.balance_payee (by simpa using hsender)
    have hnonneg := hlaw.nonneg u k.moduleAccount pair.denom
    obtain ⟨burned, hburned⟩ := hlaw.burns ⟨pair.denom, amount⟩ called (hworld.isModule called hmem) hamount (by
      rw [hsame.balances, hholds]
      exact Int.le_add_of_nonneg_left hnonneg)
    rw [hburned] at herror
    cases herror

theorem receiveTokens_ok (htoken : StandardToken k contract tokens worlds)
    (hworld : Surroundings k ics20 contract denom tokens worlds) (hw : w ∈ worlds) (hamount : 0 < amount.value)
    {sender : Address} {failure : String}
    (h : (transferTokens k contract k.moduleAddress amount (tokens w k.moduleAddress)
      (callEVMWithData k ⟨sender, contract, .transfer k.moduleAddress amount⟩ true) failure).run w = .ok () next) :
    next ∈ worlds ∧ k.SameCoins w next ∧ TokensSent tokens sender k.moduleAddress amount.value w next ∧
      sender ≠ k.moduleAddress := by
  rw [transferTokens, run_bind_eq_ok] at h
  obtain ⟨res, called, hcall, h⟩ := h
  obtain ⟨-, hexecute, hvm⟩ := (callEVMWithData_ends k _ w).of_ok hcall
  have hmem := hworld.token sender k.moduleAddress amount w hw
  have htransfer := htoken.transfers sender k.moduleAddress amount w hw hamount.le
  rw [hexecute] at htransfer hmem
  change called ∈ worlds at hmem
  rw [run_lift_bind] at h
  obtain ⟨_, hreturn, h⟩ := h
  rw [run_get_bind, run_lift_bind] at h
  obtain ⟨after, hafter, h⟩ := h
  obtain rfl := retrieveBalance_ok htoken hmem (hworld.account _ hmem) hafter
  obtain ⟨hchecked, rfl⟩ := (run_lift_eq_ok _ _ _ _).mp h
  obtain ⟨hsame, hmoved⟩ := htransfer
  have hsent := (hmoved.resolve_right fun hnot => hnot.1 ((accepted_of_checkReturn hvm).mp hreturn)).2.2
  refine ⟨hmem, hsame, hsent, ?_⟩
  rintro rfl
  have hmodule := hsent k.moduleAddress
  have hgrown : (tokens called k.moduleAddress : Int) = tokens w k.moduleAddress + amount.value := by
    simpa using hchecked
  rw [if_pos rfl] at hmodule
  omega

theorem mintAndPay_ok (hlaw : k.LawfulBank) (hworld : Surroundings k ics20 contract denom tokens worlds)
    {coin : Coin} {receiver : AccAddress} (hw : w ∈ worlds)
    (hmint : (k.mintCoins moduleName coin).run w = .ok () next) {last : World R}
    (hpay : (k.sendCoinsFromModuleToAccount moduleName receiver coin).run next = .ok () last) :
    last ∈ worlds ∧ k.Moved none (some receiver) coin w last ∧ tokens last = tokens w := by
  obtain ⟨hmem, hminted⟩ := hworld.mint coin w hw
  rw [hmint] at hmem hminted
  obtain ⟨hmem', hpaid⟩ := hworld.pay receiver coin next hmem
  rw [hpay] at hmem' hpaid
  exact ⟨hmem', ((hlaw.mint _ w).of_ok hmint).trans ((hlaw.pay receiver _ next).of_ok hpay), hpaid.trans hminted⟩

theorem mintForTokens_steps {receiver : AccAddress} {sender : Address}
    (h : (mintForTokens k pair amount receiver sender).run w = .ok () next) :
    ∃ held called minted, retrieveBalance k w pair.getERC20Contract k.moduleAddress = .ok held ∧
      (transferTokens k pair.getERC20Contract k.moduleAddress amount held
        (callEVMWithData k ⟨sender, pair.getERC20Contract, .transfer k.moduleAddress amount⟩ true)
        "failed to execute transfer").run w = .ok () called ∧
      (k.mintCoins moduleName ⟨pair.denom, amount⟩).run called = .ok () minted ∧
      (k.sendCoinsFromModuleToAccount moduleName receiver ⟨pair.denom, amount⟩).run minted = .ok () next := by
  rw [mintForTokens, run_get_bind, run_lift_bind] at h
  obtain ⟨held, hheld, h⟩ := h
  rw [run_bind_eq_ok] at h
  obtain ⟨_, called, htransfer, h⟩ := h
  rw [run_bind_eq_ok] at h
  obtain ⟨_, minted, hmint, h⟩ := h
  rw [run_bind_eq_ok] at h
  obtain ⟨_, paid, hpay, h⟩ := h
  obtain rfl : paid = next := by
    rw [run_get_bind, run_lift_bind] at h
    obtain ⟨expected, -, h⟩ := h
    exact ((run_lift_eq_ok _ _ _ _).mp h).2
  exact ⟨held, called, minted, hheld, htransfer, hmint, hpay⟩

theorem mintForTokens_ok (hlaw : k.LawfulBank) (htoken : StandardToken k contract tokens worlds)
    (hworld : Surroundings k ics20 contract denom tokens worlds) (hcontract : pair.getERC20Contract = contract)
    (hdenom : pair.denom = denom) (hw : w ∈ worlds) (hamount : 0 < amount.value) {receiver : AccAddress}
    {sender : Address} (h : (mintForTokens k pair amount receiver sender).run w = .ok () next) :
    next ∈ worlds ∧ Swapped k denom tokens none (some receiver) sender k.moduleAddress amount w next := by
  subst hcontract hdenom
  obtain ⟨held, called, minted, hheld, htransfer, hmint, hpay⟩ := mintForTokens_steps h
  obtain rfl := retrieveBalance_ok htoken hw (hworld.account w hw) hheld
  obtain ⟨hmem, hsame, hsent, hdistinct⟩ := receiveTokens_ok htoken hworld hw hamount htransfer
  obtain ⟨hlast, hmoved, htokens⟩ := mintAndPay_ok hlaw hworld hmem hmint hpay
  exact ⟨hlast, hmoved.congr_left hsame, hsent.of_tokens rfl htokens, hdistinct⟩

end Pair

section Others

variable {R : Type} {k : Env R} {ics20 : Ics20 R} {contract : Address} {denom : String}
  {tokens : World R → Address → Nat} {worlds : Set (World R)} {pair : TokenPair} {amount : SdkInt}
  {w next : World R}

theorem safe_callEVM (hworld : Surroundings k ics20 contract denom tokens worlds) {msg : Message}
    (hother : msg.contract ≠ contract) (hw : w ∈ worlds) :
    Ends ((callEVMWithData k msg true).run w) (fun _ => Safe k denom tokens worlds w)
      (Safe k denom tokens worlds w) := by
  have hsafe := hworld.contracts msg w hw hother
  refine (callEVMWithData_ends k msg w).mono ?_ ?_
  · rintro res next ⟨-, hexecute, -⟩
    rwa [hexecute] at hsafe
  · rintro next (rfl | ⟨text, hexecute⟩ | ⟨res, hexecute, -⟩)
    · exact .refl hw
    · rwa [hexecute] at hsafe
    · rwa [hexecute] at hsafe

theorem safe_transferTokens {account : Address} {held : Nat} {call : Action (World R) Response} {failure : String}
    (hcall : Ends (call.run w) (fun _ => Safe k denom tokens worlds w) (Safe k denom tokens worlds w)) :
    Ends ((transferTokens k pair.getERC20Contract account amount held call failure).run w)
      (fun _ => Safe k denom tokens worlds w) (Safe k denom tokens worlds w) := by
  refine ends_bind _ hcall fun res called hcalled => ?_
  refine ends_bind (fun _ => Safe k denom tokens worlds w)
    (ends_lift (fun _ _ => hcalled) fun _ _ => hcalled) fun _ t ht => ?_
  refine ends_get_bind (ends_bind (fun _ => Safe k denom tokens worlds w)
    (ends_lift (fun _ _ => ht) fun _ _ => ht) fun _ u hu => ?_)
  exact ends_lift (fun _ _ => hu) fun _ _ => hu

theorem safe_convertCoin (hlaw : k.LawfulBank) (hworld : Surroundings k ics20 contract denom tokens worlds)
    (hcontract : pair.getERC20Contract ≠ contract) (hdenom : pair.denom ≠ denom) (receiver : Address)
    (sender : AccAddress) (hw : w ∈ worlds) :
    Ends ((convertCoinNativeERC20 k pair amount receiver sender).run w) (fun _ => Safe k denom tokens worlds w)
      (Safe k denom tokens worlds w) := by
  refine ends_bind (fun _ t => t = w) (ends_lift (fun _ _ => rfl) fun _ _ => .refl hw) ?_
  rintro _ t rfl
  refine ends_get_bind (ends_bind (fun _ u => u = t) (ends_lift (fun _ _ => rfl) fun _ _ => .refl hw) ?_)
  rintro held u rfl
  refine ends_bind (fun _ => Safe k denom tokens worlds u)
    (ends_wrap (((hlaw.escrow sender ⟨pair.denom, amount⟩ u).and_endState
      (fun next => next ∈ worlds ∧ tokens next = tokens u) (hworld.escrow sender _ u hw)).mono ?_ ?_)) ?_
  · rintro _ next ⟨hmoved, hmem, htokens⟩
    exact .of_eq hmem (hmoved.supply_of_ne hdenom) (congrFun htokens _)
  · rintro next ⟨hsame, hmem, htokens⟩
    exact .of_eq hmem (hsame.supplies denom) (congrFun htokens _)
  intro _ escrowed hescrowed
  refine ends_bind _ ((safe_transferTokens (ends_wrap (safe_callEVM hworld hcontract hescrowed.mem))).mono
    (fun _ _ h => h) fun _ h => hescrowed.trans h) ?_
  intro _ called hcalled
  refine ends_wrap (((hlaw.burn ⟨pair.denom, amount⟩ called).and_endState
    (fun next => next ∈ worlds ∧ tokens next = tokens called) (hworld.burn _ called hcalled.mem)).mono ?_ ?_)
  · rintro _ next ⟨hmoved, hmem, htokens⟩
    exact (hescrowed.trans hcalled).trans (.of_eq hmem (hmoved.supply_of_ne hdenom) (congrFun htokens _))
  · rintro next ⟨hsame, hmem, htokens⟩
    exact (hescrowed.trans hcalled).trans (.of_eq hmem (hsame.supplies denom) (congrFun htokens _))

theorem safe_mintForTokens (hlaw : k.LawfulBank) (hworld : Surroundings k ics20 contract denom tokens worlds)
    (hcontract : pair.getERC20Contract ≠ contract) (hdenom : pair.denom ≠ denom) (hw : w ∈ worlds)
    {receiver : AccAddress} {sender : Address}
    (h : (mintForTokens k pair amount receiver sender).run w = .ok () next) : Safe k denom tokens worlds w next := by
  obtain ⟨held, called, minted, -, htransfer, hmint, hpay⟩ := mintForTokens_steps h
  have hcalled := (safe_transferTokens (safe_callEVM hworld hcontract hw)).of_ok htransfer
  obtain ⟨hmem, hmoved, htokens⟩ := mintAndPay_ok hlaw hworld hcalled.mem hmint hpay
  exact hcalled.trans (.of_eq hmem (hmoved.supply_of_ne hdenom) (congrFun htokens _))

end Others

end PosChain.Erc20
