import PosChain.Erc20.Keeper.Changes

namespace PosChain.Erc20

open Evm (World)
open BankKeeper (amountOf)

namespace Env

variable {R : Type} (k : Env R)

def balance (w : World R) (account : AccAddress) (denom : String) : Int :=
  (k.getBalance w account denom).value

def moduleAccount : AccAddress :=
  k.moduleAddress.bytes

-- A coin has gone from one account to another one. Without a payer it is new, and
-- without a payee it is gone.
structure Moved (payer payee : Option AccAddress) (coin : Coin) (w next : World R) : Prop where
  balances : ∀ account denom, k.balance next account denom = k.balance w account denom -
    (if payer = some account then amountOf coin denom else 0) +
    (if payee = some account then amountOf coin denom else 0)
  supplies : ∀ denom, k.getSupply next denom = k.getSupply w denom -
    (if payee = none then amountOf coin denom else 0) + (if payer = none then amountOf coin denom else 0)

structure SameCoins (w next : World R) : Prop where
  balances : ∀ account denom, k.balance next account denom = k.balance w account denom
  supplies : ∀ denom, k.getSupply next denom = k.getSupply w denom

-- A call of the bank moves its coin exactly or fails without a trace, and the module
-- may burn what its account holds.
structure LawfulBank : Prop where
  nonneg : ∀ w account denom, 0 ≤ k.balance w account denom
  escrow : ∀ sender coin w, Ends ((k.sendCoinsFromAccountToModule sender moduleName coin).run w)
    (fun _ next => k.Moved (some sender) (some k.moduleAccount) coin w next) (k.SameCoins w)
  pay : ∀ receiver coin w, Ends ((k.sendCoinsFromModuleToAccount moduleName receiver coin).run w)
    (fun _ next => k.Moved (some k.moduleAccount) (some receiver) coin w next) (k.SameCoins w)
  mint : ∀ coin w, Ends ((k.mintCoins moduleName coin).run w)
    (fun _ next => k.Moved none (some k.moduleAccount) coin w next) (k.SameCoins w)
  burn : ∀ coin w, Ends ((k.burnCoins moduleName coin).run w)
    (fun _ next => k.Moved (some k.moduleAccount) none coin w next) (k.SameCoins w)
  burns : ∀ coin w, k.isModuleAccount w k.moduleAccount = true → 0 < coin.amount.value →
    coin.amount.value ≤ k.balance w k.moduleAccount coin.denom →
    ∃ next, (k.burnCoins moduleName coin).run w = .ok () next

variable {k}

theorem SameCoins.refl (w : World R) : k.SameCoins w w :=
  ⟨fun _ _ => rfl, fun _ => rfl⟩

theorem Moved.congr_right {payer payee : Option AccAddress} {coin : Coin} {w next last : World R}
    (h : k.Moved payer payee coin w next) (hsame : k.SameCoins next last) : k.Moved payer payee coin w last where
  balances account denom := by rw [hsame.balances, h.balances]
  supplies denom := by rw [hsame.supplies, h.supplies]

theorem Moved.congr_left {payer payee : Option AccAddress} {coin : Coin} {first w next : World R}
    (h : k.Moved payer payee coin w next) (hsame : k.SameCoins first w) : k.Moved payer payee coin first next where
  balances account denom := by rw [h.balances, hsame.balances]
  supplies denom := by rw [h.supplies, hsame.supplies]

theorem Moved.trans {payer payee : Option AccAddress} {holder : AccAddress} {coin : Coin} {w middle next : World R}
    (h : k.Moved payer (some holder) coin w middle) (h' : k.Moved (some holder) payee coin middle next) :
    k.Moved payer payee coin w next where
  balances account denom := by
    rw [h'.balances, h.balances]
    omega
  supplies denom := by
    rw [h'.supplies, h.supplies]
    simp only [reduceCtorEq, if_false]
    omega

theorem Moved.supply_of_ne {payer payee : Option AccAddress} {coin : Coin} {w next : World R}
    (h : k.Moved payer payee coin w next) {denom : String} (hne : coin.denom ≠ denom) :
    k.getSupply next denom = k.getSupply w denom := by
  rw [h.supplies, amountOf, if_neg hne.symm]
  simp

theorem Moved.balance_payee {payer : Option AccAddress} {payee : AccAddress} {coin : Coin} {w next : World R}
    (h : k.Moved payer (some payee) coin w next) (hne : payer ≠ some payee) :
    k.balance next payee coin.denom = k.balance w payee coin.denom + coin.amount.value := by
  rw [h.balances, if_neg hne, if_pos rfl, amountOf, if_pos rfl]
  omega

end Env

end PosChain.Erc20
