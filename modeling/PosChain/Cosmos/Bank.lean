import PosChain.Base.Bytes
import PosChain.Cosmos.SdkInt

namespace PosChain

abbrev AccAddress := Bytes

structure Coin where
  denom : String
  amount : SdkInt
  deriving DecidableEq

-- A denomination is a letter followed by 2 to 127 letters, digits or separators.
def validateDenom (denom : String) : Bool :=
  match denom.toList with
  | [] => false
  | first :: rest =>
    first.isAlpha && 2 ≤ rest.length && rest.length ≤ 127 &&
      rest.all fun c => c.isAlphanum || c == '/' || c == ':' || c == '.' || c == '_' || c == '-'

def Coin.isValid (coin : Coin) : Bool :=
  validateDenom coin.denom && !coin.amount.isNegative

-- The operations of the bank module that other modules call. The bank's own
-- state is a parameter.
structure BankKeeper (Bank : Type) where
  mintCoins : String → Coin → Action Bank Unit
  burnCoins : String → Coin → Action Bank Unit
  sendCoinsFromModuleToAccount : String → AccAddress → Coin → Action Bank Unit
  sendCoinsFromAccountToModule : AccAddress → String → Coin → Action Bank Unit
  getSupply : Bank → String → SdkInt

namespace BankKeeper

def amountOf (coin : Coin) (denom : String) : Int :=
  if denom = coin.denom then coin.amount.value else 0

section Laws

variable {Bank : Type} (bank : BankKeeper Bank) (name : String)

-- A successful call for a module moves the supply by exactly its coin.
structure Lawful : Prop where
  mint : ∀ coin b next, (bank.mintCoins name coin).run b = .ok () next → ∀ denom,
    (bank.getSupply next denom).value = (bank.getSupply b denom).value + amountOf coin denom
  burn : ∀ coin b next, (bank.burnCoins name coin).run b = .ok () next → ∀ denom,
    (bank.getSupply next denom).value = (bank.getSupply b denom).value - amountOf coin denom
  pay : ∀ account coin b next, (bank.sendCoinsFromModuleToAccount name account coin).run b = .ok () next →
    ∀ denom, bank.getSupply next denom = bank.getSupply b denom
  take : ∀ account coin b next, (bank.sendCoinsFromAccountToModule account name coin).run b = .ok () next →
    ∀ denom, bank.getSupply next denom = bank.getSupply b denom

-- So does the balance of the module. Its own account is blocked as a recipient,
-- and is none of those that pay.
structure Balanced (balance : Bank → String → Int) (payers : Set AccAddress) : Prop where
  mint : ∀ coin b next, (bank.mintCoins name coin).run b = .ok () next → ∀ denom,
    balance next denom = balance b denom + amountOf coin denom
  burn : ∀ coin b next, (bank.burnCoins name coin).run b = .ok () next → ∀ denom,
    balance next denom = balance b denom - amountOf coin denom
  pay : ∀ account coin b next, (bank.sendCoinsFromModuleToAccount name account coin).run b = .ok () next →
    ∀ denom, balance next denom = balance b denom - amountOf coin denom
  take : ∀ account ∈ payers, ∀ coin b next,
    (bank.sendCoinsFromAccountToModule account name coin).run b = .ok () next →
    ∀ denom, balance next denom = balance b denom + amountOf coin denom

end Laws

end BankKeeper

-- A bank kept as three tables. It follows the bank module in what its calls
-- require: the payer has the coins, and a supply stays within an integer.
structure Ledger where
  supply : String → SdkInt
  modules : String → String → Int
  accounts : AccAddress → String → Int

namespace Ledger

def adjust {α : Type} [DecidableEq α] (table : α → String → Int) (owner : α) (denom : String)
    (change : Int) : α → String → Int :=
  fun other d => if other = owner ∧ d = denom then table other d + change else table other d

def changeSupply (coin : Coin) (change : Int) : Action Ledger Unit := do
  let ledger ← get
  let total ← orFail (SdkInt.ofInt? ((ledger.supply coin.denom).value + change))
    (.panic "Integer overflow")
  set { ledger with supply := fun denom => if denom = coin.denom then total else ledger.supply denom }

def changeModule (name : String) (coin : Coin) (change : Int) : Action Ledger Unit := do
  let ledger ← get
  failIf (ledger.modules name coin.denom + change < 0) "insufficient funds"
  set { ledger with modules := adjust ledger.modules name coin.denom change }

def changeAccount (account : AccAddress) (coin : Coin) (change : Int) : Action Ledger Unit := do
  let ledger ← get
  failIf (ledger.accounts account coin.denom + change < 0) "insufficient funds"
  set { ledger with accounts := adjust ledger.accounts account coin.denom change }

def bank : BankKeeper Ledger where
  mintCoins name coin := do
    changeModule name coin coin.amount.value
    changeSupply coin coin.amount.value
  burnCoins name coin := do
    changeModule name coin (-coin.amount.value)
    changeSupply coin (-coin.amount.value)
  sendCoinsFromModuleToAccount name account coin := do
    changeModule name coin (-coin.amount.value)
    changeAccount account coin coin.amount.value
  sendCoinsFromAccountToModule account name coin := do
    changeAccount account coin (-coin.amount.value)
    changeModule name coin coin.amount.value
  getSupply ledger denom := ledger.supply denom

theorem changeSupply_ok {coin : Coin} {change : Int} {s t : Ledger}
    (h : (changeSupply coin change).run s = .ok () t) (denom : String) :
    (t.supply denom).value = (s.supply denom).value + (if denom = coin.denom then change else 0) ∧
      t.modules = s.modules := by
  simp only [changeSupply, run_get_bind, run_lift_bind, orFail_eq_ok, SdkInt.ofInt?_eq_some] at h
  obtain ⟨total, htotal, hset⟩ := h
  simp only [EStateM.run_set, EStateM.Result.ok.injEq, true_and] at hset
  subst hset
  by_cases hd : denom = coin.denom
  · subst hd
    simp [htotal]
  · simp [hd]

theorem changeModule_ok {name : String} {coin : Coin} {change : Int} {s t : Ledger}
    (h : (changeModule name coin change).run s = .ok () t) (denom : String) :
    t.modules name denom = s.modules name denom + (if denom = coin.denom then change else 0) ∧
      t.supply = s.supply := by
  simp only [changeModule, run_get_bind, run_lift_bind, failIf_eq_ok, exists_const] at h
  obtain ⟨-, hset⟩ := h
  simp only [EStateM.run_set, EStateM.Result.ok.injEq, true_and] at hset
  subst hset
  by_cases hd : denom = coin.denom <;> simp [adjust, hd]

theorem changeAccount_ok {account : AccAddress} {coin : Coin} {change : Int} {s t : Ledger}
    (h : (changeAccount account coin change).run s = .ok () t) :
    t.modules = s.modules ∧ t.supply = s.supply := by
  simp only [changeAccount, run_get_bind, run_lift_bind, failIf_eq_ok, exists_const] at h
  obtain ⟨-, hset⟩ := h
  simp only [EStateM.run_set, EStateM.Result.ok.injEq, true_and] at hset
  subst hset
  exact ⟨rfl, rfl⟩

theorem bank_lawful (name : String) : bank.Lawful name where
  mint coin b next h denom := by
    simp only [bank, run_bind_eq_ok] at h
    obtain ⟨⟨⟩, r, hm, hs⟩ := h
    have hsupply := (changeSupply_ok hs denom).1
    rw [(changeModule_ok hm denom).2] at hsupply
    exact hsupply
  burn coin b next h denom := by
    simp only [bank, run_bind_eq_ok] at h
    obtain ⟨⟨⟩, r, hm, hs⟩ := h
    have hsupply := (changeSupply_ok hs denom).1
    rw [(changeModule_ok hm denom).2] at hsupply
    change (next.supply denom).value = (b.supply denom).value - BankKeeper.amountOf coin denom
    rw [hsupply]
    simp only [BankKeeper.amountOf]
    split <;> omega
  pay account coin b next h denom := by
    simp only [bank, run_bind_eq_ok] at h
    obtain ⟨⟨⟩, r, hm, ha⟩ := h
    change next.supply denom = b.supply denom
    rw [(changeAccount_ok ha).2, (changeModule_ok hm denom).2]
  take account coin b next h denom := by
    simp only [bank, run_bind_eq_ok] at h
    obtain ⟨⟨⟩, r, ha, hm⟩ := h
    change next.supply denom = b.supply denom
    rw [(changeModule_ok hm denom).2, (changeAccount_ok ha).2]

theorem bank_balanced (name : String) : bank.Balanced name (fun ledger => ledger.modules name) Set.univ where
  mint coin b next h denom := by
    simp only [bank, run_bind_eq_ok] at h
    obtain ⟨⟨⟩, r, hm, hs⟩ := h
    rw [(changeSupply_ok hs denom).2]
    exact (changeModule_ok hm denom).1
  burn coin b next h denom := by
    simp only [bank, run_bind_eq_ok] at h
    obtain ⟨⟨⟩, r, hm, hs⟩ := h
    rw [(changeSupply_ok hs denom).2, (changeModule_ok hm denom).1]
    simp only [BankKeeper.amountOf]
    split <;> omega
  pay account coin b next h denom := by
    simp only [bank, run_bind_eq_ok] at h
    obtain ⟨⟨⟩, r, hm, ha⟩ := h
    rw [(changeAccount_ok ha).1, (changeModule_ok hm denom).1]
    simp only [BankKeeper.amountOf]
    split <;> omega
  take account _ coin b next h denom := by
    simp only [bank, run_bind_eq_ok] at h
    obtain ⟨⟨⟩, r, ha, hm⟩ := h
    rw [(changeModule_ok hm denom).1, (changeAccount_ok ha).1]
    rfl

end Ledger

end PosChain
