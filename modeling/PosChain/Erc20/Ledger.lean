import PosChain.Erc20.Bank

namespace PosChain.Erc20

open Evm (World)
open BankKeeper (amountOf)

structure Book where
  coins : AccAddress → String → SdkInt
  nonneg : ∀ account denom, 0 ≤ (coins account denom).value
  supply : String → Int
  tokens : Address → Nat
  bounded : ∀ account, tokens account < 2 ^ 256

namespace Book

-- A balance changes within its range. Without an account the supply makes up for
-- the change.
def adjust (account : Option AccAddress) (denom : String) (delta : Int) (book : Book) : Option Book :=
  match account with
  | none => some { book with supply := Function.update book.supply denom (book.supply denom - delta) }
  | some account =>
    if h : 0 ≤ (book.coins account denom).value + delta ∧
        ((book.coins account denom).value + delta).natAbs < 2 ^ 256 then
      some { book with
        coins := fun other coin => if other = account ∧ coin = denom then ⟨_, h.2⟩ else book.coins other coin
        nonneg := by
          intro other coin
          split
          · exact h.1
          · exact book.nonneg other coin }
    else none

def move (payer payee : Option AccAddress) (coin : Coin) (book : Book) : Option Book :=
  (book.adjust payer coin.denom (-coin.amount.value)).bind (adjust payee coin.denom coin.amount.value)

def debited (sender : Address) (amount : Nat) (book : Book) : Address → Nat :=
  Function.update book.tokens sender (book.tokens sender - amount)

def send (sender recipient : Address) (amount : Nat) (book : Book) : Option Book :=
  if h : amount ≤ book.tokens sender ∧ book.debited sender amount recipient + amount < 2 ^ 256 then
    some { book with
      tokens := Function.update (book.debited sender amount) recipient (book.debited sender amount recipient + amount)
      bounded := by
        intro account
        have hsender := book.bounded sender
        have haccount := book.bounded account
        rw [Function.update_apply]
        split
        · exact h.2
        · rw [debited, Function.update_apply]
          split <;> omega }
  else none

variable {book next : Book}

theorem adjust_eq_some {account : Option AccAddress} {denom : String} {delta : Int}
    (h : book.adjust account denom delta = some next) :
    (∀ other coin, (next.coins other coin).value =
        (book.coins other coin).value + if account = some other ∧ coin = denom then delta else 0) ∧
      (∀ coin, next.supply coin = book.supply coin - if account = none ∧ coin = denom then delta else 0) ∧
      next.tokens = book.tokens := by
  cases account with
  | none =>
    cases h
    refine ⟨by simp, fun coin => ?_, rfl⟩
    simp only [Function.update_apply, true_and]
    split <;> simp_all
  | some account =>
    simp only [adjust] at h
    split at h
    · cases h
      refine ⟨fun other coin => ?_, by simp, rfl⟩
      simp only [Option.some.injEq, eq_comm (a := account)]
      split
      · rename_i hsame
        obtain ⟨rfl, rfl⟩ := hsame
        rfl
      · omega
    · cases h

theorem move_eq_some {payer payee : Option AccAddress} {coin : Coin} (h : book.move payer payee coin = some next) :
    (∀ account denom, (next.coins account denom).value = (book.coins account denom).value -
        (if payer = some account then amountOf coin denom else 0) +
        (if payee = some account then amountOf coin denom else 0)) ∧
      (∀ denom, next.supply denom = book.supply denom - (if payee = none then amountOf coin denom else 0) +
        (if payer = none then amountOf coin denom else 0)) ∧ next.tokens = book.tokens := by
  obtain ⟨debited, hdebit, hcredit⟩ := Option.bind_eq_some_iff.mp h
  obtain ⟨hcoins, hsupply, htokens⟩ := adjust_eq_some hdebit
  obtain ⟨hcoins', hsupply', htokens'⟩ := adjust_eq_some hcredit
  refine ⟨fun account denom => ?_, fun denom => ?_, htokens'.trans htokens⟩
  · rw [hcoins', hcoins, amountOf]
    split_ifs <;> first | omega | tauto
  · rw [hsupply', hsupply, amountOf]
    split_ifs <;> first | omega | tauto

theorem send_eq_some {sender recipient : Address} {amount : Nat} (h : book.send sender recipient amount = some next) :
    (∀ account, (next.tokens account : Int) = book.tokens account - (if account = sender then (amount : Int) else 0) +
        (if account = recipient then (amount : Int) else 0)) ∧
      next.coins = book.coins ∧ next.supply = book.supply := by
  simp only [send] at h
  split at h
  · rename_i hpaid
    cases h
    refine ⟨fun account => ?_, rfl, rfl⟩
    have hheld := hpaid.1
    have hdebited : (book.debited sender amount account : Int) =
        book.tokens account - if account = sender then (amount : Int) else 0 := by
      rw [debited, Function.update_apply]
      split
      · rename_i hsender
        subst hsender
        omega
      · omega
    simp only [Function.update_apply]
    split
    · rename_i hrecipient
      subst hrecipient
      omega
    · omega
  · cases h

theorem adjust_of_le {account : AccAddress} {denom : String} {amount : Int} (hamount : 0 ≤ amount)
    (hheld : amount ≤ (book.coins account denom).value) :
    ∃ next, book.adjust (some account) denom (-amount) = some next := by
  have hbound := (book.coins account denom).bounded
  refine ⟨_, dif_pos ⟨by omega, by omega⟩⟩

end Book

-- The module beside such tables. The token answers with a boolean word; one that is
-- not honest refuses every transfer in its answer.
section Ledger

def onBook (change : Book → Option Book) : Action (World Book) Unit := fun w =>
  match change w.rest with
  | some book => .ok () { w with rest := book }
  | none => .error (.error "insufficient funds") w

def word (value : Nat) : Bytes :=
  Bytes.fixed 32 value

def readWord (bytes : Bytes) : Except String Nat :=
  if bytes.length = 32 then .ok (Bytes.toNat bytes) else .error "abi: improperly formatted output"

theorem readWord_word {value : Nat} (h : value < 2 ^ 256) : readWord (word value) = .ok value := by
  have hvalue : Bytes.toNat (word value) = value := by
    rw [word, Bytes.toNat_fixed]
    exact Nat.mod_eq_of_lt (by omega)
  rw [readWord, hvalue, word, if_pos (Bytes.length_fixed 32 value)]

def transferToken (honest : Bool) (sender recipient : Address) (amount : Nat) :
    Action (World Book) Response := fun w =>
  match if honest then w.rest.send sender recipient amount else none with
  | some book => .ok ⟨word 1, "", []⟩ { w with rest := book }
  | none => .ok ⟨word 0, "", []⟩ w

def runToken (honest : Bool) (sender : Address) : Method → Action (World Book) Response
  | .balanceOf account => fun w => .ok ⟨word (w.rest.tokens account), "", []⟩ w
  | .transfer recipient amount => transferToken honest sender recipient amount.value.toNat
  | _ => pure ⟨[], "", []⟩

def erc20Module : Address :=
  Ethereum.hexToAddress "0x47eeb2eac350e1923b8cbdfa4396a077b36e62a0"

def ledgerConfig : Evm.Config where
  keccak256 := Evm.sampleHash
  blockedAddr account := account == erc20Module.bytes
  bech32 _ := ""

-- A token whose code is gone is not run, and its address answers with nothing.
def hasToken (token : Address) (w : World Book) : Bool :=
  (w.accounts token).isSome && w.getCodeHash ledgerConfig token != ledgerConfig.emptyCodeHash

def holder : Address :=
  Ethereum.hexToAddress "0xe1ab8145f7e55dc933d51a18c793f901a3a0b276"

def holderText : String :=
  "xtc1ux4cz30hu4wujv74rgvv0yleqx36pvnk9jym5p"

def readHolder (text : String) : Except String AccAddress :=
  if text = holderText then .ok holder.bytes else .error "decoding bech32 failed"

def receivedDenom (denom : Denom) : String :=
  if denom = ⟨"uatom", [("transfer", "channel-0")]⟩ then
    "ibc/27394FB092D2ECCD56123C74F36E4C1F926001CEADA9CA97EA622B25F41E5EB2"
  else denom.base

def ledgerEnv (honest : Bool) (token : Address) : Env Book where
  evm := ledgerConfig
  sum := Bytes.sampleDigest
  bytecode := [0x60]
  moduleAddress := erc20Module
  accAddressFromBech32 := readHolder
  stringToBytes := readHolder
  validateAuthority _ _ := .error "invalid authority"
  bondDenom _ := .ok "axtc"
  isModuleAccount _ account := account == erc20Module.bytes
  extractDenomFromPath text := ⟨text, []⟩
  ibcDenom := receivedDenom
  isSendEnabledCoin _ _ := true
  getBalance w account denom := w.rest.coins account denom
  spendableCoin w account denom := w.rest.coins account denom
  getSupply w denom := w.rest.supply denom
  hasDenomMetaData _ _ := false
  setDenomMetaData _ w := w
  metadataValidate _ := .ok ()
  mintCoins _ coin := onBook (Book.move none (some erc20Module.bytes) coin)
  burnCoins _ coin := onBook (Book.move (some erc20Module.bytes) none coin)
  sendCoinsFromModuleToAccount _ receiver coin := onBook (Book.move (some erc20Module.bytes) (some receiver) coin)
  sendCoinsFromAccountToModule sender _ coin := onBook (Book.move (some sender) (some erc20Module.bytes) coin)
  execute msg := fun w =>
    if msg.contract = token ∧ hasToken token w = true then runToken honest msg.sender msg.method w
    else .ok ⟨[], "", []⟩ w
  unpackBool bytes := (readWord bytes).map fun value => value == 1
  unpackUint256 := readWord
  unpackUint8 := readWord
  unpackString bytes := .ok (Bytes.toText bytes)

variable {honest : Bool} {token : Address}

theorem onBook_ends {payer payee : Option AccAddress} (coin : Coin) (w : World Book) :
    Ends ((onBook (Book.move payer payee coin)).run w)
      (fun _ next => (ledgerEnv honest token).Moved payer payee coin w next)
      ((ledgerEnv honest token).SameCoins w) := by
  have hrun : (onBook (Book.move payer payee coin)).run w = match w.rest.move payer payee coin with
    | some book => .ok () { w with rest := book }
    | none => .error (.error "insufficient funds") w := rfl
  rw [hrun]
  cases hmove : w.rest.move payer payee coin with
  | none => exact .refl w
  | some book =>
    obtain ⟨hcoins, hsupply, -⟩ := Book.move_eq_some hmove
    exact ⟨hcoins, hsupply⟩

theorem sameCoins_of_book {w next : World Book} (hcoins : next.rest.coins = w.rest.coins)
    (hsupply : next.rest.supply = w.rest.supply) : (ledgerEnv honest token).SameCoins w next where
  balances account denom := by
    change (next.rest.coins account denom).value = (w.rest.coins account denom).value
    rw [hcoins]
  supplies denom := by
    change next.rest.supply denom = w.rest.supply denom
    rw [hsupply]

theorem transferToken_run (honest : Bool) (sender recipient : Address) (amount : Nat) (w : World Book) :
    (∃ book, w.rest.send sender recipient amount = some book ∧
        (transferToken honest sender recipient amount).run w = .ok ⟨word 1, "", []⟩ { w with rest := book }) ∨
      (transferToken honest sender recipient amount).run w = .ok ⟨word 0, "", []⟩ w := by
  have hrun : (transferToken honest sender recipient amount).run w =
      match if honest then w.rest.send sender recipient amount else none with
      | some book => .ok ⟨word 1, "", []⟩ { w with rest := book }
      | none => .ok ⟨word 0, "", []⟩ w := rfl
  rw [hrun]
  cases hsend : if honest then w.rest.send sender recipient amount else none with
  | none => exact .inr rfl
  | some book =>
    cases honest with
    | false => cases hsend
    | true => exact .inl ⟨book, hsend, rfl⟩

theorem runToken_book (honest : Bool) (sender : Address) (method : Method) (w : World Book) :
    ∃ res book, (runToken honest sender method).run w = .ok res { w with rest := book } ∧
      book.coins = w.rest.coins ∧ book.supply = w.rest.supply := by
  cases method with
  | transfer recipient amount =>
    rcases transferToken_run honest sender recipient amount.value.toNat w with ⟨book, hsend, hrun⟩ | hrun
    · obtain ⟨-, hcoins, hsupply⟩ := Book.send_eq_some hsend
      exact ⟨_, book, hrun, hcoins, hsupply⟩
    · exact ⟨_, w.rest, hrun, rfl, rfl⟩
  | balanceOf account => exact ⟨_, w.rest, rfl, rfl, rfl⟩
  | name => exact ⟨_, w.rest, rfl, rfl, rfl⟩
  | symbol => exact ⟨_, w.rest, rfl, rfl, rfl⟩
  | decimals => exact ⟨_, w.rest, rfl, rfl, rfl⟩

theorem execute_token (sender : Address) (method : Method) {w : World Book}
    (hcode : Keeper.hasCodeHash (ledgerEnv honest token) w token = true) :
    ((ledgerEnv honest token).execute ⟨sender, token, method⟩).run w = (runToken honest sender method).run w :=
  if_pos ⟨rfl, hcode⟩

theorem execute_nothing {msg : Message} {w : World Book}
    (h : msg.contract ≠ token ∨ Keeper.hasCodeHash (ledgerEnv honest token) w token = false) :
    ((ledgerEnv honest token).execute msg).run w = .ok ⟨[], "", []⟩ w := by
  refine if_neg ?_
  rintro ⟨hcontract, hcode⟩
  rcases h with h | h
  · exact h hcontract
  · exact absurd (hcode.symm.trans h) (by decide)

theorem execute_sameCoins (msg : Message) (w : World Book) :
    (ledgerEnv honest token).SameCoins w (endState (((ledgerEnv honest token).execute msg).run w)) ∧
      (endState (((ledgerEnv honest token).execute msg).run w)).accounts = w.accounts := by
  obtain ⟨sender, contract, method⟩ := msg
  by_cases hcontract : contract = token
  · subst hcontract
    cases hcode : Keeper.hasCodeHash (ledgerEnv honest contract) w contract with
    | true =>
      obtain ⟨res, book, hrun, hcoins, hsupply⟩ := runToken_book honest sender method w
      rw [execute_token sender method hcode, hrun]
      exact ⟨sameCoins_of_book hcoins hsupply, rfl⟩
    | false =>
      rw [execute_nothing (.inr hcode)]
      exact ⟨.refl w, rfl⟩
  · rw [execute_nothing (.inl hcontract)]
    exact ⟨.refl w, rfl⟩

theorem ledger_lawful : (ledgerEnv honest token).LawfulBank where
  nonneg w account denom := w.rest.nonneg account denom
  escrow sender coin w := onBook_ends coin w
  pay receiver coin w := onBook_ends coin w
  mint coin w := onBook_ends coin w
  burn coin w := onBook_ends coin w
  burns coin w _ hamount hheld := by
    obtain ⟨next, hnext⟩ := Book.adjust_of_le hamount.le hheld
    refine ⟨{ w with rest := { next with
      supply := Function.update next.supply coin.denom (next.supply coin.denom - coin.amount.value) } }, ?_⟩
    have hmove : w.rest.move (some erc20Module.bytes) none coin = some _ := Option.bind_eq_some_iff.mpr
      ⟨next, hnext, rfl⟩
    change (onBook (Book.move (some erc20Module.bytes) none coin)).run w = _
    simp only [EStateM.run, onBook, hmove]

-- One pair, whose tokens the holder has beside some coins that the module backs.
def ledgerPair : TokenPair :=
  ⟨"0x2222222222222222222222222222222222222222", "erc20:0x2222222222222222222222222222222222222222", true,
    .ownerExternal⟩

def ledgerToken : Address :=
  ledgerPair.getERC20Contract

def ledgerGenesis : GenesisState :=
  ⟨⟨true, true⟩, [ledgerPair], [], [], []⟩

def ledgerBook : Book where
  coins account denom :=
    if account = holder.bytes ∧ denom = ledgerPair.denom then ⟨40, by decide⟩ else SdkInt.zeroInt
  nonneg account denom := by
    split <;> decide
  supply denom := if denom = ledgerPair.denom then 40 else 0
  tokens account := if account = holder then 60 else if account = erc20Module then 40 else 0
  bounded account := by
    split
    · decide
    · split <;> decide

def ledgerWorld : World Book where
  accounts := Function.update (Function.update (Function.update (fun _ => none)
    erc20Module (some ⟨.moduleAccount, 0, 0⟩)) holder (some ⟨.baseAccount, 1, 0⟩))
    ledgerToken (some ⟨.baseAccount, 2, 1⟩)
  nextNumber := 3
  balances _ := 0
  bounded := Evm.zero_bounded
  elsewhere := 0
  supply := 0
  codeHashes := (∅ : Std.ExtTreeMap Address Hash).insert ledgerToken (ledgerConfig.keccak256 [0x60, 0x80])
  codes := Function.update (fun _ => none) (ledgerConfig.keccak256 [0x60, 0x80]) (some [0x60, 0x80])
  storage _ := ∅
  rest := ledgerBook

def ledgerState (honest : Bool) : State Book :=
  endState ((initGenesis (ledgerEnv honest ledgerToken) ledgerGenesis).run ⟨Store.empty, ledgerWorld⟩)

end Ledger

end PosChain.Erc20
