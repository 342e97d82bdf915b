import PosChain.Evm.StateDB

namespace PosChain.Evm

-- The kinds of accounts of the auth module. A vesting account holds back an amount
-- of the EVM denomination at the time of the block.
inductive AccountKind where
  | baseAccount
  | vestingAccount (locked : Nat)
  | moduleAccount
  deriving DecidableEq

def AccountKind.locked : AccountKind → Nat
  | .vestingAccount locked => locked
  | _ => 0

structure AuthAccount where
  kind : AccountKind
  number : Nat
  sequence : UInt64
  deriving DecidableEq

-- What the auth, bank and vm modules hold of the addresses of 20 bytes, and the
-- rest of the stores. The balances and the supply are those of the EVM denomination,
-- and the addresses of another length hold `elsewhere` of it together.
structure World (R : Type) where
  accounts : Address → Option AuthAccount
  nextNumber : Nat
  balances : Address → Nat
  bounded : ∀ address, balances address < 2 ^ 256
  elsewhere : Nat
  supply : Nat
  codeHashes : Std.ExtTreeMap Address Hash
  codes : Hash → Option Bytes
  storage : Address → Std.ExtTreeMap Hash Bytes
  rest : R

theorem zero_bounded (_ : Address) : 0 < 2 ^ 256 := by
  decide

-- The hash, the addresses that may not receive coins and the text of an address.
structure Config where
  keccak256 : Bytes → Hash
  blockedAddr : AccAddress → Bool
  bech32 : AccAddress → String

def sampleHash (code : Bytes) : Hash :=
  ⟨Bytes.sampleDigest code, Bytes.length_fixed 32 _⟩

def sampleConfig : Config where
  keccak256 := sampleHash
  blockedAddr _ := false
  bech32 _ := ""

def Config.emptyCodeHash (config : Config) : Hash :=
  config.keccak256 []

namespace World

variable {R : Type} (config : Config) (w : World R) (address : Address)

section Reading

def lockedCoin : Nat :=
  (w.accounts address).elim 0 fun account => account.kind.locked

-- No coin is spendable when more is locked than there is.
def spendableCoin : Nat :=
  w.balances address - w.lockedCoin address

def isModule : Bool :=
  (w.accounts address).any fun account => account.kind = .moduleAccount

def getCodeHash : Hash :=
  (w.codeHashes[address]?).getD config.emptyCodeHash

def getCode (codeHash : Hash) : Option Bytes :=
  w.codes codeHash

def getState (key : Hash) : Hash :=
  match (w.storage address)[key]? with
  | none => Ethereum.zeroHash
  | some value => if value.length = 0 then Ethereum.zeroHash else Ethereum.bytesToHash value

def getAccount : Option Account :=
  (w.accounts address).map fun account =>
    ⟨account.sequence, BitVec.ofNat 256 (w.spendableCoin address), w.getCodeHash config address,
      some (w.lockedCoin address)⟩

-- A delegation of an account to the code of another one is no contract.
def isContract : Bool :=
  let code := (w.getCode (w.getCodeHash config address)).getD []
  decide (0 < code.length) && (Ethereum.parseDelegation code).isNone

end Reading

section Writing

def putAccount (account : AuthAccount) : World R :=
  { w with accounts := Function.update w.accounts address (some account) }

def removeAccount : World R :=
  { w with accounts := Function.update w.accounts address none }

def newAccountWithAddress : AuthAccount × World R :=
  (⟨.baseAccount, w.nextNumber, 0⟩, { w with nextNumber := w.nextNumber + 1 })

def putBalance (amount : Nat) (h : amount < 2 ^ 256) : World R :=
  { w with
    balances := Function.update w.balances address amount
    bounded := by
      intro other
      by_cases heq : other = address
      · subst heq
        simpa using h
      · simpa [heq] using w.bounded other }

def putStorage (slots : Std.ExtTreeMap Hash Bytes) : World R :=
  { w with storage := Function.update w.storage address slots }

def setCodeHash (codeHash : Hash) : World R :=
  { w with codeHashes := w.codeHashes.insert address codeHash }

def deleteCodeHash : World R :=
  { w with codeHashes := w.codeHashes.erase address }

def setCode (codeHash : Hash) (code : Bytes) : World R :=
  { w with codes := Function.update w.codes codeHash (some code) }

def deleteCode (codeHash : Hash) : World R :=
  { w with codes := Function.update w.codes codeHash none }

def setState (key : Hash) (value : Bytes) : World R :=
  w.putStorage address ((w.storage address).insert key value)

def deleteState (key : Hash) : World R :=
  w.putStorage address ((w.storage address).erase key)

end Writing

end World

namespace VmKeeper

variable {R : Type} (config : Config) (address : Address)

-- The bank writes a balance without any check of its own, once it is an integer.
def uncheckedSetBalance (amount : Nat) : Action (World R) Unit := do
  let w ← get
  if h : amount < 2 ^ 256 then set (w.putBalance address amount h)
  else throw (.panic "NewIntFromBigInt() out of bound")

def setBalanceWithLocked (amount : Uint256) (locked : Nat) : Action (World R) Unit := do
  let w ← get
  let isBlockedChange :=
    config.blockedAddr address.bytes && decide (amount.toNat ≠ w.spendableCoin address)
  failIf (w.isModule address || isBlockedChange)
    (config.bech32 address.bytes ++ " is not allowed to receive funds: unauthorized")
  uncheckedSetBalance address (amount.toNat + locked)

def setBalance (amount : Uint256) : Action (World R) Unit := do
  let w ← get
  setBalanceWithLocked config address amount (w.lockedCoin address)

def setAccountBalance (account : Account) : Action (World R) Unit :=
  match account.lockedBalance with
  | none => setBalance config address account.balance
  | some locked => setBalanceWithLocked config address account.balance locked

def putCodeHash (codeHash : Hash) (w : World R) : World R :=
  if codeHash = config.emptyCodeHash then w.deleteCodeHash address else w.setCodeHash address codeHash

def authAccount (w : World R) : AuthAccount × World R :=
  match w.accounts address with
  | some acct => (acct, w)
  | none => w.newAccountWithAddress

-- The sequence and the code hash of an account, which are written before its balance.
def writeAccount (account : Account) (w : World R) : World R :=
  let (acct, w) := authAccount address w
  (putCodeHash config address account.codeHash w).putAccount address { acct with sequence := account.nonce }

def setAccount (account : Account) : Action (World R) Unit := do
  modify (writeAccount config address account)
  setAccountBalance config address account

def deleteAccount : Action (World R) Unit := do
  let w ← get
  match w.accounts address with
  | none => pure ()
  | some acct =>
    failIf (!w.isContract config address) "only smart contracts can be self-destructed"
    modify fun w => w.putAccount address { acct with kind := .baseAccount }
    setBalanceWithLocked config address 0 0
    modify fun w => (w.storage address).keys.foldl (fun w key => w.deleteState address key) w
    modify fun w => (w.deleteCodeHash address).removeAccount address

def onWorld {α : Type} (action : Action (World R) α) : Action (Ctx (World R)) α :=
  onPart Ctx.world (fun w ctx => { ctx with world := w }) action

def keeper : Keeper (World R) where
  getAccount := World.getAccount config
  getState := World.getState
  getCode := World.getCode
  setAccount address account := onWorld (setAccount config address account)
  deleteState address key := onWorld (modify fun w => w.deleteState address key)
  setState address key value := onWorld (modify fun w => w.setState address key value)
  deleteCode codeHash := onWorld (modify fun w => w.deleteCode codeHash)
  setCode codeHash code := onWorld (modify fun w => w.setCode codeHash code)
  deleteAccount address := onWorld (deleteAccount config address)

def env : Env (World R) where
  keeper := keeper config
  keccak256 := config.keccak256
  blockedAddr := config.blockedAddr

end VmKeeper

end PosChain.Evm
