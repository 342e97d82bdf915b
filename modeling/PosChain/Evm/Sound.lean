import PosChain.Evm.StateDB.Commit
import PosChain.Evm.StateDB.Revert

namespace PosChain.Evm

open StateDB

variable {R : Type}

-- Stores that hold nothing of an address without an account, and the code of every
-- code hash.
structure World.Consistent (config : Config) (known : Set Bytes) (w : World R) : Prop where
  clean : ∀ address, w.accounts address = none → w.balances address = 0 ∧
    w.codeHashes[address]? = none ∧ ∀ key, w.getState address key = Ethereum.zeroHash
  hashes : ∀ (address : Address) (codeHash : Hash), w.codeHashes[address]? = some codeHash →
    codeHash ≠ config.emptyCodeHash ∧ w.codes codeHash ≠ none
  fit : CodesFit config known w.codes

def World.nonce (w : World R) (address : Address) : UInt64 :=
  (w.record address).nonce

-- The accounts whose balances the EVM may not write.
def Exempt (config : Config) (origin : World R) (address : Address) : Prop :=
  config.blockedAddr address.bytes = true ∨ origin.isModule address = true

-- What an event of the bank moves at an address, and a list of events together.
def Event.moves (holder : AccAddress) : Event → Int
  | .coinSpent spender amount => if spender = holder then -amount else 0
  | .coinReceived receiver amount => if receiver = holder then amount else 0
  | .other _ => 0

def moved (events : List Event) (address : Address) : Int :=
  (events.map (Event.moves address.bytes)).sum

namespace StateDB

-- The accounts that the journal has changed, the slots that they have written, and
-- the code that a commit will store.
def Dirty (s : StateDB (World R)) (address : Address) : Prop :=
  ∃ entry ∈ s.journal.entries, entry.dirtied = some address

def Written (s : StateDB (World R)) (address : Address) (key : Hash) : Prop :=
  ∃ object, s.stateObjects address = some object ∧ key ∈ object.dirtyStorage

def CodePending (s : StateDB (World R)) (address : Address) : Prop :=
  ∃ object, s.stateObjects address = some object ∧ object.newCode ≠ none

def stores (s : StateDB (World R)) : World R :=
  s.cacheOrNew.stores.current

end StateDB

-- How the stores of the precompiles stand to those the transaction started from.
-- The events that are pending have moved coins in the stores only.
structure Tracks (config : Config) (s : StateDB (World R)) (pending : List Event) : Prop where
  accounts : ∀ address, ¬ Exempt config s.world address → ¬ s.Dirty address →
    s.stores.nonce address = s.world.nonce address ∧
    s.stores.getCodeHash config address = s.world.getCodeHash config address ∧
    (s.stores.spendableCoin address : Int) = s.world.spendableCoin address + moved pending address
  slots : ∀ address key, ¬ s.Written address key →
    s.stores.getState address key = s.world.getState address key
  clean : ∀ address key, ¬ s.Dirty address → s.stores.getState address key = s.world.getState address key
  locked : ∀ address, ¬ Exempt config s.world address →
    s.stores.lockedCoin address = s.world.lockedCoin address
  modules : ∀ address, s.stores.isModule address = true → Exempt config s.world address
  codes : CodesKept config s.world.codes s.stores.codes

-- How an account as the getters report it stands to the stores.
structure ViewSound (config : Config) (known : Set Bytes) (s : StateDB (World R)) (address : Address)
    (view : ObjectView) : Prop where
  slots : ∀ key, ¬ s.Written address key → view.storage key = s.world.getState address key
  code : ∀ code, view.code = some code → code ∈ known ∧ config.keccak256 code = view.account.codeHash
  coded : view.account.codeHash ≠ config.emptyCodeHash →
    view.code ≠ none ∧ (s.stores.codes view.account.codeHash ≠ none ∨ s.CodePending address)
  locked : view.account.lockedBalance.getD (s.world.lockedCoin address) = s.world.lockedCoin address
  fresh : view.newContract = true → s.world.lockedCoin address = 0 ∧
    ∀ key, s.world.getState address key = Ethereum.zeroHash
  destructed : view.selfDestructed = true → view.newContract = true ∧ s.Dirty address
  untouched : ¬ s.Dirty address →
    view.account.nonce = s.world.nonce address ∧
    view.account.balance.toNat = s.world.spendableCoin address ∧
    view.account.codeHash = s.world.getCodeHash config address ∧
    ∀ key, view.storage key = s.world.getState address key

structure Sound (config : Config) (known : Set Bytes) (s : StateDB (World R)) (pending : List Event) :
    Prop where
  origin : s.world.Consistent config known
  stores : s.stores.Consistent config known
  tracks : Tracks config s pending
  views : ∀ address view, (s.core (VmKeeper.env config)).objects address = some view →
    ViewSound config known s address view
  dirty : ∀ address, s.Dirty address →
    (∃ object, s.stateObjects address = some object) ∧ ¬ Exempt config s.world address

-- The same account, which may have lost its mark of self-destruction.
structure ObjectView.Keeps (view next : ObjectView) : Prop where
  account : next.account = view.account
  code : next.code = view.code
  storage : next.storage = view.storage
  newContract : next.newContract = view.newContract
  selfDestructed : next.selfDestructed = true → view.selfDestructed = true

theorem ObjectView.Keeps.refl (view : ObjectView) : view.Keeps view :=
  ⟨rfl, rfl, rfl, rfl, id⟩

section Same

variable {config : Config} {known : Set Bytes} {s t : StateDB (World R)} {address : Address}
  {view next : ObjectView} {pending : List Event}

theorem written_of_grows (hgrows : s.Grows t) {key : Hash} (h : s.Written address key) :
    t.Written address key := by
  obtain ⟨object, hlive, hkey⟩ := h
  obtain ⟨later, hlater, hwithin⟩ := hgrows address object hlive
  exact ⟨later, hlater, hwithin.dirtyStorage key hkey⟩

theorem view_of_live {object : StateObject} {env : Env (World R)} (hlive : s.stateObjects address = some object)
    (hview : (s.core env).objects address = some view) : view = object.view env s.world address := by
  have hobject : (s.core env).objects address = some (object.view env s.world address) := by
    simp [core, s.object_of_live env address hlive]
  exact Option.some.inj (hview.symm.trans hobject)

-- The code of a view is in the stores the transaction started from, or it is held by
-- the object.
theorem codePending_of_grows (hgrows : s.Grows t) (hpending : s.CodePending address)
    (hview : (t.core (VmKeeper.env config)).objects address = some view)
    (hcode : ∀ code, view.code = some code → config.keccak256 code = view.account.codeHash)
    (hne : view.account.codeHash ≠ config.emptyCodeHash) (hsome : view.code ≠ none) :
    t.world.codes view.account.codeHash ≠ none ∨ t.CodePending address := by
  obtain ⟨object, hlive, hnew⟩ := hpending
  obtain ⟨later, hlater, hwithin⟩ := hgrows address object hlive
  obtain rfl := view_of_live hlater hview
  have hdirty : object.dirtyCode = true := by
    cases hmark : object.dirtyCode with
    | true => rfl
    | false => simp [StateObject.newCode, hmark] at hnew
  cases hfound : later.code with
  | none =>
    left
    have hlookup : later.codeOf (VmKeeper.env config) t.world =
        lookupCode (VmKeeper.env config) t.world later.account.codeHash := by
      rw [StateObject.codeOf_eq, hfound]
      rfl
    intro hnone
    apply hsome
    have hempty : ¬ later.account.codeHash = (VmKeeper.env (R := R) config).emptyCodeHash := hne
    simp only [StateObject.view, hlookup, lookupCode, if_neg hempty]
    exact hnone
  | some code =>
    right
    have hkeccak : config.keccak256 code = later.account.codeHash := by
      apply hcode
      simp [StateObject.view, StateObject.codeOf_eq, hfound]
    have hcontent : code ≠ [] := by
      rintro rfl
      exact hne hkeccak.symm
    refine ⟨later, hlater, ?_⟩
    simp [StateObject.newCode, hfound, hwithin.dirtyCode hdirty, hcontent]

theorem ViewSound.congr (h : ViewSound config known s address view)
    (hkept : CodesKept config s.world.codes s.stores.codes) (hctx : t.ctx = s.ctx)
    (hstores : t.stores = s.stores) (hdirty : s.Dirty address → t.Dirty address) (hgrows : s.Grows t)
    (hnext : (t.core (VmKeeper.env config)).objects address = some next) (hkeeps : view.Keeps next) :
    ViewSound config known t address next := by
  have hworld : t.world = s.world := congrArg Ctx.world hctx
  have hcode : ∀ code, next.code = some code →
      code ∈ known ∧ config.keccak256 code = next.account.codeHash := by
    rw [hkeeps.code, hkeeps.account]
    exact h.code
  refine ⟨?_, hcode, ?_, ?_, ?_, ?_, ?_⟩
  · intro key hkey
    rw [hkeeps.storage, hworld]
    exact h.slots key fun hwritten => hkey (written_of_grows hgrows hwritten)
  · intro hne
    have hne' := hne
    rw [hkeeps.account] at hne'
    obtain ⟨hsome, hfound⟩ := h.coded hne'
    rw [← hkeeps.code] at hsome
    refine ⟨hsome, ?_⟩
    rw [hstores]
    rcases hfound with hstored | hpending
    · left
      rw [hkeeps.account]
      exact hstored
    · rcases codePending_of_grows hgrows hpending hnext (fun code hc => (hcode code hc).2) hne hsome with
        horigin | hlater
      · left
        rw [hworld] at horigin
        obtain ⟨code, horigin⟩ := Option.ne_none_iff_exists'.mp horigin
        rw [hkept _ _ hne horigin]
        exact Option.some_ne_none code
      · exact .inr hlater
  · rw [hkeeps.account, hworld]
    exact h.locked
  · rw [hkeeps.newContract, hworld]
    exact h.fresh
  · intro hmark
    obtain ⟨hnew, hold⟩ := h.destructed (hkeeps.selfDestructed hmark)
    exact ⟨hkeeps.newContract.trans hnew, hdirty hold⟩
  · rw [hkeeps.account, hkeeps.storage, hworld]
    exact fun hclean => h.untouched fun hold => hclean (hdirty hold)

theorem Tracks.mono (h : Tracks config s pending) (hctx : t.ctx = s.ctx) (hstores : t.stores = s.stores)
    (hdirty : ∀ address, s.Dirty address → t.Dirty address) (hgrows : s.Grows t) :
    Tracks config t pending := by
  have hworld : t.world = s.world := congrArg Ctx.world hctx
  obtain ⟨haccounts, hslots, hsame, hlocked, hmodules, hcodes⟩ := h
  refine ⟨?_, ?_, ?_, ?_, ?_, ?_⟩ <;> rw [hworld, hstores]
  · exact fun other hexempt hclean => haccounts other hexempt fun hold => hclean (hdirty other hold)
  · exact fun other key hkey => hslots other key fun hold => hkey (written_of_grows hgrows hold)
  · exact fun other key hclean => hsame other key fun hold => hclean (hdirty other hold)
  · exact hlocked
  · exact hmodules
  · exact hcodes

theorem Sound.of_same (h : Sound config known s pending) (hctx : t.ctx = s.ctx)
    (hstores : t.stores = s.stores) (hdirty : ∀ address, t.Dirty address ↔ s.Dirty address) (hgrows : s.Grows t)
    (hviews : ∀ address next, (t.core (VmKeeper.env config)).objects address = some next →
      ∃ view, (s.core (VmKeeper.env config)).objects address = some view ∧ view.Keeps next) :
    Sound config known t pending := by
  have hworld : t.world = s.world := congrArg Ctx.world hctx
  refine ⟨by rw [hworld]; exact h.origin, by rw [hstores]; exact h.stores,
    h.tracks.mono hctx hstores (fun other => (hdirty other).mpr) hgrows, ?_, ?_⟩
  · intro other next hnext
    obtain ⟨view, hview, hkeeps⟩ := hviews other next hnext
    exact (h.views other view hview).congr h.tracks.codes hctx hstores (hdirty other).mpr hgrows hnext hkeeps
  · intro other hother
    obtain ⟨⟨object, hlive⟩, hexempt⟩ := h.dirty other ((hdirty other).mp hother)
    obtain ⟨later, hlater, -⟩ := hgrows other object hlive
    exact ⟨⟨later, hlater⟩, by rw [hworld]; exact hexempt⟩

end Same

section Changes

variable {config : Config} {known : Set Bytes} {s : StateDB (World R)} {address : Address}
  {object next : StateObject} {entry : JournalEntry} {pending : List Event}

theorem dirty_change (other : Address) :
    (s.change address entry next).Dirty other ↔ entry.dirtied = some other ∨ s.Dirty other := by
  simp [Dirty, change, append, setStateObject]

theorem written_change (key : Hash) :
    (s.change address entry next).Written address key ↔ key ∈ next.dirtyStorage := by
  simp [Written, change, setStateObject]

theorem codePending_change :
    (s.change address entry next).CodePending address ↔ next.newCode ≠ none := by
  simp [CodePending, change, setStateObject]

theorem Sound.change (h : Sound config known s pending)
    (hwithin : ∀ live, s.stateObjects address = some live → live.Within next)
    (hentry : ∀ other, entry.dirtied = some other → other = address ∧ ¬ Exempt config s.world address)
    (hview : ViewSound config known (s.change address entry next) address
      (next.view (VmKeeper.env config) s.world address)) :
    Sound config known (s.change address entry next) pending := by
  have hgrows : s.Grows (s.change address entry next) := grows_setStateObject (s := s.append entry) hwithin
  have hdirty : ∀ other, s.Dirty other → (s.change address entry next).Dirty other :=
    fun other hother => (dirty_change other).mpr (.inr hother)
  refine ⟨h.origin, h.stores, h.tracks.mono rfl rfl hdirty hgrows, ?_, ?_⟩
  · intro other view hother
    by_cases heq : other = address
    · subst heq
      have hself : view = next.view (VmKeeper.env config) s.world other := by
        rw [core_change] at hother
        simpa using hother.symm
      rw [hself]
      exact hview
    · have hsame : (s.core (VmKeeper.env config)).objects other = some view := by
        rw [core_change] at hother
        simpa [heq] using hother
      exact (h.views other view hsame).congr h.tracks.codes rfl rfl (hdirty other) hgrows hother (.refl view)
  · intro other hother
    rcases (dirty_change other).mp hother with hnew | hold
    · obtain ⟨rfl, hexempt⟩ := hentry other hnew
      exact ⟨⟨next, by simp [StateDB.change, setStateObject]⟩, hexempt⟩
    · obtain ⟨⟨live, hlive⟩, hexempt⟩ := h.dirty other hold
      obtain ⟨later, hlater, -⟩ := hgrows other live hlive
      exact ⟨⟨later, hlater⟩, hexempt⟩

end Changes

end PosChain.Evm
