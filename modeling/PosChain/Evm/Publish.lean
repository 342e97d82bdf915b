import PosChain.Evm.Sound.Execution

namespace PosChain.Evm

open StateDB

variable {R : Type} {config : Config} {known : Set Bytes} {s t : StateDB (World R)} {address : Address}
  {object : StateObject}

-- What can be read of an account through the keeper, and through the StateDB.
@[ext] structure Reads where
  nonce : UInt64
  balance : Nat
  code : Bytes
  storage : Hash → Hash

def World.reads (config : Config) (w : World R) (address : Address) : Reads where
  nonce := w.nonce address
  balance := w.spendableCoin address
  code := (w.getCode (w.getCodeHash config address)).getD []
  storage := w.getState address

def StateDB.reads (config : Config) (s : StateDB (World R)) (address : Address) : Reads where
  nonce := s.getNonce (VmKeeper.env config) address
  balance := (s.getBalance (VmKeeper.env config) address).toNat
  code := (s.getCode (VmKeeper.env config) address).getD []
  storage := s.getState (VmKeeper.env config) address

structure World.Erased (w : World R) (address : Address) : Prop where
  account : w.accounts address = none
  balance : w.balances address = 0
  codeHash : w.codeHashes[address]? = none
  storage : ∀ key, w.getState address key = Ethereum.zeroHash

def Published (config : Config) (s : StateDB (World R)) (w : World R) (address : Address) : Prop :=
  (s.hasSelfDestructed (VmKeeper.env config) address = true → w.Erased address) ∧
    (s.hasSelfDestructed (VmKeeper.env config) address = false →
      w.reads config address = s.reads config address)

-- What is left to ask of a state before its commit: that the balances are within the
-- range of the bank together with what is locked, and that the contracts that have
-- self-destructed can be deleted.
structure CommitReady (config : Config) (s : StateDB (World R)) : Prop where
  bound : ∀ address, s.Dirty address →
    (s.getBalance (VmKeeper.env config) address).toNat + s.stores.lockedCoin address < 2 ^ 256
  deletable : ∀ address object, s.Dirty address → s.stateObjects address = some object →
    object.selfDestructed = true → Deletable config s.stores address object

section Start

variable {ctx : Ctx (World R)} {view : ObjectView}

theorem loadedView_eq {w : World R} (h : loadedView (VmKeeper.env config) w address = some view) :
    view.account.nonce = w.nonce address ∧
      view.account.balance = BitVec.ofNat 256 (w.spendableCoin address) ∧
      view.account.codeHash = w.getCodeHash config address ∧
      view.account.lockedBalance = some (w.lockedCoin address) ∧
      view.code = lookupCode (VmKeeper.env config) w (w.getCodeHash config address) ∧
      view.storage = w.getState address ∧ view.selfDestructed = false ∧ view.newContract = false := by
  have hloaded : (w.getAccount config address).map (fun account =>
      (newObject account).view (VmKeeper.env config) w address) = some view := h
  obtain ⟨account, hfound, rfl⟩ := Option.map_eq_some_iff.mp hloaded
  obtain ⟨acct, hacct, rfl⟩ := Option.map_eq_some_iff.mp hfound
  have hnonce : acct.sequence = w.nonce address := by
    simp [World.nonce, Record.nonce, World.record, hacct]
  have hcode : (newObject ⟨acct.sequence, BitVec.ofNat 256 (w.spendableCoin address),
      w.getCodeHash config address, some (w.lockedCoin address)⟩).codeOf (VmKeeper.env config) w =
        lookupCode (VmKeeper.env config) w (w.getCodeHash config address) := by
    rw [StateObject.codeOf_eq]
    rfl
  exact ⟨hnonce, rfl, rfl, rfl, hcode, rfl, rfl, rfl⟩

theorem absent_of_core (h : (s.core (VmKeeper.env config)).objects address = none) :
    s.world.accounts address = none := by
  have hobject : s.object (VmKeeper.env config) address = none := by
    simpa [core] using h
  rw [object_eq, Option.or_eq_none_iff, Option.map_eq_none_iff] at hobject
  exact Option.map_eq_none_iff.mp hobject.2

theorem Consistent.codes_ne_none {w : World R} (h : w.Consistent config known)
    (hne : w.getCodeHash config address ≠ config.emptyCodeHash) :
    w.codes (w.getCodeHash config address) ≠ none := by
  unfold World.getCodeHash at hne ⊢
  cases hhash : w.codeHashes[address]? with
  | none =>
    rw [hhash] at hne
    exact absurd rfl hne
  | some codeHash => exact (h.hashes address codeHash hhash).2

theorem spendableCoin_lt (w : World R) (address : Address) : w.spendableCoin address < 2 ^ 256 :=
  (Nat.sub_le _ _).trans_lt (w.bounded address)

theorem sound_new (txIndex : Nat) (h : ctx.world.Consistent config known) :
    Sound config known (StateDB.new ctx txIndex) [] where
  origin := h
  stores := h
  tracks :=
    { accounts := fun _ _ _ => ⟨rfl, rfl, (Int.add_zero _).symm⟩
      slots := fun _ _ _ => rfl
      clean := fun _ _ _ => rfl
      locked := fun _ _ => rfl
      modules := fun _ hmodule => .inr hmodule
      codes := fun _ _ _ hfound => hfound }
  views := by
    intro address view hview
    have hloaded : loadedView (VmKeeper.env config) ctx.world address = some view := by
      simpa [core, object_eq, StateDB.new, loadedView, StateDB.world, Function.comp_def] using hview
    obtain ⟨hnonce, hbalance, hhash, hlocked, hcode, hstorage, hmark, hnew⟩ := loadedView_eq hloaded
    refine ⟨?_, ?_, ?_, ?_, ?_, ?_, ?_⟩
    · exact fun key _ => congrFun hstorage key
    · intro code hfound
      rw [hcode, lookupCode] at hfound
      split at hfound
      · cases hfound
      · rw [hhash]
        exact h.fit _ _ hfound
    · rw [hhash, hcode]
      intro hne
      have hstored := Consistent.codes_ne_none h hne
      refine ⟨?_, .inl hstored⟩
      rw [lookupCode]
      split
      · rename_i heq
        exact absurd heq hne
      · exact hstored
    · rw [hlocked]
      rfl
    · rw [hnew]
      exact fun hfalse => by cases hfalse
    · rw [hmark]
      exact fun hfalse => by cases hfalse
    · refine fun _ => ⟨hnonce, ?_, hhash, fun key => congrFun hstorage key⟩
      rw [hbalance, BitVec.toNat_ofNat, Nat.mod_eq_of_lt (spendableCoin_lt ctx.world address)]
      rfl
  dirty := by
    rintro address ⟨entry, hmem, -⟩
    cases hmem

end Start

theorem code_agrees (hinj : Set.InjOn config.keccak256 known) (hempty : [] ∈ known)
    {codes : Hash → Option Bytes} (hfit : CodesFit config known codes) {codeHash : Hash} {code : Option Bytes}
    (hcode : ∀ found, code = some found → found ∈ known ∧ config.keccak256 found = codeHash)
    (hsome : codeHash ≠ config.emptyCodeHash → code ≠ none ∧ codes codeHash ≠ none) :
    (codes codeHash).getD [] = code.getD [] := by
  by_cases hhash : codeHash = config.emptyCodeHash
  · have hnil : ∀ found ∈ known, config.keccak256 found = codeHash → found = [] :=
      fun found hknown hkeccak => hinj hknown hempty (hkeccak.trans hhash)
    have hstored : (codes codeHash).getD [] = [] := by
      cases hfound : codes codeHash with
      | none => rfl
      | some found => exact hnil found (hfit _ _ hfound).1 (hfit _ _ hfound).2
    have hview : code.getD [] = [] := by
      cases hfound : code with
      | none => rfl
      | some found => exact hnil found (hcode _ hfound).1 (hcode _ hfound).2
    rw [hstored, hview]
  · obtain ⟨hviewed, hstored⟩ := hsome hhash
    obtain ⟨first, hfirst⟩ := Option.ne_none_iff_exists'.mp hstored
    obtain ⟨second, hsecond⟩ := Option.ne_none_iff_exists'.mp hviewed
    obtain ⟨hknown, hkeccak⟩ := hfit _ _ hfirst
    obtain ⟨hknown', hkeccak'⟩ := hcode _ hsecond
    rw [hfirst, hsecond, hinj hknown hknown' (hkeccak.trans hkeccak'.symm)]

section Published

variable {next : Ctx (World R)} (h : Sound config known s [])
  (hall : CommittedAll config known s s.journal.sortedDirties s.cacheCtx next)

-- An account whose mark is set has nothing in the stores afterwards.
include h hall in
theorem erased_of_destructed (hmark : s.hasSelfDestructed (VmKeeper.env config) address = true) :
    next.world.Erased address := by
  cases hview : (s.core (VmKeeper.env config)).objects address with
  | none =>
    rw [hasSelfDestructed_eq, hview] at hmark
    cases hmark
  | some view =>
    rw [hasSelfDestructed_eq, hview] at hmark
    obtain ⟨-, hdirty⟩ := (h.views address view hview).destructed hmark
    have hempty : next.world.record address = .empty ∨ (next.world.record address).auth = none := by
      rcases hall.cases address with ⟨hclean, -⟩ | ⟨object, number, -, hlive, hlives, -⟩ |
        ⟨object, -, -, -, hrecord | ⟨hrecord, hauth⟩⟩
      · exact absurd hdirty hclean
      · obtain rfl := view_of_live hlive hview
        have hmark' : object.selfDestructed = true := hmark
        rw [hlives] at hmark'
        cases hmark'
      · exact .inl hrecord
      · exact .inr (by rw [hrecord, hauth])
    have habsent : next.world.accounts address = none := by
      rcases hempty with hrecord | hauth
      · exact congrArg Record.auth hrecord
      · exact hauth
    obtain ⟨hbalance, hhash, hslots⟩ := flushed_clean h hall address habsent
    exact ⟨habsent, hbalance, hhash, hslots⟩

-- The getters report an account outside the journal as the transaction found it.
include h in
theorem reads_untouched (hclean : ¬ s.Dirty address) :
    s.getNonce (VmKeeper.env config) address = s.world.nonce address ∧
      (s.getBalance (VmKeeper.env config) address).toNat = s.world.spendableCoin address ∧
      ∀ key, s.getState (VmKeeper.env config) address key = s.world.getState address key := by
  cases hview : (s.core (VmKeeper.env config)).objects address with
  | none =>
    have habsent := absent_of_core hview
    obtain ⟨hbalance, -, hslots⟩ := h.origin.clean address habsent
    refine ⟨?_, ?_, fun key => ?_⟩
    · rw [getNonce_eq, hview]
      simp [World.nonce, Record.nonce, World.record, habsent]
    · rw [getBalance_eq, hview]
      simp [World.spendableCoin, hbalance]
    · rw [StateDB.getState_eq, hview, hslots]
      rfl
  | some view =>
    obtain ⟨hnonce, hbalance, -, hslots⟩ := (h.views address view hview).untouched hclean
    rw [getNonce_eq, getBalance_eq, hview]
    refine ⟨hnonce, hbalance, fun key => ?_⟩
    rw [StateDB.getState_eq, hview]
    exact hslots key

include h hall in
theorem code_untouched (hinj : Set.InjOn config.keccak256 known) (hempty : [] ∈ known)
    (hclean : ¬ s.Dirty address)
    (hsame : next.world.getCodeHash config address = s.world.getCodeHash config address) :
    (next.world.getCode (next.world.getCodeHash config address)).getD [] =
      (s.getCode (VmKeeper.env config) address).getD [] := by
  have hstored : s.world.getCodeHash config address ≠ config.emptyCodeHash →
      next.world.codes (s.world.getCodeHash config address) ≠ none := by
    intro hne
    obtain ⟨code, hcode⟩ := Option.ne_none_iff_exists'.mp (Consistent.codes_ne_none h.origin hne)
    rw [hall.kept _ _ hne (h.tracks.codes _ _ hne hcode)]
    exact Option.some_ne_none code
  rw [hsame]
  refine code_agrees hinj hempty hall.fit ?_ ?_
  · intro code hfound
    rw [getCode_eq, Option.bind_eq_some_iff] at hfound
    obtain ⟨view, hview, hcode⟩ := hfound
    have hsound := h.views address view hview
    rw [← (hsound.untouched hclean).2.2.1]
    exact hsound.code code hcode
  · intro hne
    refine ⟨?_, hstored hne⟩
    rw [getCode_eq]
    cases hview : (s.core (VmKeeper.env config)).objects address with
    | none =>
      refine absurd ?_ hne
      rw [World.getCodeHash, (h.origin.clean address (absent_of_core hview)).2.1]
      rfl
    | some view =>
      have hsound := h.views address view hview
      refine (hsound.coded ?_).1
      rw [(hsound.untouched hclean).2.2.1]
      exact hne

-- An account outside the journal is read as the getters report it, when the stores
-- of the precompiles have it as the transaction found it.
include h hall in
theorem published_untouched (hinj : Set.InjOn config.keccak256 known) (hempty : [] ∈ known)
    (hclean : ¬ s.Dirty address) (hnonce : s.stores.nonce address = s.world.nonce address)
    (hhash : s.stores.getCodeHash config address = s.world.getCodeHash config address)
    (hbalance : s.stores.spendableCoin address = s.world.spendableCoin address) :
    next.world.reads config address = s.reads config address := by
  have hrecord : next.world.record address = s.stores.record address :=
    hall.others address fun hmem => hclean ((dirty_iff address).mp hmem)
  obtain ⟨hviewNonce, hviewBalance, hviewSlots⟩ := reads_untouched h hclean
  have hsame : next.world.getCodeHash config address = s.world.getCodeHash config address := by
    rw [World.getCodeHash_eq, hrecord]
    exact hhash
  refine Reads.ext ?_ ?_ (code_untouched h hall hinj hempty hclean hsame) (funext fun key => ?_)
  · change (next.world.record address).nonce = _
    rw [hrecord]
    exact hnonce.trans hviewNonce.symm
  · change (next.world.record address).spendable = _
    rw [hrecord]
    exact hbalance.trans hviewBalance.symm
  · change (next.world.record address).slot key = _
    rw [hrecord]
    exact (h.tracks.clean address key hclean).trans (hviewSlots key).symm

-- An account of the journal that lives on is written as the getters report it.
include h hall in
theorem published_dirty (hinj : Set.InjOn config.keccak256 known) (hempty : [] ∈ known)
    (hdirty : s.Dirty address) (hmark : s.hasSelfDestructed (VmKeeper.env config) address = false) :
    next.world.reads config address = s.reads config address := by
  obtain ⟨⟨object, hlive⟩, hexempt⟩ := h.dirty address hdirty
  have hview : (s.core (VmKeeper.env config)).objects address =
      some (object.view (VmKeeper.env config) s.world address) := by
    simp [core, s.object_of_live _ address hlive]
  have hsound := h.viewOf hlive
  have hlives : object.selfDestructed = false := by
    rw [hasSelfDestructed_eq, hview] at hmark
    exact hmark
  obtain ⟨number, hrecord⟩ : ∃ number, next.world.record address =
      { Record.stored config number object.account (s.stores.record address) with
        storage := StateObject.writeSlots (s.stores.record address).storage object.dirtyStorage } := by
    rcases hall.cases address with ⟨hclean, -⟩ | ⟨found, number, -, hfound, -, hrecord⟩ |
      ⟨found, -, hfound, hdestructed, -⟩
    · exact absurd hdirty hclean
    · rw [hlive] at hfound
      cases hfound
      exact ⟨number, hrecord⟩
    · rw [hlive] at hfound
      cases hfound
      rw [hlives] at hdestructed
      cases hdestructed
  have hhash : next.world.getCodeHash config address = object.account.codeHash := by
    rw [World.getCodeHash_eq, hrecord]
    by_cases hcode : object.account.codeHash = config.emptyCodeHash
    · simp [Record.hash, Record.stored, hcode]
    · simp [Record.hash, Record.stored, hcode]
  have hlocked : object.account.lockedBalance.getD (s.stores.record address).locked =
      (s.stores.record address).locked := by
    have hstores : (s.stores.record address).locked = s.world.lockedCoin address :=
      h.tracks.locked address hexempt
    rw [hstores]
    exact hsound.locked
  refine Reads.ext ?_ ?_ ?_ (funext fun key => ?_)
  · change (next.world.record address).nonce = s.getNonce (VmKeeper.env config) address
    rw [hrecord, getNonce_eq, hview]
    rfl
  · change (next.world.record address).balance - (next.world.record address).locked =
      (s.getBalance (VmKeeper.env config) address).toNat
    have hkind : (next.world.record address).locked = (s.stores.record address).locked := by
      rw [hrecord]
      exact VmKeeper.stored_locked config number object.account (s.stores.record address)
    have hwritten : (next.world.record address).balance =
        object.account.balance.toNat + (s.stores.record address).locked := by
      rw [hrecord, ← hlocked]
      rfl
    rw [hkind, hwritten, Nat.add_sub_cancel, getBalance_eq, hview]
    rfl
  · change (next.world.codes (next.world.getCodeHash config address)).getD [] =
      (s.getCode (VmKeeper.env config) address).getD []
    rw [hhash, getCode_eq, hview]
    refine code_agrees hinj hempty hall.fit hsound.code fun hne => ?_
    exact ⟨(hsound.coded hne).1, flushed_code h hall hlive hdirty hne⟩
  · change (next.world.record address).slot key = s.getState (VmKeeper.env config) address key
    have hslots := slot_writeSlots (Record.stored config number object.account (s.stores.record address))
      object.dirtyStorage key
    rw [hrecord, StateDB.getState_eq, hview]
    refine hslots.trans ?_
    cases hwritten : object.dirtyStorage[key]? with
    | some value =>
      simp [StateObject.view, StateObject.getState, hwritten]
    | none =>
      have hfree : ¬ s.Written address key := by
        refine not_written hlive fun hmem => ?_
        rw [Std.ExtTreeMap.mem_iff_isSome_getElem?, hwritten] at hmem
        cases hmem
      exact (h.tracks.slots address key hfree).trans (hsound.slots key hfree).symm

end Published

section Commit

variable (hinj : Set.InjOn config.keccak256 known) (hempty : [] ∈ known)

theorem writeCache_world (s : StateDB (World R)) : s.writeCache.world = s.stores := by
  unfold writeCache stores cacheOrNew
  cases s.cache <;> rfl

include hinj hempty in
theorem Sound.commitReady (h : Sound config known s []) (hready : CommitReady config s) :
    ∃ next, s.commit (VmKeeper.env config) = .ok () next := by
  refine commitAll_succeeds hinj hempty (fun _ _ hlive => h.fits hlive) (nodup_sortedDirties s.journal)
    (by rw [writeCache_world]; exact h.stores.fit) ?_
  intro address hmem
  have hdirty := (dirty_iff address).mp hmem
  obtain ⟨⟨object, hlive⟩, hexempt⟩ := h.dirty address hdirty
  have hlocked : object.account.lockedBalance.getD (s.stores.lockedCoin address) =
      s.stores.lockedCoin address := by
    rw [h.tracks.locked address hexempt]
    exact (h.viewOf hlive).locked
  have hbalance : s.getBalance (VmKeeper.env config) address = object.account.balance := by
    rw [getBalance_eq]
    simp [core, s.object_of_live _ address hlive, StateObject.view]
  rw [writeCache_world]
  refine ⟨object, hlive, ⟨?_, ?_, ?_, hready.deletable address object hdirty hlive⟩⟩
  · cases hblocked : config.blockedAddr address.bytes with
    | false => rfl
    | true => exact absurd (.inl hblocked) hexempt
  · cases hmodule : s.stores.isModule address with
    | false => rfl
    | true => exact absurd (h.tracks.modules address hmodule) hexempt
  · rw [hlocked, ← hbalance]
    exact hready.bound address hdirty

-- A commit does to the stores what a flush does.
include hinj hempty in
theorem Sound.committed {next : Ctx (World R)} (h : Sound config known s [])
    (hcommit : s.commit (VmKeeper.env config) = .ok () next) :
    CommittedAll config known s s.journal.sortedDirties s.cacheCtx ⟨next.world, s.cacheCtx.events⟩ := by
  have hfit : CodesFit config known s.writeCache.world.codes := by
    rw [writeCache_world]
    exact h.stores.fit
  have hall := committedAll_of_ok hinj hempty (fun _ _ hlive => h.fits hlive)
    (nodup_sortedDirties s.journal) hfit hcommit
  obtain ⟨⟨-, hothers, hrecords, hsupply, helsewhere⟩, hfit', hkept, hstored⟩ := hall
  rw [writeCache_world] at hothers hrecords hkept hsupply helsewhere
  exact ⟨⟨rfl, hothers, hrecords, hsupply, helsewhere⟩, hfit', hkept, hstored⟩

-- What a commit publishes of an account. The account is one that the EVM may write, or
-- the stores have it as the transaction found it.
include hinj hempty in
theorem Sound.published {next : Ctx (World R)} (h : Sound config known s [])
    (hcommit : s.commit (VmKeeper.env config) = .ok () next) (hscope : ¬ Exempt config s.world address ∨
      (¬ s.Dirty address → s.stores.record address = s.world.record address)) :
    Published config s next.world address := by
  have hall := h.committed hinj hempty hcommit
  refine ⟨fun hmark => ?_, fun hmark => ?_⟩
  · have herased := erased_of_destructed h hall hmark
    exact herased
  by_cases hdirty : s.Dirty address
  · have hpublished := published_dirty h hall hinj hempty hdirty hmark
    exact hpublished
  · rcases hscope with hexempt | hkept
    · obtain ⟨hnonce, hhash, hbalance⟩ := h.tracks.accounts address hexempt hdirty
      have hspendable : s.stores.spendableCoin address = s.world.spendableCoin address := by
        simpa [moved] using hbalance
      have hpublished := published_untouched h hall hinj hempty hdirty hnonce hhash hspendable
      exact hpublished
    · have hrecord := hkept hdirty
      have hpublished := published_untouched h hall hinj hempty hdirty
        (by rw [World.nonce, hrecord, World.nonce])
        (by rw [World.getCodeHash_eq, hrecord, World.getCodeHash_eq])
        (by rw [World.spendableCoin_eq, hrecord, World.spendableCoin_eq])
      exact hpublished

end Commit

-- What happens between the start of a transaction and its commit: the EVM runs, the
-- cache context may be opened and the accounts of the journal flushed at any time.
def Advances (env : Env (World R)) (m n : Machine (World R)) : Prop :=
  (∃ script : Script (World R) .evm, (Machine.exec env script).run m = .ok () n) ∨
    n = m.setDb m.db.getCacheContext ∨ (Machine.flushToCacheCtx env).run m = .ok () n

section Sessions

variable {origin : World R} {m n : Machine (World R)}

theorem prepare_ok {rules : Rules} {sender coinbase : Address} {dst : Option Address}
    {precompiles : List Address} {list : List (Address × List Hash)} {db : StateDB (World R)}
    (h : s.prepare rules sender coinbase dst precompiles list = .ok db) :
    ∃ accessList, db =
      { s with accessList := accessList, transientStorage := fun _ _ => Ethereum.zeroHash } := by
  obtain ⟨isEIP2929, isEIP4762, isShanghai⟩ := rules
  cases isEIP2929 with
  | false => exact ⟨_, (Except.ok.inj h).symm⟩
  | true =>
    cases isEIP4762 with
    | true => cases h
    | false =>
      obtain ⟨accessList, -, hdb⟩ := (Check.bind_eq_ok _ _ _).mp h
      exact ⟨accessList, (Except.ok.inj hdb).symm⟩

theorem good_start {ctx : Ctx (World R)} {txIndex : Nat} {rules : Rules} {sender coinbase : Address}
    {dst : Option Address} {precompiles : List Address} {list : List (Address × List Hash)}
    {db : StateDB (World R)} (h : ctx.world.Consistent config known)
    (hprepare : (StateDB.new ctx txIndex).prepare rules sender coinbase dst precompiles list = .ok db) :
    (⟨db, []⟩ : Machine (World R)).Good config known ctx.world [] [] := by
  obtain ⟨accessList, rfl⟩ := prepare_ok hprepare
  refine ⟨rfl, ?_, List.nil_prefix, fun _ _ _ => rfl⟩
  exact (sound_new txIndex h).of_core rfl rfl (fun _ => Iff.rfl) (.of_eq rfl) (objects_eq_of_objects rfl rfl)

theorem good_getCacheContext {base : List Event} (h : m.Good config known origin base []) :
    (m.setDb m.db.getCacheContext).Good config known origin base [] :=
  ⟨h.world, h.sound.of_core rfl rfl (fun _ => Iff.rfl) (.of_eq rfl) (objects_eq_of_objects rfl rfl),
    h.events, h.kept⟩

theorem Advances.good (hinj : Set.InjOn config.keccak256 known) (hempty : [] ∈ known) {base : List Event}
    (h : Advances (VmKeeper.env config) m n) (hregular : AllRegular config known origin n)
    (hm : m.Good config known origin base []) : n.Good config known origin base [] := by
  rcases h with ⟨script, hrun⟩ | rfl | hflush
  · exact good_exec hinj hempty script base hrun hregular hm
  · exact good_getCacheContext hm
  · obtain ⟨db, hdb, rfl⟩ := (run_onPart_eq_ok _ _ _ _ _ _).mp hflush
    have haction : (m.setDb db).InAction config known origin base false :=
      inAction_flush hinj hempty hm hdb
    exact haction.good.settle (haction.quiet rfl)

theorem Advances.history {env : Env (World R)} (h : Advances env m n) :
    ∃ steps, n.history = steps ++ m.history := by
  rcases h with ⟨script, hrun⟩ | rfl | hflush
  · obtain ⟨steps, hhistory, -⟩ : Ran env .evm m n :=
      Ends.of_ok (a := ()) (t := n) (Machine.ran_exec script m) hrun
    exact ⟨steps, hhistory⟩
  · exact ⟨[], rfl⟩
  · obtain ⟨db, -, rfl⟩ := (run_onPart_eq_ok _ _ _ _ _ _).mp hflush
    exact ⟨[], rfl⟩

theorem good_advances (hinj : Set.InjOn config.keccak256 known) (hempty : [] ∈ known) {base : List Event}
    (h : Relation.ReflTransGen (Advances (VmKeeper.env config)) m n)
    (hregular : AllRegular config known origin n) (hm : m.Good config known origin base []) :
    n.Good config known origin base [] := by
  induction h with
  | refl => exact hm
  | tail _ hlast ih =>
    obtain ⟨steps, hhistory⟩ := hlast.history
    refine hlast.good hinj hempty hregular (ih fun step hstep => hregular step ?_)
    rw [hhistory]
    exact List.mem_append_right steps hstep

theorem Published.of_core {w : World R} (h : Published config t w address)
    (hcore : t.core (VmKeeper.env config) = s.core (VmKeeper.env config)) : Published config s w address := by
  have hreads : t.reads config address = s.reads config address := by
    refine Reads.ext ?_ ?_ ?_ (funext fun key => ?_)
    · simp only [StateDB.reads, getNonce_eq, hcore]
    · simp only [StateDB.reads, getBalance_eq, hcore]
    · simp only [StateDB.reads, getCode_eq, hcore]
    · simp only [StateDB.reads, StateDB.getState_eq, hcore]
  rw [Published, hasSelfDestructed_eq, hcore, ← hasSelfDestructed_eq, hreads] at h
  exact h

theorem Interleaves.history {env : Env (World R)} {start : Machine (World R)}
    (h : Interleaves env start m n) : ∃ steps, m.history = steps ++ start.history := by
  induction h with
  | start => exact ⟨[], rfl⟩
  | issue o _ hfirst _ ih =>
    obtain ⟨steps, hhistory⟩ := ih
    rw [Machine.issue, run_get_bind, run_lift_bind] at hfirst
    obtain ⟨db, -, hset⟩ := hfirst
    cases hset
    exact ⟨_ :: steps, congrArg (List.cons _) hhistory⟩
  | getCacheContext _ ih => exact ih
  | flush _ _ ih => exact ih

theorem core_onCache (cache : Option (Cache (World R))) (processed : Nat) (s : StateDB (World R))
    (env : Env (World R)) : (s.onCache cache processed).core env = s.core env :=
  core_eq_of_objects rfl rfl

theorem Op.Regular.onCache {o : Op} (h : o.Regular config known s) (cache : Option (Cache (World R)))
    (processed : Nat) : o.Regular config known (s.onCache cache processed) := by
  obtain ⟨htouches, hguard⟩ := h
  refine ⟨htouches, ?_⟩
  cases o with
  | selfDestruct address =>
    dsimp only at hguard ⊢
    rw [isNewContract_eq, core_onCache, ← isNewContract_eq]
    exact hguard
  | _ => exact hguard

theorem good_interleaves (hinj : Set.InjOn config.keccak256 known) (hempty : [] ∈ known) {base : List Event}
    {start : Machine (World R)} (hstart : start.Good config known origin base [])
    (h : Interleaves (VmKeeper.env config) start m n) (hregular : AllRegular config known origin m) :
    n.Good config known origin base [] ∧ AllRegular config known origin n ∧
      ∀ address, KeptBy m.history address → KeptBy n.history address := by
  induction h with
  | start => exact ⟨hstart, hregular, fun _ hkept => hkept⟩
  | @issue m n m' n' o hearlier hfirst hsecond ih =>
    have hsame := hearlier.same
    rw [Machine.issue, run_get_bind, run_lift_bind] at hfirst hsecond
    obtain ⟨first, happly, hset⟩ := hfirst
    obtain ⟨second, happly', hset'⟩ := hsecond
    cases hset
    cases hset'
    obtain ⟨hgood, hmeets, hkept⟩ := ih fun step hstep => hregular step (List.mem_cons_of_mem _ hstep)
    have hop : o.Regular config known n.db := by
      have hfirst : o.Regular config known m.db := hregular (.op o m.db) List.mem_cons_self
      rw [hsame]
      exact hfirst.onCache _ _
    refine ⟨good_issue hgood hop happly', ?_, ?_⟩
    · intro step hstep
      rcases List.mem_cons.mp hstep with rfl | hold
      · exact hop
      · exact hmeets step hold
    · intro address hkeptBy handled before after hmem
      rcases List.mem_cons.mp hmem with hnew | hold
      · cases hnew
      · refine hkept address (fun earlier first second hmem' => ?_) handled before after hold
        exact hkeptBy earlier first second (List.mem_cons_of_mem _ hmem')
  | getCacheContext _ ih =>
    obtain ⟨hgood, hmeets, hkept⟩ := ih hregular
    exact ⟨good_getCacheContext hgood, hmeets, hkept⟩
  | @flush m n n' _ hflush ih =>
    obtain ⟨hgood, hmeets, hkept⟩ := ih hregular
    obtain ⟨db, hdb, rfl⟩ := (run_onPart_eq_ok _ _ _ _ _ _).mp hflush
    have haction : (n.setDb db).InAction config known origin base false :=
      inAction_flush hinj hempty hgood hdb
    exact ⟨haction.good.settle (haction.quiet rfl), hmeets, hkept⟩

-- The commit of a transaction whose steps are regular, when the state is ready. The
-- operations since the last precompile call may be mixed with any number of flushes.
theorem commit_publishes (config : Config) (known : Set Bytes) (hinj : Set.InjOn config.keccak256 known)
    (hempty : [] ∈ known) (ctx : Ctx (World R)) (horigin : ctx.world.Consistent config known) (txIndex : Nat)
    (rules : Rules) (sender coinbase : Address) (dst : Option Address) (precompiles : List Address)
    (list : List (Address × List Hash)) {start : StateDB (World R)}
    (hprepare : (StateDB.new ctx txIndex).prepare rules sender coinbase dst precompiles list = .ok start)
    {called last flushed : Machine (World R)}
    (hrun : Relation.ReflTransGen (Advances (VmKeeper.env config)) ⟨start, []⟩ called)
    (hops : Interleaves (VmKeeper.env config) called last flushed)
    (hregular : AllRegular config known ctx.world last) (hready : CommitReady config flushed.db) :
    ∃ next, flushed.db.commit (VmKeeper.env config) = .ok () next ∧
      (∀ address, ¬ Exempt config ctx.world address ∨ KeptBy last.history address →
        Published config last.db next.world address) ∧
      ∀ address, ¬ last.db.Dirty address → KeptBy last.history address →
        next.world.record address = ctx.world.record address := by
  have hsame := hops.same
  have hcalled : AllRegular config known ctx.world called := by
    obtain ⟨steps, hhistory⟩ := hops.history
    intro step hstep
    apply hregular
    rw [hhistory]
    exact List.mem_append_right steps hstep
  have hgood := good_advances hinj hempty hrun hcalled (good_start horigin hprepare)
  obtain ⟨hflushed, -, hkept⟩ := good_interleaves hinj hempty hgood hops hregular
  have hcore : flushed.db.core (VmKeeper.env config) = last.db.core (VmKeeper.env config) := by
    rw [hsame]
    exact core_onCache _ _ _ _
  have hdirty : ∀ address, flushed.db.Dirty address ↔ last.db.Dirty address := by
    intro address
    rw [hsame]
    exact Iff.rfl
  obtain ⟨next, hcommit⟩ := hflushed.sound.commitReady hinj hempty hready
  have hall := hflushed.sound.committed hinj hempty hcommit
  refine ⟨next, hcommit, ?_, ?_⟩
  · intro address hscope
    refine Published.of_core (hflushed.sound.published hinj hempty hcommit ?_) hcore
    rw [hflushed.world]
    exact hscope.imp_right fun hunchanged hclean =>
      hflushed.kept address hclean (hkept address hunchanged)
  · intro address hclean hunchanged
    have hclean' : ¬ flushed.db.Dirty address := fun h => hclean ((hdirty address).mp h)
    have hothers := hall.others address fun hmem => hclean' ((dirty_iff address).mp hmem)
    exact hothers.trans (hflushed.kept address hclean' (hkept address hunchanged))

end Sessions

-- A chain of two accounts, one of which holds coins at an address without code.
section Examples

def payer : Address :=
  Ethereum.hexToAddress "0x0000000000000000000000000000000000005e4d"

def prefunded : Address :=
  Ethereum.hexToAddress "0x00000000000000000000000000000000000f04de"

def twoAccounts : World Unit where
  accounts address :=
    if address = payer then some ⟨.baseAccount, 0, 1⟩
    else if address = prefunded then some ⟨.baseAccount, 1, 0⟩ else none
  nextNumber := 2
  balances address := if address = payer then 100 else if address = prefunded then 5 else 0
  bounded address := by
    split
    · decide
    · split <;> decide
  elsewhere := 0
  supply := 105
  codeHashes := ∅
  codes _ := none
  storage _ := ∅
  rest := ()

theorem twoAccounts_consistent (known : Set Bytes) : twoAccounts.Consistent sampleConfig known where
  clean := by
    intro address habsent
    simp only [twoAccounts] at habsent ⊢
    split at habsent
    · cases habsent
    · rename_i hpayer
      split at habsent
      · cases habsent
      · rename_i hprefunded
        simp only [hpayer, hprefunded, if_false]
        exact ⟨trivial, by simp, fun key => rfl⟩
  hashes := by
    intro address codeHash hfound
    simp [twoAccounts] at hfound
  fit := by
    intro codeHash code hfound
    cases hfound

theorem twoAccounts_not_exempt (address : Address) : ¬ Exempt sampleConfig twoAccounts address := by
  rintro (hblocked | hmodule)
  · cases hblocked
  · simp only [World.isModule, twoAccounts] at hmodule
    split at hmodule
    · cases hmodule
    · split at hmodule <;> cases hmodule

theorem twoAccounts_touches (addresses : List Address) :
    ∀ address ∈ addresses, ¬ Exempt sampleConfig twoAccounts address :=
  fun address _ => twoAccounts_not_exempt address

def freshDb : StateDB (World Unit) :=
  .new ⟨twoAccounts, []⟩ 0

-- A transfer of five coins that is flushed to the cache context before the commit.
def transferred : Machine (World Unit) :=
  endState ((Machine.issue (VmKeeper.env sampleConfig) (.transfer payer prefunded 5)).run ⟨freshDb, []⟩)

def flushedTransfer : Machine (World Unit) :=
  endState ((Machine.flushToCacheCtx (VmKeeper.env sampleConfig)).run
    (transferred.setDb transferred.db.getCacheContext))

theorem transferred_regular : AllRegular sampleConfig {[]} twoAccounts transferred := by
  change ∀ step ∈ ([_] : List (Step (World Unit))), _
  rw [List.forall_mem_singleton]
  exact ⟨twoAccounts_touches _, trivial⟩

theorem flushedTransfer_ready : CommitReady sampleConfig flushedTransfer.db := by
  have hdirty : ∀ address, flushedTransfer.db.Dirty address → address = prefunded ∨ address = payer := by
    rintro address ⟨entry, hmem, hdirtied⟩
    have hentries : flushedTransfer.db.journal.entries =
        [.balanceChange prefunded 5, .balanceChange payer 100] := rfl
    rw [hentries, List.mem_cons, List.mem_singleton] at hmem
    rcases hmem with rfl | rfl
    · exact .inl (Option.some.inj hdirtied).symm
    · exact .inr (Option.some.inj hdirtied).symm
  refine ⟨fun address h => ?_, fun address object h hlive hmark => ?_⟩
  · rcases hdirty address h with rfl | rfl
    · decide +kernel
    · decide +kernel
  · rcases hdirty address h with rfl | rfl
    · cases hlive
      cases hmark
    · cases hlive
      cases hmark

theorem transfer_published :
    ∃ cache next, flushedTransfer.db.cache = some cache ∧
      flushedTransfer.db.commit (VmKeeper.env sampleConfig) = .ok () next ∧
      next.world.reads sampleConfig prefunded = transferred.db.reads sampleConfig prefunded ∧
      (transferred.db.reads sampleConfig prefunded).balance = 10 := by
  have hops : Interleaves (VmKeeper.env sampleConfig) ⟨freshDb, []⟩ transferred flushedTransfer :=
    .flush (.getCacheContext (.issue (.transfer payer prefunded 5) .start rfl rfl)) rfl
  have hprepare : freshDb.prepare ⟨false, false, false⟩ payer payer none [] [] = .ok freshDb := rfl
  obtain ⟨next, hcommit, hpublished, -⟩ := commit_publishes sampleConfig {[]} (Set.injOn_singleton _ _) rfl
    ⟨twoAccounts, []⟩ (twoAccounts_consistent {[]}) 0 ⟨false, false, false⟩ payer payer none [] []
    hprepare .refl hops transferred_regular flushedTransfer_ready
  exact ⟨_, next, rfl, hcommit, (hpublished prefunded (.inl (twoAccounts_not_exempt prefunded))).2 rfl, rfl⟩

-- A contract is created at an address that holds coins already. Its constructor sends
-- the coins away and self-destructs, so that there is no code to store.
def destructInConstructor : Script (World Unit) .evm :=
  .op (.setNonce payer 2) <|
  .frame
    (.op (.createAccount prefunded) <|
      .op (.createContract prefunded) <|
      .op (.setNonce prefunded 1) <|
      .op (.transfer prefunded payer 5) <|
      .op (.selfDestruct prefunded) <|
      .op (.setCode prefunded (some [])) .done) false .done

def destructed : Machine (World Unit) :=
  endState ((Machine.exec (VmKeeper.env sampleConfig) destructInConstructor).run ⟨freshDb, []⟩)

theorem destructed_regular : AllRegular sampleConfig {[]} twoAccounts destructed := by
  change ∀ step ∈ ([_, _, _, _, _, _, _] : List (Step (World Unit))), _
  simp only [List.forall_mem_cons]
  have htouches := twoAccounts_touches
  refine ⟨⟨htouches _, rfl⟩, ⟨htouches _, rfl⟩, ⟨htouches _, trivial⟩, ⟨htouches _, trivial⟩,
    ⟨htouches _, rfl, fun _ => rfl⟩, ⟨htouches _, trivial⟩, ⟨htouches _, trivial⟩, ?_⟩
  simp

theorem prefunded_selfDestruct_fails :
    (Machine.exec (VmKeeper.env sampleConfig) destructInConstructor).run ⟨freshDb, []⟩ = .ok () destructed ∧
      AllRegular sampleConfig {[]} twoAccounts destructed ∧
      ∃ next, destructed.db.commit (VmKeeper.env sampleConfig) =
        .error (.error ("failed to delete account " ++ Ethereum.addressHex sampleConfig.keccak256 prefunded ++
          ": only smart contracts can be self-destructed")) next := by
  refine ⟨rfl, destructed_regular, endState (destructed.db.commit (VmKeeper.env sampleConfig)), ?_⟩
  rw [show ": only smart contracts can be self-destructed" =
    ": " ++ "only smart contracts can be self-destructed" from rfl, ← String.append_assoc]
  rfl

end Examples

end PosChain.Evm
