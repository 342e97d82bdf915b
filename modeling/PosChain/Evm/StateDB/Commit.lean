import PosChain.Base.CacheKV
import PosChain.Evm.Keeper.Theorems

namespace PosChain.Evm

namespace StateObject

def newCode (object : StateObject) : Option Bytes :=
  object.code.filter fun code => object.dirtyCode && decide (0 < code.length)

def writeSlots (slots : Std.ExtTreeMap Hash Bytes) (written : Std.ExtTreeMap Hash Hash) :
    Std.ExtTreeMap Hash Bytes :=
  written.toList.foldl (fun slots entry => slots.insert entry.1 entry.2.bytes) slots

def committedRecord (config : Config) (number : Nat) (object : StateObject) (record : Record) : Record :=
  if object.selfDestructed then
    if object.newCode = none ∧ record.auth = none then record else .empty
  else
    { Record.stored config number object.account record with
      storage := writeSlots record.storage object.dirtyStorage }

def committedCodes (object : StateObject) (codes : Hash → Option Bytes) : Hash → Option Bytes :=
  match object.newCode with
  | some code => Function.update codes object.account.codeHash (some code)
  | none =>
    if object.selfDestructed = false ∧ object.dirtyCode = true ∧ object.code = some [] then
      Function.update codes object.account.codeHash none
    else codes

end StateObject

structure Committed {R : Type} (config : Config) (address : Address) (object : StateObject)
    (ctx next : Ctx (World R)) : Prop where
  events : next.events = ctx.events
  others : ∀ other, other ≠ address → next.world.record other = ctx.world.record other
  record : ∃ number, next.world.record address =
    object.committedRecord config number (ctx.world.record address)
  codes : next.world.codes = object.committedCodes ctx.world.codes
  supply : next.world.supply = ctx.world.supply
  elsewhere : next.world.elsewhere = ctx.world.elsewhere

section Actions

variable {R : Type} {ctx next : Ctx (World R)}

theorem onWorld_eq_ok (action : Action (World R) Unit) (u : Unit) :
    (VmKeeper.onWorld action).run ctx = .ok u next ↔
      ∃ w, action.run ctx.world = .ok u w ∧ next = { ctx with world := w } := by
  rw [VmKeeper.onWorld, run_onPart_eq_ok]

end Actions

section Objects

open StateDB World

variable {R : Type} {config : Config} {address : Address} {object : StateObject} {ctx next : Ctx (World R)}

theorem commitState_run (entry : Hash × Hash) :
    (commitState (VmKeeper.env config) address entry).run ctx =
      .ok () { ctx with world := ctx.world.setState address entry.1 entry.2.bytes } := by
  have hlength : entry.2.bytes.length ≠ 0 := by
    rw [entry.2.length_eq]
    decide
  rw [commitState, if_neg hlength]
  rfl

theorem commitStates_run (entries : List (Hash × Hash)) (ctx : Ctx (World R)) :
    (entries.forM (commitState (VmKeeper.env config) address)).run ctx =
      .ok () { ctx with
        world := ctx.world.putStorage address
          (entries.foldl (fun slots entry => slots.insert entry.1 entry.2.bytes)
            (ctx.world.storage address)) } := by
  induction entries generalizing ctx with
  | nil =>
    have hsame : ctx.world.putStorage address (ctx.world.storage address) = ctx.world := by
      rw [putStorage, Function.update_eq_self]
    rw [List.foldl_nil, hsame]
    rfl
  | cons entry rest ih =>
    change ((commitState (VmKeeper.env config) address entry >>=
      fun _ => rest.forM (commitState (VmKeeper.env config) address)).run ctx) = _
    rw [EStateM.run_bind, commitState_run]
    dsimp only
    rw [ih]
    simp [World.setState, putStorage]

theorem commitCode_run (h : object.selfDestructed = false) :
    (commitCode (VmKeeper.env config) object).run ctx =
      .ok () { ctx with
        world := { ctx.world with codes := object.committedCodes ctx.world.codes } } := by
  unfold commitCode StateObject.committedCodes StateObject.newCode
  cases object.code with
  | none => simp
  | some code =>
    cases object.dirtyCode with
    | false => simp
    | true =>
      cases code with
      | nil =>
        simp [h]
        rfl
      | cons byte rest =>
        simp
        rfl

theorem commitLive_eq_ok (h : object.selfDestructed = false) (u : Unit) :
    (commitLive (VmKeeper.env config) address object).run ctx = .ok u next ↔
      ∃ w, (VmKeeper.setAccount config address object.account).run
          { ctx.world with codes := object.committedCodes ctx.world.codes } = .ok u w ∧
        next = { ctx with
          world := w.putStorage address
            (StateObject.writeSlots (w.storage address) object.dirtyStorage) } := by
  rw [commitLive, EStateM.run_bind, commitCode_run h]
  dsimp only
  rw [run_bind_eq_ok]
  constructor
  · rintro ⟨_, r, haccount, hslots⟩
    rw [wrapError_eq_ok] at haccount
    obtain ⟨w, hw, rfl⟩ := (onWorld_eq_ok _ _).mp haccount
    rw [commitStates_run] at hslots
    exact ⟨w, hw, (EStateM.Result.ok.inj hslots).2.symm⟩
  · rintro ⟨w, hw, rfl⟩
    refine ⟨(), { ctx with world := w }, ?_, commitStates_run _ _⟩
    rw [wrapError_eq_ok]
    exact (onWorld_eq_ok _ _).mpr ⟨w, hw, rfl⟩

theorem commitDestructed_old (h : object.newCode = none) (u : Unit) :
    (commitDestructed (VmKeeper.env config) address object).run ctx = .ok u next ↔
      ∃ w, (VmKeeper.deleteAccount config address).run ctx.world = .ok u w ∧
        next = { ctx with world := w } := by
  have hdelete : (commitDestructed (VmKeeper.env config) address object).run ctx =
      (wrapError ("failed to delete account " ++ Ethereum.addressHex config.keccak256 address)
        ((VmKeeper.keeper config).deleteAccount address)).run ctx := by
    unfold commitDestructed
    unfold StateObject.newCode at h
    cases hcode : object.code with
    | none => rfl
    | some code =>
      rw [hcode] at h
      have hold : (object.dirtyCode && decide (0 < code.length)) = false := by
        simpa using h
      simp only [hold]
      rfl
  rw [hdelete, wrapError_eq_ok]
  exact onWorld_eq_ok _ _

theorem commitDestructed_new {code : Bytes} (h : object.newCode = some code) (u : Unit) :
    (commitDestructed (VmKeeper.env config) address object).run ctx = .ok u next ↔
      ∃ v w, (VmKeeper.setAccount config address object.account).run
          (ctx.world.setCode object.account.codeHash code) = .ok () v ∧
        (VmKeeper.deleteAccount config address).run v = .ok u w ∧ next = { ctx with world := w } := by
  have hcode : object.code = some code ∧ (object.dirtyCode && decide (0 < code.length)) = true := by
    simpa [StateObject.newCode, Option.filter_eq_some_iff] using h
  have hrun : (commitDestructed (VmKeeper.env config) address object).run ctx =
      (wrapError "failed to set account before delete"
          ((VmKeeper.keeper config).setAccount address object.account) >>= fun _ =>
        wrapError ("failed to delete account " ++ Ethereum.addressHex config.keccak256 address)
          ((VmKeeper.keeper config).deleteAccount address)).run
        { ctx with world := ctx.world.setCode object.account.codeHash code } := by
    unfold commitDestructed
    simp only [hcode.1, hcode.2]
    rfl
  rw [hrun, run_bind_eq_ok]
  constructor
  · rintro ⟨_, r, haccount, hdelete⟩
    rw [wrapError_eq_ok] at haccount hdelete
    obtain ⟨v, hv, rfl⟩ := (onWorld_eq_ok _ _).mp haccount
    obtain ⟨w, hw, rfl⟩ := (onWorld_eq_ok _ _).mp hdelete
    exact ⟨v, w, hv, hw, rfl⟩
  · rintro ⟨v, w, hv, hw, rfl⟩
    refine ⟨(), { ctx with world := v }, ?_, ?_⟩
    · rw [wrapError_eq_ok]
      exact (onWorld_eq_ok _ _).mpr ⟨v, hv, rfl⟩
    · rw [wrapError_eq_ok]
      exact (onWorld_eq_ok _ _).mpr ⟨w, hw, rfl⟩

theorem committed_live (h : object.selfDestructed = false) {u : Unit}
    (hrun : (commitLive (VmKeeper.env config) address object).run ctx = .ok u next) :
    Committed config address object ctx next := by
  obtain ⟨w, haccount, rfl⟩ := (commitLive_eq_ok h u).mp hrun
  obtain ⟨hwrote, number, hrecord⟩ := VmKeeper.setAccount_ok haccount
  have hslots : Wrote address w (w.putStorage address
      (StateObject.writeSlots (w.storage address) object.dirtyStorage)) := .putStorage _
  have hall := hwrote.trans hslots
  refine ⟨rfl, hall.others, ⟨number, ?_⟩, hall.codes, hall.supply, hall.elsewhere⟩
  have hstorage : w.storage address = (ctx.world.record address).storage :=
    congrArg Record.storage hrecord
  rw [record_putStorage, if_pos rfl, hrecord, hstorage, StateObject.committedRecord, h]
  rfl

theorem committed_destructed (h : object.selfDestructed = true) {u : Unit}
    (hrun : (commitDestructed (VmKeeper.env config) address object).run ctx = .ok u next) :
    Committed config address object ctx next := by
  cases hcode : object.newCode with
  | none =>
    obtain ⟨w, hdelete, rfl⟩ := (commitDestructed_old hcode u).mp hrun
    obtain ⟨hwrote, hrecord⟩ := VmKeeper.deleteAccount_ok hdelete
    refine ⟨rfl, hwrote.others, ⟨0, ?_⟩, ?_, hwrote.supply, hwrote.elsewhere⟩
    · rw [hrecord]
      simp only [StateObject.committedRecord, h, hcode, if_true, true_and]
      rfl
    · rw [StateObject.committedCodes, hcode]
      simp only [h, Bool.true_eq_false, false_and, if_false]
      exact hwrote.codes
  | some code =>
    obtain ⟨v, w, haccount, hdelete, rfl⟩ := (commitDestructed_new hcode u).mp hrun
    obtain ⟨hwrote, number, hrecord⟩ := VmKeeper.setAccount_ok haccount
    obtain ⟨hwrote', hrecord'⟩ := VmKeeper.deleteAccount_ok hdelete
    have hpresent : v.accounts address ≠ none := by
      have hauth := congrArg Record.auth hrecord
      intro hnone
      have hnone' : (v.record address).auth = none := hnone
      rw [hauth] at hnone'
      cases hnone'
    have hall := hwrote.trans hwrote'
    refine ⟨rfl, hall.others, ⟨0, ?_⟩, ?_, hall.supply, hall.elsewhere⟩
    · rw [hrecord', if_neg hpresent]
      simp [StateObject.committedRecord, h, hcode]
    · rw [StateObject.committedCodes, hcode]
      exact hall.codes

theorem committed_object {db : StateDB (World R)} (hlive : db.stateObjects address = some object) {u : Unit}
    (hrun : (db.commitObject (VmKeeper.env config) address).run ctx = .ok u next) :
    Committed config address object ctx next := by
  rw [commitObject, hlive] at hrun
  dsimp only at hrun
  split at hrun
  · rename_i h
    exact committed_destructed h hrun
  · rename_i h
    exact committed_live (by simpa using h) hrun

-- A self-destructed account can be deleted when the code that is stored first is a
-- contract's. Without one there has to be a contract in the stores, or no account.
def Deletable (config : Config) (w : World R) (address : Address) (object : StateObject) : Prop :=
  match object.newCode with
  | some code => Ethereum.parseDelegation code = none
  | none => w.accounts address = none ∨ w.isContract config address = true

structure Writable (config : Config) (w : World R) (address : Address) (object : StateObject) : Prop where
  blocked : config.blockedAddr address.bytes = false
  notModule : w.isModule address = false
  bound : object.account.balance.toNat +
    object.account.lockedBalance.getD (w.lockedCoin address) < 2 ^ 256
  deletable : object.selfDestructed = true → Deletable config w address object

theorem isContract_of_stored {v : World R} {code : Bytes} (hlength : 0 < code.length)
    (hdelegation : Ethereum.parseDelegation code = none)
    (hfound : (v.getCode (v.getCodeHash config address)) = some code) :
    v.isContract config address = true := by
  simp [isContract, hfound, hlength, hdelegation]

theorem length_newCode {code : Bytes} (h : object.newCode = some code) : 0 < code.length := by
  have hfilter := (Option.filter_eq_some_iff.mp h).2
  simp only [Bool.and_eq_true, decide_eq_true_eq] at hfilter
  exact hfilter.2

theorem commitObject_succeeds {db : StateDB (World R)} (hlive : db.stateObjects address = some object)
    (hhash : ∀ code, object.newCode = some code → object.account.codeHash ≠ config.emptyCodeHash)
    (h : Writable config ctx.world address object) :
    ∃ next, (db.commitObject (VmKeeper.env config) address).run ctx = .ok () next := by
  rw [commitObject, hlive]
  dsimp only
  cases hmark : object.selfDestructed with
  | false =>
    obtain ⟨w, hw⟩ := VmKeeper.setAccount_succeeds
      (w := { ctx.world with codes := object.committedCodes ctx.world.codes }) h.notModule h.blocked h.bound
    exact ⟨_, (commitLive_eq_ok hmark ()).mpr ⟨w, hw, rfl⟩⟩
  | true =>
    have hdeletable := h.deletable hmark
    unfold Deletable at hdeletable
    cases hcode : object.newCode with
    | some code =>
      rw [hcode] at hdeletable
      obtain ⟨v, hv⟩ := VmKeeper.setAccount_succeeds
        (w := ctx.world.setCode object.account.codeHash code) h.notModule h.blocked h.bound
      obtain ⟨hwrote, number, hrecord⟩ := VmKeeper.setAccount_ok hv
      have hfound : v.getCodeHash config address = object.account.codeHash := by
        rw [World.getCodeHash_eq, hrecord]
        simp [Record.hash, Record.stored, hhash code hcode]
      have hstored : v.getCode (v.getCodeHash config address) = some code := by
        rw [hfound, World.getCode, hwrote.codes]
        simp [World.setCode]
      have hcontract := isContract_of_stored (length_newCode hcode) hdeletable hstored
      obtain ⟨w, hw⟩ := VmKeeper.deleteAccount_succeeds (.inr ⟨hcontract, h.blocked⟩)
      exact ⟨_, (commitDestructed_new hcode ()).mpr ⟨v, w, hv, hw, rfl⟩⟩
    | none =>
      rw [hcode] at hdeletable
      obtain ⟨w, hw⟩ := VmKeeper.deleteAccount_succeeds
        (hdeletable.imp_right fun hcontract => And.intro hcontract h.blocked)
      exact ⟨_, (commitDestructed_old hcode ()).mpr ⟨w, hw, rfl⟩⟩

end Objects

-- Codes are stored under their hashes. The hash is only asked to tell apart the codes
-- that are known, which are those of the stores and those of the transaction.
section Codes

variable {R : Type} (config : Config) (known : Set Bytes)

def CodesFit (codes : Hash → Option Bytes) : Prop :=
  ∀ codeHash code, codes codeHash = some code → code ∈ known ∧ config.keccak256 code = codeHash

def CodesKept (codes next : Hash → Option Bytes) : Prop :=
  ∀ codeHash code, codeHash ≠ config.emptyCodeHash → codes codeHash = some code → next codeHash = some code

def StateObject.Fits (object : StateObject) : Prop :=
  ∀ code, object.code = some code → code ∈ known ∧ config.keccak256 code = object.account.codeHash

variable {config known} {object : StateObject} {codes : Hash → Option Bytes}

theorem CodesKept.trans {next last : Hash → Option Bytes} (h : CodesKept config codes next)
    (h' : CodesKept config next last) : CodesKept config codes last :=
  fun codeHash code hne hfound => h' codeHash code hne (h codeHash code hne hfound)

theorem newCode_fits (hobject : object.Fits config known) {code : Bytes} (h : object.newCode = some code) :
    code ∈ known ∧ config.keccak256 code = object.account.codeHash :=
  hobject code (Option.filter_eq_some_iff.mp h).1

theorem newCode_hash (hinj : Set.InjOn config.keccak256 known) (hempty : [] ∈ known)
    (hobject : object.Fits config known) {code : Bytes} (h : object.newCode = some code) :
    object.account.codeHash ≠ config.emptyCodeHash := by
  intro heq
  obtain ⟨hknown, hhash⟩ := newCode_fits hobject h
  have hnil : code = [] := hinj hknown hempty (hhash.trans heq)
  have hlength := length_newCode h
  rw [hnil] at hlength
  exact Nat.lt_irrefl 0 hlength

theorem codesFit_committed (hcodes : CodesFit config known codes) (hobject : object.Fits config known) :
    CodesFit config known (object.committedCodes codes) := by
  intro codeHash code hfound
  unfold StateObject.committedCodes at hfound
  cases hnew : object.newCode with
  | some written =>
    simp only [hnew] at hfound
    by_cases h : codeHash = object.account.codeHash
    · subst h
      rw [Function.update_self] at hfound
      cases hfound
      exact newCode_fits hobject hnew
    · rw [Function.update_of_ne h] at hfound
      exact hcodes codeHash code hfound
  | none =>
    simp only [hnew] at hfound
    split at hfound
    · by_cases h : codeHash = object.account.codeHash
      · subst h
        rw [Function.update_self] at hfound
        cases hfound
      · rw [Function.update_of_ne h] at hfound
        exact hcodes codeHash code hfound
    · exact hcodes codeHash code hfound

theorem codesKept_committed (hinj : Set.InjOn config.keccak256 known) (hcodes : CodesFit config known codes)
    (hobject : object.Fits config known) : CodesKept config codes (object.committedCodes codes) := by
  intro codeHash code hne hfound
  unfold StateObject.committedCodes
  cases hnew : object.newCode with
  | some written =>
    dsimp only
    by_cases h : codeHash = object.account.codeHash
    · subst h
      obtain ⟨hknown, hhash⟩ := hcodes _ _ hfound
      obtain ⟨hknown', hhash'⟩ := newCode_fits hobject hnew
      rw [Function.update_self, hinj hknown hknown' (hhash.trans hhash'.symm)]
    · rw [Function.update_of_ne h, hfound]
  | none =>
    dsimp only
    split
    · rename_i hdeleted
      have hempty : object.account.codeHash = config.emptyCodeHash :=
        (hobject [] hdeleted.2.2).2.symm
      rw [Function.update_of_ne (by rw [hempty]; exact hne), hfound]
    · exact hfound

theorem committedCodes_new {code : Bytes} (h : object.newCode = some code) :
    object.committedCodes codes object.account.codeHash = some code := by
  simp [StateObject.committedCodes, h]

end Codes

section Commits

open StateDB World

variable {R : Type} {config : Config} {known : Set Bytes} {db : StateDB (World R)} {ctx next : Ctx (World R)}

structure CommittedRecords (config : Config) (db : StateDB (World R)) (dirties : List Address)
    (ctx next : Ctx (World R)) : Prop where
  events : next.events = ctx.events
  others : ∀ address, address ∉ dirties → next.world.record address = ctx.world.record address
  records : ∀ address ∈ dirties, ∃ object number, db.stateObjects address = some object ∧
    next.world.record address = object.committedRecord config number (ctx.world.record address)
  supply : next.world.supply = ctx.world.supply
  elsewhere : next.world.elsewhere = ctx.world.elsewhere

structure CommittedAll (config : Config) (known : Set Bytes) (db : StateDB (World R)) (dirties : List Address)
    (ctx next : Ctx (World R)) : Prop extends CommittedRecords config db dirties ctx next where
  fit : CodesFit config known next.world.codes
  kept : CodesKept config ctx.world.codes next.world.codes
  stored : ∀ address ∈ dirties, ∀ object code, db.stateObjects address = some object →
    object.newCode = some code → next.world.codes object.account.codeHash = some code

theorem committedRecords_nil : CommittedRecords config db [] ctx ctx where
  events := rfl
  others _ _ := rfl
  records _ h := by cases h
  supply := rfl
  elsewhere := rfl

theorem committedRecords_cons {address : Address} {rest : List Address} {object : StateObject}
    {middle : Ctx (World R)} (hnew : address ∉ rest) (hlive : db.stateObjects address = some object)
    (hfirst : Committed config address object ctx middle)
    (hrest : CommittedRecords config db rest middle next) :
    CommittedRecords config db (address :: rest) ctx next where
  events := hrest.events.trans hfirst.events
  others other hother := by
    rw [List.mem_cons, not_or] at hother
    rw [hrest.others other hother.2, hfirst.others other hother.1]
  records other hother := by
    rcases List.mem_cons.mp hother with rfl | hlater
    · obtain ⟨number, hrecord⟩ := hfirst.record
      exact ⟨object, number, hlive, by rw [hrest.others other hnew, hrecord]⟩
    · have hne : other ≠ address := by
        rintro rfl
        exact hnew hlater
      rw [← hfirst.others other hne]
      exact hrest.records other hlater
  supply := hrest.supply.trans hfirst.supply
  elsewhere := hrest.elsewhere.trans hfirst.elsewhere

theorem commitObjects_cons {address : Address} {rest : List Address} {u : Unit}
    (h : ((address :: rest).forM (db.commitObject (VmKeeper.env config))).run ctx = .ok u next) :
    ∃ object middle, db.stateObjects address = some object ∧ Committed config address object ctx middle ∧
      (rest.forM (db.commitObject (VmKeeper.env config))).run middle = .ok u next := by
  change ((db.commitObject (VmKeeper.env config) address >>=
    fun _ => rest.forM (db.commitObject (VmKeeper.env config))).run ctx) = _ at h
  rw [run_bind_eq_ok] at h
  obtain ⟨_, middle, hfirst, hrest⟩ := h
  cases hlive : db.stateObjects address with
  | none =>
    rw [commitObject, hlive] at hfirst
    cases hfirst
  | some object => exact ⟨object, middle, rfl, committed_object hlive hfirst, hrest⟩

theorem committedRecords_of_ok {dirties : List Address} (hdirties : dirties.Nodup) {u : Unit}
    (h : (dirties.forM (db.commitObject (VmKeeper.env config))).run ctx = .ok u next) :
    CommittedRecords config db dirties ctx next := by
  induction dirties generalizing ctx with
  | nil =>
    cases h
    exact committedRecords_nil
  | cons address rest ih =>
    rw [List.nodup_cons] at hdirties
    obtain ⟨object, middle, hlive, hcommitted, hrest⟩ := commitObjects_cons h
    exact committedRecords_cons hdirties.1 hlive hcommitted (ih hdirties.2 hrest)

theorem committedAll_nil (hcodes : CodesFit config known ctx.world.codes) :
    CommittedAll config known db [] ctx ctx where
  toCommittedRecords := committedRecords_nil
  fit := hcodes
  kept _ _ _ h := h
  stored _ h := by cases h

variable (hinj : Set.InjOn config.keccak256 known) (hempty : [] ∈ known)
  (hobjects : ∀ address object, db.stateObjects address = some object → object.Fits config known)

include hinj hempty hobjects in
theorem committedAll_cons {address : Address} {rest : List Address} {object : StateObject}
    {middle : Ctx (World R)} (hnew : address ∉ rest) (hlive : db.stateObjects address = some object)
    (hcodes : CodesFit config known ctx.world.codes) (hfirst : Committed config address object ctx middle)
    (hrest : CommittedAll config known db rest middle next) :
    CommittedAll config known db (address :: rest) ctx next where
  toCommittedRecords := committedRecords_cons hnew hlive hfirst hrest.toCommittedRecords
  fit := hrest.fit
  kept := by
    have hkept := codesKept_committed hinj hcodes (hobjects address object hlive)
    rw [← hfirst.codes] at hkept
    exact hkept.trans hrest.kept
  stored other hother found code hfound hcode := by
    rcases List.mem_cons.mp hother with rfl | hlater
    · rw [hlive] at hfound
      cases hfound
      apply hrest.kept _ _ (newCode_hash hinj hempty (hobjects other object hlive) hcode)
      rw [hfirst.codes]
      exact committedCodes_new hcode
    · exact hrest.stored other hlater found code hfound hcode

include hinj hempty hobjects in
theorem committedAll_of_ok {dirties : List Address} (hdirties : dirties.Nodup)
    (hcodes : CodesFit config known ctx.world.codes) {u : Unit}
    (h : (dirties.forM (db.commitObject (VmKeeper.env config))).run ctx = .ok u next) :
    CommittedAll config known db dirties ctx next := by
  induction dirties generalizing ctx with
  | nil =>
    cases h
    exact committedAll_nil hcodes
  | cons address rest ih =>
    rw [List.nodup_cons] at hdirties
    obtain ⟨object, middle, hlive, hcommitted, hrest⟩ := commitObjects_cons h
    have hfit : CodesFit config known middle.world.codes := by
      rw [hcommitted.codes]
      exact codesFit_committed hcodes (hobjects address object hlive)
    exact committedAll_cons hinj hempty hobjects hdirties.1 hlive hcodes hcommitted
      (ih hdirties.2 hfit hrest)

-- A contract stays one while the code of others is written.
include hinj hempty in
theorem isContract_congr {w t : World R} {address : Address} (hrecord : t.record address = w.record address)
    (hfit : CodesFit config known w.codes) (hkept : CodesKept config w.codes t.codes)
    (h : w.isContract config address = true) : t.isContract config address = true := by
  have hhash : t.getCodeHash config address = w.getCodeHash config address := by
    rw [World.getCodeHash_eq, hrecord, World.getCodeHash_eq]
  cases hcode : w.getCode (w.getCodeHash config address) with
  | none =>
    rw [isContract, hcode] at h
    cases h
  | some code =>
    simp only [isContract, hcode, Option.getD_some, Bool.and_eq_true, decide_eq_true_eq,
      Option.isNone_iff_eq_none] at h
    obtain ⟨hknown, hkeccak⟩ := hfit _ _ hcode
    have hne : w.getCodeHash config address ≠ config.emptyCodeHash := by
      intro heq
      have hnil : code = [] := hinj hknown hempty (hkeccak.trans heq)
      rw [hnil] at h
      exact Nat.lt_irrefl 0 h.1
    have hfound : t.getCode (t.getCodeHash config address) = some code := by
      rw [hhash]
      exact hkept _ _ hne hcode
    exact isContract_of_stored h.1 h.2 hfound

-- What a commit asks of an account does not change while others are written.
include hinj hempty in
theorem Writable.congr {w t : World R} {address : Address} {object : StateObject}
    (h : Writable config w address object) (hrecord : t.record address = w.record address)
    (hfit : CodesFit config known w.codes) (hkept : CodesKept config w.codes t.codes) :
    Writable config t address object where
  blocked := h.blocked
  notModule := by
    rw [isModule_eq, hrecord]
    exact h.notModule
  bound := by
    rw [lockedCoin_eq, hrecord]
    exact h.bound
  deletable := by
    intro hmark
    have hdeletable := h.deletable hmark
    unfold Deletable at hdeletable ⊢
    cases hcode : object.newCode with
    | some code =>
      rw [hcode] at hdeletable
      exact hdeletable
    | none =>
      rw [hcode] at hdeletable
      have hauth : t.accounts address = w.accounts address := congrArg Record.auth hrecord
      exact hdeletable.imp (fun habsent => hauth.trans habsent)
        (isContract_congr hinj hempty hrecord hfit hkept)

include hinj hempty hobjects in
theorem commitAll_succeeds {dirties : List Address} (hdirties : dirties.Nodup)
    (hcodes : CodesFit config known ctx.world.codes)
    (hwritable : ∀ address ∈ dirties, ∃ object, db.stateObjects address = some object ∧
      Writable config ctx.world address object) :
    ∃ next, (dirties.forM (db.commitObject (VmKeeper.env config))).run ctx = .ok () next := by
  induction dirties generalizing ctx with
  | nil => exact ⟨ctx, rfl⟩
  | cons address rest ih =>
    rw [List.nodup_cons] at hdirties
    obtain ⟨object, hlive, hfirst⟩ := hwritable address List.mem_cons_self
    have hfits := hobjects address object hlive
    obtain ⟨middle, hmiddle⟩ := commitObject_succeeds hlive
      (fun code hcode => newCode_hash hinj hempty hfits hcode) hfirst
    have hcommitted := committed_object hlive hmiddle
    have hfit : CodesFit config known middle.world.codes := by
      rw [hcommitted.codes]
      exact codesFit_committed hcodes hfits
    have hkept : CodesKept config ctx.world.codes middle.world.codes := by
      rw [hcommitted.codes]
      exact codesKept_committed hinj hcodes hfits
    have hrest : ∀ other ∈ rest, ∃ found, db.stateObjects other = some found ∧
        Writable config middle.world other found := by
      intro other hother
      obtain ⟨found, hfound, hready⟩ := hwritable other (List.mem_cons_of_mem _ hother)
      have hne : other ≠ address := by
        rintro rfl
        exact hdirties.1 hother
      exact ⟨found, hfound, hready.congr hinj hempty (hcommitted.others other hne) hcodes hkept⟩
    obtain ⟨next, hnext⟩ := ih hdirties.2 hfit hrest
    refine ⟨next, ?_⟩
    change ((db.commitObject (VmKeeper.env config) address >>=
      fun _ => rest.forM (db.commitObject (VmKeeper.env config))).run ctx) = _
    rw [run_bind_eq_ok]
    exact ⟨(), middle, hmiddle, hnext⟩

end Commits

end PosChain.Evm
