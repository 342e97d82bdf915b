import PosChain.Evm.Execution.Logged

namespace PosChain.Evm

variable {W : Type}

structure Observed (W : Type) where
  exist : Address → Bool
  balance : Address → Uint256
  nonce : Address → UInt64
  code : Address → Option Bytes
  codeHash : Address → Hash
  storage : Address → Hash → Hash
  selfDestructed : Address → Bool
  newContract : Address → Bool
  transientStorage : Address → Hash → Hash
  refund : UInt64
  logs : List Log
  accessList : AccessList
  dirties : List Address
  cacheCtx : Ctx W
  processedEventsCount : Nat

def StateDB.observe (env : Env W) (s : StateDB W) : Observed W where
  exist := s.exist env
  balance := s.getBalance env
  nonce := s.getNonce env
  code := s.getCode env
  codeHash := s.getCodeHash env
  storage := s.getState env
  selfDestructed := s.hasSelfDestructed env
  newContract := s.isNewContract env
  transientStorage := s.transientStorage
  refund := s.refund
  logs := s.logs
  accessList := s.accessList
  dirties := s.journal.sortedDirties
  cacheCtx := s.cacheCtx
  processedEventsCount := s.processedEventsCount

-- What can be asked depends on the views of the state and on its journal.
theorem observe_congr {env : Env W} {s t : StateDB W} (hcore : t.core env = s.core env)
    (hview : t.cacheView = s.cacheView) (hjournal : t.journal = s.journal) :
    t.observe env = s.observe env := by
  have hexist : t.exist env = s.exist env := by
    funext address
    rw [StateDB.exist_eq, StateDB.exist_eq, hcore]
  have hbalance : t.getBalance env = s.getBalance env := by
    funext address
    rw [StateDB.getBalance_eq, StateDB.getBalance_eq, hcore]
  have hnonce : t.getNonce env = s.getNonce env := by
    funext address
    rw [StateDB.getNonce_eq, StateDB.getNonce_eq, hcore]
  have hcode : t.getCode env = s.getCode env := by
    funext address
    rw [StateDB.getCode_eq, StateDB.getCode_eq, hcore]
  have hcodeHash : t.getCodeHash env = s.getCodeHash env := by
    funext address
    rw [StateDB.getCodeHash_eq, StateDB.getCodeHash_eq, hcore]
  have hstorage : t.getState env = s.getState env := by
    funext address key
    rw [StateDB.getState_eq, StateDB.getState_eq, hcore]
  have hdestructed : t.hasSelfDestructed env = s.hasSelfDestructed env := by
    funext address
    rw [StateDB.hasSelfDestructed_eq, StateDB.hasSelfDestructed_eq, hcore]
  have hnew : t.isNewContract env = s.isNewContract env := by
    funext address
    rw [StateDB.isNewContract_eq, StateDB.isNewContract_eq, hcore]
  have hcache : t.cacheOrNew = s.cacheOrNew := congrArg CacheView.cache hview
  have hprocessed : t.processedEventsCount = s.processedEventsCount := congrArg CacheView.processed hview
  have htransient : t.transientStorage = s.transientStorage := congrArg Core.transientStorage hcore
  have hrefund : t.refund = s.refund := congrArg Core.refund hcore
  have hlogs : t.logs = s.logs := congrArg Core.logs hcore
  have haccess : t.accessList = s.accessList := congrArg Core.accessList hcore
  simp only [StateDB.observe, StateDB.cacheCtx, hexist, hbalance, hnonce, hcode, hcodeHash, hstorage,
    hdestructed, hnew, hcache, hprocessed, htransient, hrefund, hlogs, haccess, hjournal]

theorem Core.forget_eq_self {core : Core} {destructed : List Address} (h : ∀ address ∈ destructed,
      ((core.objects address).elim false fun object => object.selfDestructed) = false) :
    core.forget destructed = core := by
  have hobjects : (core.forget destructed).objects = core.objects := by
    funext address
    by_cases hmem : address ∈ destructed
    · have haddress := h address hmem
      cases hobject : core.objects address with
      | none => simp [forget, hobject]
      | some view =>
        have hfalse : view.selfDestructed = false := by simpa [hobject] using haddress
        have hsame : { view with selfDestructed := false } = view := by rw [← hfalse]
        simp [forget, hmem, hobject, hsame]
    · simp [forget, hmem]
  exact congrArg (fun objects => { core with objects := objects }) hobjects

theorem Core.selfDestructed_forget (core : Core) {destructed : List Address} {address : Address}
    (h : address ∈ destructed) :
    (((core.forget destructed).objects address).elim false fun object => object.selfDestructed) = false := by
  cases hobject : core.objects address <;> simp [forget, h, hobject]

-- A revert is exact unless a SelfDestruct since the snapshot met an account that
-- was already self-destructed when the snapshot was taken: undoing it clears the
-- mark, whatever it was before.
theorem revert_exact_iff (env : Env W) (db : StateDB W) (script : Script W .evm) {last : Machine W}
    (hrun : (Machine.exec env script).run ⟨db.snapshot.2, []⟩ = .ok () last) :
    ∃ u, last.db.revertToSnapshot env db.snapshot.1 = .ok u ∧
      (u.observe env = db.observe env ↔
        ∀ address ∈ destructedIn last.history, db.hasSelfDestructed env address = false) := by
  obtain ⟨steps, hhistory, hlogged⟩ := Ends.of_ok (Machine.ran_exec script _) hrun
  obtain rfl : last.history = steps := by rw [hhistory, List.append_nil]
  obtain ⟨u, hrevert, hrestored⟩ := hlogged.restored
  refine ⟨u, hrevert, ?_⟩
  constructor
  · intro hsame address hmem
    have hmark : u.hasSelfDestructed env address = db.hasSelfDestructed env address :=
      congrFun (congrArg Observed.selfDestructed hsame) address
    rw [← hmark, StateDB.hasSelfDestructed_eq, hrestored.core]
    exact (db.core env).selfDestructed_forget hmem
  · intro hclear
    have hcore : u.core env = db.core env := by
      rw [hrestored.core]
      refine Core.forget_eq_self fun address hmem => ?_
      rw [← StateDB.hasSelfDestructed_eq]
      exact hclear address hmem
    exact observe_congr hcore hrestored.cacheView hrestored.journal

-- A chain without any account, on which the digest of no bytes is the real one.
section Examples

def emptyDigest : Hash :=
  Ethereum.hexToHash "c5d2460186f7233c927e7db2dcc703c0e500b653ca82273b7bfad8045d85a470"

def noAccounts : Env Unit where
  keeper :=
    { getAccount := fun _ _ => none
      getState := fun _ _ _ => Ethereum.zeroHash
      getCode := fun _ _ => none
      setAccount := fun _ _ => pure ()
      deleteState := fun _ _ => pure ()
      setState := fun _ _ _ => pure ()
      deleteCode := fun _ => pure ()
      setCode := fun _ _ => pure ()
      deleteAccount := fun _ => pure () }
  keccak256 _ := emptyDigest
  blockedAddr _ := false

def contract : Address :=
  Ethereum.hexToAddress "0x00000000000000000000000000000000000c0de1"

def blankDb : StateDB Unit :=
  .new ⟨(), []⟩ 0

-- A contract is created and self-destructed in a frame that is reverted.
def destructOnce : Script Unit .evm :=
  .op (.createAccount contract) (.op (.createContract contract) (.op (.selfDestruct contract) .done))

theorem first_selfDestruct_reverts :
    ∃ last u, (Machine.exec noAccounts destructOnce).run ⟨blankDb.snapshot.2, []⟩ = .ok () last ∧
      last.db.revertToSnapshot noAccounts blankDb.snapshot.1 = .ok u ∧
      u.observe noAccounts = blankDb.observe noAccounts := by
  obtain ⟨u, hrevert, hiff⟩ := revert_exact_iff noAccounts blankDb destructOnce rfl
  exact ⟨_, u, rfl, hrevert, hiff.mpr fun _ _ => rfl⟩

-- The contract has self-destructed. A call into it makes it do so again and is
-- reverted, and the contract is no longer self-destructed.
def destructedDb : StateDB Unit :=
  (endState ((Machine.exec noAccounts destructOnce).run ⟨blankDb, []⟩)).db

theorem second_selfDestruct_clears :
    ∃ last u, (Machine.exec noAccounts (.op (.selfDestruct contract) .done)).run
        ⟨destructedDb.snapshot.2, []⟩ = .ok () last ∧
      last.db.revertToSnapshot noAccounts destructedDb.snapshot.1 = .ok u ∧
      u.observe noAccounts ≠ destructedDb.observe noAccounts := by
  refine ⟨_, _, rfl, rfl, ?_⟩
  intro hsame
  have hmark := congrFun (congrArg Observed.selfDestructed hsame) contract
  revert hmark
  decide +kernel

end Examples

end PosChain.Evm
