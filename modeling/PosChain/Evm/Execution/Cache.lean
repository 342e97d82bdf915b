import PosChain.Evm.Execution.Logged

namespace PosChain.Evm

open StateDB

variable {W : Type} {env : Env W}

def StateDB.onCache (cache : Option (Cache W)) (processed : Nat) (s : StateDB W) : StateDB W :=
  { s with cache := cache, processedEventsCount := processed }

-- What the operations of the EVM neither read nor write.
structure Outside (W : Type) where
  cache : Option (Cache W)
  processedEventsCount : Nat
  precompileCallsCounter : UInt8

def StateDB.outside (s : StateDB W) : Outside W :=
  ⟨s.cache, s.processedEventsCount, s.precompileCallsCounter⟩

def StateDB.beside (out : Outside W) (s : StateDB W) : StateDB W :=
  { s with
    cache := out.cache
    processedEventsCount := out.processedEventsCount
    precompileCallsCounter := out.precompileCallsCounter }

section Beside

variable (out : Outside W) (s : StateDB W) (address : Address)

theorem getStateObject_beside : (s.beside out).getStateObject env address =
    ((s.getStateObject env address).1, (s.getStateObject env address).2.beside out) := by
  have hlive : (s.beside out).stateObjects = s.stateObjects := rfl
  have hworld : (s.beside out).world = s.world := rfl
  unfold getStateObject
  rw [hlive, hworld]
  cases s.stateObjects address with
  | some object => rfl
  | none => cases env.keeper.getAccount s.world address <;> rfl

theorem getOrNewStateObject_beside : (s.beside out).getOrNewStateObject env address =
    ((s.getOrNewStateObject env address).1, (s.getOrNewStateObject env address).2.beside out) := by
  unfold getOrNewStateObject
  rw [getStateObject_beside]
  rcases s.getStateObject env address with ⟨_ | object, t⟩ <;> rfl

theorem loadObject_beside :
    (s.beside out).loadObject env address = (s.loadObject env address).beside out := by
  unfold loadObject
  rw [getStateObject_beside]

theorem addBalance_beside (amount : Uint256) :
    (s.beside out).addBalance env address amount =
      (s.addBalance env address amount).beside out := by
  unfold addBalance
  rw [getOrNewStateObject_beside]
  by_cases hzero : amount = 0
  · simp only [hzero, if_true]
  · simp only [hzero, if_false]
    rfl

theorem subBalance_beside (amount : Uint256) :
    (s.beside out).subBalance env address amount =
      (s.subBalance env address amount).map (StateDB.beside out) := by
  unfold subBalance
  rw [getOrNewStateObject_beside]
  rcases s.getOrNewStateObject env address with ⟨object, t⟩
  dsimp only
  split
  · rfl
  · split <;> rfl

theorem setState_beside (key value : Hash) :
    (s.beside out).setState env address key value =
      (s.setState env address key value).beside out := by
  unfold setState
  rw [getOrNewStateObject_beside]
  rcases s.getOrNewStateObject env address with ⟨object, t⟩
  have hworld : (t.beside out).world = t.world := rfl
  by_cases hsame : object.getState env t.world address key = value
  · simp only [hworld, hsame, if_true]
    rfl
  · simp only [hworld, hsame, if_false]
    rfl

theorem changeTransientState_beside (key value : Hash) :
    (s.beside out).changeTransientState address key value =
      (s.changeTransientState address key value).beside out := by
  have hprev : (s.beside out).transientStorage = s.transientStorage := rfl
  unfold changeTransientState
  rw [hprev]
  by_cases hsame : s.transientStorage address key = value
  · simp only [hsame, if_true]
  · simp only [hsame, if_false]
    rfl

theorem selfDestruct_beside :
    (s.beside out).selfDestruct env address =
      (s.selfDestruct env address).beside out := by
  unfold selfDestruct
  rw [getStateObject_beside]
  rcases s.getStateObject env address with ⟨_ | object, t⟩ <;> rfl

theorem createContract_beside :
    (s.beside out).createContract env address =
      (s.createContract env address).map (StateDB.beside out) := by
  unfold createContract
  rw [getStateObject_beside]
  rcases s.getStateObject env address with ⟨_ | object, t⟩
  · rfl
  · dsimp only
    split <;> rfl

theorem subRefund_beside (gas : UInt64) :
    (s.beside out).subRefund gas =
      (s.subRefund gas).map (StateDB.beside out) := by
  have hrefund : (s.beside out).refund = s.refund := rfl
  unfold subRefund
  rw [hrefund]
  split <;> rfl

theorem addAddressToAccessList_beside :
    (s.beside out).addAddressToAccessList address =
      (s.addAddressToAccessList address).beside out := by
  have hlist : (s.beside out).accessList = s.accessList := rfl
  unfold addAddressToAccessList
  rw [hlist]
  rcases s.accessList.addAddress address with ⟨_ | _, list⟩ <;> rfl

theorem addSlotToAccessList_beside (slot : Hash) :
    (s.beside out).addSlotToAccessList address slot =
      (s.addSlotToAccessList address slot).map (StateDB.beside out) := by
  have hlist : (s.beside out).accessList = s.accessList := rfl
  unfold addSlotToAccessList
  rw [hlist]
  rcases s.accessList.addSlot address slot with fault | ⟨addressAdded, slotAdded, list⟩
  · rfl
  · cases addressAdded <;> cases slotAdded <;> rfl

theorem Op.apply_beside (o : Op) : o.apply env (s.beside out) = (o.apply env s).map (StateDB.beside out) := by
  cases o with
  | loadObject address => exact congrArg Except.ok (loadObject_beside out s address)
  | loadCode address =>
    simp only [Op.apply, StateDB.loadCode, getStateObject_beside]
    rcases s.getStateObject env address with ⟨_ | object, t⟩ <;> rfl
  | loadState address key =>
    simp only [Op.apply, StateDB.loadState, getStateObject_beside]
    rcases s.getStateObject env address with ⟨_ | object, t⟩ <;> rfl
  | addBalance address amount => exact congrArg Except.ok (addBalance_beside out s address amount)
  | subBalance address amount => exact subBalance_beside out s address amount
  | transfer sender recipient amount =>
    simp only [Op.apply, subBalance_beside]
    rcases s.subBalance env sender amount with fault | t
    · rfl
    · exact congrArg Except.ok (addBalance_beside out t recipient amount)
  | setNonce address nonce =>
    simp only [Op.apply, StateDB.setNonce, getOrNewStateObject_beside]
    rfl
  | setCode address code =>
    simp only [Op.apply, StateDB.setCode, getOrNewStateObject_beside]
    rfl
  | setState address key value =>
    exact congrArg Except.ok (setState_beside out s address key value)
  | setTransientState address key value =>
    exact congrArg Except.ok (changeTransientState_beside out s address key value)
  | selfDestruct address => exact congrArg Except.ok (selfDestruct_beside out s address)
  | createAccount address =>
    have hexist : (s.beside out).exist env address = s.exist env address := by
      rw [exist, getStateObject_beside, exist]
    simp only [Op.apply, hexist, loadObject_beside]
    cases s.exist env address <;> rfl
  | createContract address => exact createContract_beside out s address
  | addLog log => rfl
  | addRefund gas => rfl
  | subRefund gas => exact subRefund_beside out s gas
  | addAddressToAccessList address =>
    exact congrArg Except.ok (addAddressToAccessList_beside out s address)
  | addSlotToAccessList address slot => exact addSlotToAccessList_beside out s address slot

end Beside

theorem Op.outside {o : Op} {s t : StateDB W} (h : o.apply env s = .ok t) : t.outside = s.outside := by
  have hsame : o.apply env s = (o.apply env s).map (StateDB.beside s.outside) := o.apply_beside s.outside s
  rw [h] at hsame
  rw [Except.ok.inj hsame]
  rfl

theorem Op.apply_onCache (cache : Option (Cache W)) (processed : Nat) (s : StateDB W) (o : Op) :
    o.apply env (s.onCache cache processed) = (o.apply env s).map (StateDB.onCache cache processed) := by
  refine (o.apply_beside ⟨cache, processed, s.precompileCallsCounter⟩ s).trans ?_
  cases h : o.apply env s with
  | error fault => rfl
  | ok t =>
    have hcalls : t.precompileCallsCounter = s.precompileCallsCounter :=
      congrArg Outside.precompileCallsCounter (Op.outside h)
    rw [← hcalls]
    rfl

-- Two runs from one state that issue the same operations, the second one with flushes
-- between them. The cache context may be opened for them.
inductive Interleaves (env : Env W) (start : Machine W) : Machine W → Machine W → Prop where
  | start : Interleaves env start start start
  | issue {m n m' n' : Machine W} (o : Op) (h : Interleaves env start m n)
      (hfirst : (Machine.issue env o).run m = .ok () m')
      (hsecond : (Machine.issue env o).run n = .ok () n') : Interleaves env start m' n'
  | getCacheContext {m n : Machine W} (h : Interleaves env start m n) :
      Interleaves env start m (n.setDb n.db.getCacheContext)
  | flush {m n n' : Machine W} (h : Interleaves env start m n)
      (hflush : (Machine.flushToCacheCtx env).run n = .ok () n') : Interleaves env start m n'

theorem Interleaves.same {start m n : Machine W} (h : Interleaves env start m n) :
    n.db = m.db.onCache n.db.cache n.db.processedEventsCount := by
  induction h with
  | start => rfl
  | issue o _ hfirst hsecond ih =>
    rw [Machine.issue, run_get_bind, run_lift_bind] at hfirst hsecond
    obtain ⟨first, happly, hset⟩ := hfirst
    obtain ⟨second, happly', hset'⟩ := hsecond
    cases hset
    cases hset'
    rw [ih, Op.apply_onCache, happly] at happly'
    cases happly'
    rfl
  | @getCacheContext m n _ ih =>
    have hsame := congrArg (StateDB.onCache (some n.db.cacheOrNew) n.db.processedEventsCount) ih
    exact hsame
  | @flush m n n' _ hflush ih =>
    obtain ⟨db, hdb, rfl⟩ := (run_onPart_eq_ok _ _ _ _ _ _).mp hflush
    obtain ⟨next, -, rfl⟩ := flushToCacheCtx_ok hdb
    have hsame := congrArg (StateDB.onCache (n.db.setCacheCtx next).cache next.events.length) ih
    exact hsame

end PosChain.Evm
