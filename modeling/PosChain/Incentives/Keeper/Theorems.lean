import PosChain.Incentives.Keeper
import PosChain.Incentives.Types.Theorems

namespace PosChain.Incentives

section Reads

theorem length_encodeParams (params : Params) : (encodeParams params).length = 20 := by
  simp [encodeParams]

theorem getParams_set (store : KVStore) (params : Params) :
    getParams (store.set paramsKey (encodeParams params)) = params := by
  have hrate : UInt32.ofNat (Bytes.toNat (Bytes.fixed 4 params.treasuryReleaseRateBasisPoints.toNat)) =
      params.treasuryReleaseRateBasisPoints := by
    have hlt : params.treasuryReleaseRateBasisPoints.toNat < 256 ^ 4 :=
      params.treasuryReleaseRateBasisPoints.toNat_lt
    rw [Bytes.toNat_fixed, Nat.mod_eq_of_lt hlt, UInt32.ofNat_toNat]
  have htake : (encodeParams params).take 4 =
      Bytes.fixed 4 params.treasuryReleaseRateBasisPoints.toNat := by
    simp [encodeParams]
  have hmiddle : ((encodeParams params).drop 4).take 8 = Bytes.putUint64 params.blocksPerYear := by
    simp [encodeParams]
  have hlast : (encodeParams params).drop 12 = Bytes.putUint64 params.calculationPeriodBlocks := by
    simp [encodeParams, List.drop_append]
  simp [getParams, length_encodeParams, htake, hmiddle, hlast, hrate]

theorem getPeriodState_set (store : KVStore) (p : PeriodState) (hv : p.validate = .ok ()) :
    getPeriodState (store.set periodStateKey p.encode) = .ok (some p) := by
  have hne : p.encode.isEmpty = false := by
    simpa using p.encode_ne_nil
  simp only [getPeriodState, KVStore.get_set, if_true, hne, Bool.false_eq_true, if_false,
    p.decode_encode]
  simp [orFail, hv, bind, Except.bind, pure, Except.pure]

theorem getTotalDistributed_set (store : KVStore) (amount : SdkInt) (h : 0 ≤ amount.value) :
    getTotalDistributed (store.set totalDistributedKey (Bytes.utf8 amount.toText)) = .ok amount := by
  have hne : (amount.toText == "") = false := by
    rw [beq_eq_false_iff_ne]
    intro he
    have hread := parseAtomicAmount_toText amount h
    rw [he, parseAtomicAmount_eq_ok, show BigInt.setString "" 10 = none from by decide] at hread
    cases hread
  simp only [getTotalDistributed, KVStore.get_set, if_true, Bytes.toText_utf8, hne,
    Bool.false_eq_true, if_false, Check.bind_eq_ok, failIf_eq_ok, exists_const, Check.pure_eq_ok,
    SdkInt.isNegative, decide_eq_false_iff_not, not_lt]
  exact ⟨amount, parseAtomicAmount_toText amount h, h, rfl⟩

theorem getPeriodState_sound {store : KVStore} {p : PeriodState}
    (h : getPeriodState store = .ok (some p)) : p.validate = .ok () := by
  rw [getPeriodState] at h
  split at h
  · rw [Check.pure_eq_ok] at h
    cases h
  · simp only [Check.bind_eq_ok, Check.pure_eq_ok, Option.some.injEq] at h
    obtain ⟨state, -, ⟨⟩, hvalid, rfl⟩ := h
    exact hvalid

end Reads

section Frame

variable {store : KVStore} {key : Bytes} (value : Bytes)

theorem getParams_of_ne (h : key ≠ paramsKey) : getParams (store.set key value) = getParams store := by
  simp [getParams, h]

theorem getPeriodState_of_ne (h : key ≠ periodStateKey) :
    getPeriodState (store.set key value) = getPeriodState store := by
  simp [getPeriodState, h]

theorem getTotalDistributed_of_ne (h : key ≠ totalDistributedKey) :
    getTotalDistributed (store.set key value) = getTotalDistributed store := by
  simp [getTotalDistributed, h]

theorem getAuthority_of_ne (h : key ≠ authorityKey) :
    getAuthority (store.set key value) = getAuthority store := by
  simp [getAuthority, h]

end Frame

section Writes

variable {World : Type} {s t : State World} {u : Unit}

theorem run_check_write (check : Check Unit) (key value : Bytes) :
    (do check; writeStore key value : Action (State World) Unit).run s = .ok u t ↔
      check = .ok () ∧ t = { s with store := s.store.set key value } := by
  rw [run_lift_bind]
  simp only [writeStore, run_modify_eq_ok]
  constructor
  · rintro ⟨⟨⟩, hcheck, rfl⟩
    exact ⟨hcheck, rfl⟩
  · rintro ⟨hcheck, rfl⟩
    exact ⟨(), hcheck, rfl⟩

theorem setParams_eq_ok (params : Params) :
    (setParams params).run s = .ok u t ↔ params.validate = .ok () ∧
      t = { s with store := s.store.set paramsKey (encodeParams params) } :=
  run_check_write _ _ _

theorem setPeriodState_eq_ok (p : PeriodState) :
    (setPeriodState p).run s = .ok u t ↔ p.validate = .ok () ∧
      t = { s with store := s.store.set periodStateKey p.encode } :=
  run_check_write _ _ _

theorem setTotalDistributed_eq_ok (amount : SdkInt) :
    (setTotalDistributed amount).run s = .ok u t ↔ 0 ≤ amount.value ∧
      t = { s with store := s.store.set totalDistributedKey (Bytes.utf8 amount.toText) } := by
  rw [setTotalDistributed, run_check_write]
  simp [SdkInt.isNegative]

end Writes

def treasury {World : Type} (env : Env World) (world : World) : Int :=
  (env.getBalance world (env.getModuleAddress treasuryAccountName) incentiveDenom).amount.value

section Period

variable {World : Type} {env : Env World} {s t : State World}

theorem balance_eq_ok (world : World) (coin : Coin) :
    Treasury.balance env world = .ok coin ↔ env.getModuleAddress treasuryAccountName ≠ [] ∧
      env.getBalance world (env.getModuleAddress treasuryAccountName) incentiveDenom = coin := by
  simp only [Treasury.balance, Check.bind_eq_ok, Check.pure_eq_ok, failIf_eq_ok, exists_const,
    List.isEmpty_eq_false_iff]

theorem sendToModule_eq_ok (recipient : String) (amount : SdkInt) :
    (Treasury.sendToModule env recipient amount).run s = .ok () t ↔
      recipient ≠ "" ∧ 0 < amount.value ∧ env.getModuleAddress treasuryAccountName ≠ [] ∧
        amount.value ≤ treasury env s.world ∧
        ∃ world, (env.sendCoinsFromModuleToModule treasuryAccountName recipient
          ⟨incentiveDenom, amount⟩).run s.world = .ok () world ∧ t = { s with world } := by
  simp only [Treasury.sendToModule, run_lift_bind, run_get_bind, failIf_eq_ok, exists_const,
    balance_eq_ok, withWorld, run_onPart_eq_ok, SdkInt.isPositive, SdkInt.lt, treasury,
    beq_eq_false_iff_ne, Bool.not_eq_false', decide_eq_true_eq, decide_eq_false_iff_not, not_lt]
  constructor
  · rintro ⟨hrecipient, hpos, coin, ⟨haddress, rfl⟩, hle, hsend⟩
    exact ⟨hrecipient, hpos, haddress, hle, hsend⟩
  · rintro ⟨hrecipient, hpos, haddress, hle, hsend⟩
    exact ⟨hrecipient, hpos, _, ⟨haddress, rfl⟩, hle, hsend⟩

structure Snapshot (env : Env World) (s : State World) (height : UInt64) (p : PeriodState)
    (bonded balance provision : SdkInt) : Prop where
  bonded_read : env.totalValidatorPower s.world = .ok bonded
  bonded_nonneg : 0 ≤ bonded.value
  balance_value : balance.value = treasury env s.world
  opened : p.Opened height bonded balance (getParams s.store) provision

theorem snapshotPeriod_ok {blockHeight : Int64} {p : PeriodState}
    (h : (snapshotPeriod env blockHeight).run s = .ok p t) :
    (∃ bonded balance provision, Snapshot env s blockHeight.toUInt64 p bonded balance provision) ∧
      t = { s with store := s.store.set periodStateKey p.encode } := by
  simp only [snapshotPeriod, run_lift_bind, run_get_bind, failIf_eq_ok, exists_const, passOn_eq_ok,
    balance_eq_ok, run_bind_eq_ok (setPeriodState _), setPeriodState_eq_ok, run_pure_eq_ok,
    SdkInt.isNegative, decide_eq_false_iff_not, not_lt] at h
  obtain ⟨-, bonded, hbonded, hnonneg, coin, ⟨-, rfl⟩, -, q, hnew, r, ⟨-, rfl⟩, rfl, rfl⟩ := h
  obtain ⟨provision, hopened⟩ := newPeriodState_ok hnew
  exact ⟨⟨bonded, _, provision, hbonded, hnonneg, rfl, hopened⟩, rfl⟩

-- The period in force at a height: the stored one, or a new one.
inductive Active (env : Env World) (s : State World) (height : UInt64) (p : PeriodState) :
    State World → Prop
  | stored (found : getPeriodState s.store = .ok (some p)) (running : height < p.endBlock) :
      Active env s height p s
  | opened (closed : ∃ found, getPeriodState s.store = .ok found ∧
        ∀ q, found = some q → q.endBlock ≤ height)
      (bonded balance provision : SdkInt)
      (snapshot : Snapshot env s height p bonded balance provision) :
      Active env s height p { s with store := s.store.set periodStateKey p.encode }

theorem activePeriod_ok {blockHeight : Int64} {p : PeriodState}
    (h : (activePeriod env blockHeight blockHeight.toUInt64).run s = .ok p t) :
    Active env s blockHeight.toUInt64 p t := by
  rw [activePeriod, run_get_bind, run_lift_bind] at h
  obtain ⟨found, hfound, h⟩ := h
  cases found with
  | none =>
    obtain ⟨⟨bonded, balance, provision, hsnapshot⟩, rfl⟩ := snapshotPeriod_ok h
    exact .opened ⟨none, hfound, by simp⟩ bonded balance provision hsnapshot
  | some q =>
    simp only at h
    split at h
    case isTrue hended =>
      obtain ⟨⟨bonded, balance, provision, hsnapshot⟩, rfl⟩ := snapshotPeriod_ok h
      exact .opened ⟨some q, hfound, by simpa using hended⟩ bonded balance provision hsnapshot
    case isFalse hopen =>
      rw [run_pure_eq_ok] at h
      obtain ⟨rfl, rfl⟩ := h
      exact .stored hfound (by simpa using hopen)

theorem Active.sound {height : UInt64} {p : PeriodState} (h : Active env s height p t) :
    getPeriodState t.store = .ok (some p) ∧ ∃ snapshot provision paid,
      p.Sound snapshot provision paid := by
  cases h with
  | stored found running =>
    exact ⟨found, (PeriodState.validate_eq_ok p).mp (getPeriodState_sound found)⟩
  | opened closed bonded balance provision snapshot =>
    have hsound : ∃ snapshot provision paid, p.Sound snapshot provision paid :=
      ⟨_, _, _, snapshot.opened.sound⟩
    exact ⟨getPeriodState_set _ _ ((PeriodState.validate_eq_ok p).mpr hsound), hsound⟩

def PeriodState.elapsed (p : PeriodState) (height : Nat) : Int :=
  height - p.startBlock.toNat + 1

def PeriodState.length (p : PeriodState) : Int :=
  p.endBlock.toNat - p.startBlock.toNat

theorem toNat_elapsed {p : PeriodState} {height : UInt64} (hs : p.startBlock ≤ height)
    (he : height < p.endBlock) :
    ((height - p.startBlock + 1).toNat : Int) = p.elapsed height.toNat ∧
      ((p.endBlock - p.startBlock).toNat : Int) = p.length ∧
      height - p.startBlock + 1 ≤ p.endBlock - p.startBlock := by
  have hse : p.startBlock ≤ p.endBlock := UInt64.le_of_lt (UInt64.lt_of_le_of_lt hs he)
  have hsub := UInt64.toNat_sub_of_le _ _ hs
  have hsub' := UInt64.toNat_sub_of_le _ _ hse
  have hend := p.endBlock.toNat_lt
  rw [UInt64.le_iff_toNat_le] at hs
  rw [UInt64.lt_iff_toNat_lt] at he
  have hadd : (height - p.startBlock + 1).toNat = height.toNat - p.startBlock.toNat + 1 := by
    rw [UInt64.toNat_add, hsub, show (1 : UInt64).toNat = 1 from rfl, Nat.mod_eq_of_lt]
    omega
  refine ⟨?_, ?_, ?_⟩
  · rw [hadd, PeriodState.elapsed]
    omega
  · rw [hsub', PeriodState.length]
    omega
  · rw [UInt64.le_iff_toNat_le, hadd, hsub']
    omega

theorem PeriodState.Sound.length_pos {p : PeriodState} {snapshot provision paid : SdkInt}
    (h : p.Sound snapshot provision paid) : 0 < p.length := by
  have hordered := UInt64.lt_iff_toNat_lt.mp h.ordered
  rw [PeriodState.length]
  omega

theorem dueAmount_eq_ok {p : PeriodState} {height : UInt64} {snapshot provision paid : SdkInt}
    (hs : p.Sound snapshot provision paid) (amount : SdkInt) :
    dueAmount p height = .ok amount ↔ p.startBlock ≤ height ∧ height < p.endBlock ∧
      provision.value * p.elapsed height.toNat < 2 ^ 256 ∧
      amount.value = share provision.value (p.elapsed height.toNat) p.length - paid.value ∧
      0 ≤ amount.value := by
  simp only [dueAmount, Check.bind_eq_ok, failIf_eq_ok, exists_const, hs.provision_read, hs.paid_read,
    Except.ok.injEq, exists_eq_left', cumulativeProvision_eq_ok, SdkInt.sub_eq_ok, Check.pure_eq_ok,
    Bool.or_eq_false_iff, decide_eq_false_iff_not, UInt64.not_lt, ge_iff_le, UInt64.not_le,
    SdkInt.isNegative, not_lt, and_assoc]
  refine and_congr_right fun hstart => and_congr_right fun hend => ?_
  obtain ⟨helapsed, hlength, hle⟩ := toNat_elapsed hstart hend
  have hnonneg : 0 ≤ provision.value := hs.paid_nonneg.trans hs.paid_le
  have hperiod : p.endBlock - p.startBlock ≠ 0 := by
    intro hz
    have hpos := hs.length_pos
    rw [← hlength, hz] at hpos
    exact absurd hpos (by decide)
  rw [helapsed, hlength]
  constructor
  · rintro ⟨target, -, -, -, hbound, htarget, difference, hdifference, hdue, rfl⟩
    exact ⟨hbound, by rw [hdifference, htarget], hdue⟩
  · rintro ⟨hbound, hamount, hdue⟩
    have hpos : 0 ≤ p.elapsed height.toNat := by
      rw [← helapsed]
      exact Int.natCast_nonneg _
    obtain ⟨target, htarget⟩ := exists_share hnonneg hpos hs.length_pos hbound
    exact ⟨target, hnonneg, hperiod, hle, hbound, htarget, amount, by rw [hamount, htarget], hdue, rfl⟩

def PeriodState.withPaid (p : PeriodState) (paid : SdkInt) : PeriodState :=
  { p with distributedAtomic := paid.toText }

theorem PeriodState.Sound.withPaid {p : PeriodState} {snapshot provision paid : SdkInt}
    (h : p.Sound snapshot provision paid) {sum : SdkInt} (hs : 0 ≤ sum.value)
    (hle : sum.value ≤ provision.value) : (p.withPaid sum).Sound snapshot provision sum where
  ordered := h.ordered
  rate_le := h.rate_le
  snapshot_read := h.snapshot_read
  provision_read := h.provision_read
  paid_read := parseAtomicAmount_toText sum hs
  others_read := h.others_read
  paid_nonneg := hs
  paid_le := hle
  provision_le := h.provision_le

theorem getTotalDistributed_nonneg {store : KVStore} {total : SdkInt}
    (h : getTotalDistributed store = .ok total) : 0 ≤ total.value := by
  rw [getTotalDistributed] at h
  split at h
  · rw [Check.pure_eq_ok] at h
    rw [← h]
    exact le_refl 0
  · simp only [Check.bind_eq_ok, failIf_eq_ok, exists_const, Check.pure_eq_ok, SdkInt.isNegative,
      decide_eq_false_iff_not, not_lt] at h
    obtain ⟨amount, -, hnonneg, rfl⟩ := h
    exact hnonneg

theorem remainingProvision_eq_ok {p : PeriodState} {snapshot provision paid : SdkInt}
    (hs : p.Sound snapshot provision paid) (remaining : SdkInt) :
    p.remainingProvision = .ok remaining ↔ remaining.value = provision.value - paid.value := by
  have hvalid : p.validate = .ok () := (PeriodState.validate_eq_ok p).mpr ⟨_, _, _, hs⟩
  simp only [PeriodState.remainingProvision, Check.bind_eq_ok, hvalid, hs.provision_read, hs.paid_read,
    Except.ok.injEq, exists_eq_left', SdkInt.sub_eq_ok, exists_const, true_and]

def recorded (store : KVStore) (p : PeriodState) (paid total : SdkInt) : KVStore :=
  (store.set periodStateKey (p.withPaid paid).encode).set totalDistributedKey (Bytes.utf8 total.toText)

theorem recordDistribution_eq_ok {p : PeriodState} {snapshot provision paid total amount : SdkInt}
    {u : Unit} (hfound : getPeriodState s.store = .ok (some p)) (hs : p.Sound snapshot provision paid)
    (ht : getTotalDistributed s.store = .ok total) :
    (recordDistribution amount).run s = .ok u t ↔
      0 < amount.value ∧ amount.value ≤ provision.value - paid.value ∧
        ∃ sum newTotal : SdkInt, sum.value = paid.value + amount.value ∧
          newTotal.value = total.value + amount.value ∧
          t = { s with store := recorded s.store p sum newTotal } := by
  have htotal := getTotalDistributed_nonneg ht
  simp only [recordDistribution, run_lift_bind, run_get_bind, failIf_eq_ok, exists_const, hfound, ht,
    hs.paid_read, Except.ok.injEq, exists_eq_left', orFail_eq_ok, Option.some.injEq,
    remainingProvision_eq_ok hs, SdkInt.add_eq_ok, run_bind_eq_ok (setPeriodState _),
    setPeriodState_eq_ok, setTotalDistributed_eq_ok, SdkInt.isPositive, SdkInt.gt,
    Bool.not_eq_false', decide_eq_true_eq, decide_eq_false_iff_not, not_lt]
  refine and_congr_right fun hpos => ?_
  constructor
  · rintro ⟨remaining, hremaining, hle, sum, hsum, r, ⟨-, rfl⟩, newTotal, hnew, -, rfl⟩
    exact ⟨by omega, sum, newTotal, hsum, hnew, rfl⟩
  · rintro ⟨hle, sum, newTotal, hsum, hnew, rfl⟩
    have hpaid := hs.paid_nonneg
    have hprovision := provision.bounded
    have hvalid : (p.withPaid sum).validate = .ok () :=
      (PeriodState.validate_eq_ok _).mpr ⟨_, _, _, hs.withPaid (by omega) (by omega)⟩
    refine ⟨⟨provision.value - paid.value, by omega⟩, rfl, hle, sum, hsum, _, ⟨hvalid, rfl⟩,
      newTotal, hnew, by omega, rfl⟩

inductive Transferred (env : Env World) (recipient : String) (world : World) :
    Int → World → Prop
  | nothing : Transferred env recipient world 0 world
  | sent (amount : SdkInt) (next : World) (positive : 0 < amount.value)
      (send : (env.sendCoinsFromModuleToModule treasuryAccountName recipient
        ⟨incentiveDenom, amount⟩).run world = .ok () next) :
      Transferred env recipient world amount.value next

structure Processed (env : Env World) (recipient : String) (height : UInt64) (s t : State World)
    (total : SdkInt) (p : PeriodState) (snapshot provision paid target newTotal : SdkInt) : Prop where
  active : ∃ r, Active env s height p r
  sound : p.Sound snapshot provision paid
  start_le : p.startBlock ≤ height
  lt_end : height < p.endBlock
  target_eq : target.value = share provision.value (p.elapsed height.toNat) p.length
  paid_le : paid.value ≤ target.value
  newTotal_eq : newTotal.value = total.value + (target.value - paid.value)
  period_after : ∃ q, getPeriodState t.store = .ok (some q) ∧ q.Sound snapshot provision target ∧
    q.startBlock = p.startBlock ∧ q.endBlock = p.endBlock
  total_after : getTotalDistributed t.store = .ok newTotal
  params_after : getParams t.store = getParams s.store
  authority_after : getAuthority t.store = getAuthority s.store
  transferred : Transferred env recipient s.world (target.value - paid.value) t.world

theorem Active.frame {height : UInt64} {p : PeriodState} (h : Active env s height p t) :
    getTotalDistributed t.store = getTotalDistributed s.store ∧
      getParams t.store = getParams s.store ∧ getAuthority t.store = getAuthority s.store ∧
      t.world = s.world := by
  cases h with
  | stored found running => exact ⟨rfl, rfl, rfl, rfl⟩
  | opened closed bonded balance provision snapshot =>
    exact ⟨getTotalDistributed_of_ne _ (by decide), getParams_of_ne _ (by decide),
      getAuthority_of_ne _ (by decide), rfl⟩

theorem recorded_reads (store : KVStore) {p : PeriodState} {snapshot provision paid total : SdkInt}
    (hs : (p.withPaid paid).Sound snapshot provision paid) (ht : 0 ≤ total.value) :
    getPeriodState (recorded store p paid total) = .ok (some (p.withPaid paid)) ∧
      getTotalDistributed (recorded store p paid total) = .ok total ∧
      getParams (recorded store p paid total) = getParams store ∧
      getAuthority (recorded store p paid total) = getAuthority store := by
  have hvalid : (p.withPaid paid).validate = .ok () :=
    (PeriodState.validate_eq_ok _).mpr ⟨_, _, _, hs⟩
  refine ⟨?_, getTotalDistributed_set _ _ ht, ?_, ?_⟩
  · rw [recorded, getPeriodState_of_ne _ (by decide), getPeriodState_set _ _ hvalid]
  · rw [recorded, getParams_of_ne _ (by decide), getParams_of_ne _ (by decide)]
  · rw [recorded, getAuthority_of_ne _ (by decide), getAuthority_of_ne _ (by decide)]

theorem processBlock_ok {blockHeight : Int64} {recipient : String} {total : SdkInt}
    (ht : getTotalDistributed s.store = .ok total)
    (h : (processBlock env blockHeight recipient).run s = .ok () t) :
    ∃ p snapshot provision paid target newTotal, Processed env recipient blockHeight.toUInt64 s t total
      p snapshot provision paid target newTotal := by
  simp only [processBlock, run_lift_bind, failIf_eq_ok, exists_const,
    run_bind_eq_ok (activePeriod _ _ _)] at h
  obtain ⟨-, p, r, hactive, amount, hdue, h⟩ := h
  replace hactive := activePeriod_ok hactive
  obtain ⟨hfound, snapshot, provision, paid, hsound⟩ := hactive.sound
  obtain ⟨htotal, hparams, hauthority, hworld⟩ := hactive.frame
  obtain ⟨hstart, hend, -, hamount, hnonneg⟩ := (dueAmount_eq_ok hsound amount).mp hdue
  rw [ht] at htotal
  split at h
  case isTrue hzero =>
    have hz : amount.value = 0 := by simpa [SdkInt.isZero] using hzero
    rw [run_pure_eq_ok] at h
    obtain ⟨-, rfl⟩ := h
    have htarget : paid.value = share provision.value (p.elapsed blockHeight.toUInt64.toNat) p.length := by
      omega
    refine ⟨p, snapshot, provision, paid, paid, total, ⟨_, hactive⟩, hsound, hstart, hend, htarget,
      le_refl _, by omega, ⟨p, hfound, hsound, rfl, rfl⟩, htotal, hparams, hauthority, ?_⟩
    rw [hworld, Int.sub_self]
    exact .nothing
  case isFalse hzero =>
    rw [run_bind_eq_ok] at h
    obtain ⟨⟨⟩, r', hsend, hrecord⟩ := h
    obtain ⟨-, hpos, -, -, world, hmoved, rfl⟩ := (sendToModule_eq_ok recipient amount).mp hsend
    obtain ⟨-, hle, sum, newTotal, hsum, hnew, rfl⟩ :=
      (recordDistribution_eq_ok (s := ⟨r.store, world⟩) hfound hsound htotal).mp hrecord
    have hpaid := hsound.paid_nonneg
    have hnonneg := getTotalDistributed_nonneg htotal
    have hsound' := PeriodState.Sound.withPaid hsound (show 0 ≤ sum.value by omega) (by omega)
    obtain ⟨hperiod', htotal', hparams', hauthority'⟩ :=
      recorded_reads r.store hsound' (show 0 ≤ newTotal.value by omega)
    refine ⟨p, snapshot, provision, paid, sum, newTotal, ⟨_, hactive⟩, hsound, hstart, hend, by omega,
      by omega, by omega, ⟨_, hperiod', hsound', rfl, rfl⟩, htotal', hparams'.trans hparams,
      hauthority'.trans hauthority, ?_⟩
    rw [hworld] at hmoved
    have hdifference : sum.value - paid.value = amount.value := by omega
    rw [hdifference]
    exact .sent amount world hpos hmoved

end Period

end PosChain.Incentives
