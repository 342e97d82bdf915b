import PosChain.Incentives.Chain

namespace PosChain.Incentives

open Run (run accepted)

section Statement

variable {World : Type} (env : Env World)

-- A transfer to the fee collector takes exactly its amount from the treasury.
def MovesExactly : Prop :=
  ∀ amount world next, (env.sendCoinsFromModuleToModule treasuryAccountName feeCollectorName
    ⟨incentiveDenom, amount⟩).run world = .ok () next →
    treasury env next = treasury env world - amount.value

-- The payments of a stored period. The last height is the one before the next
-- block; deposits after the snapshot are those from the height after the start.
structure Released (c : Chain World) (log : List Outcome) (p : PeriodState)
    (snapshot provision paid : SdkInt) : Prop where
  sound : p.Sound snapshot provision paid
  started : p.startBlock.toNat < c.height
  running : c.height ≤ p.endBlock.toNat
  paid_eq : paid.value = paidFrom p.startBlock.toNat log
  released : ∀ last, c.height = last + 1 → paidFrom p.startBlock.toNat log =
    provision.value * (last - p.startBlock.toNat + 1) / (p.endBlock.toNat - p.startBlock.toNat)
  completed : c.height = p.endBlock.toNat → paidFrom p.startBlock.toNat log = provision.value
  within : paidFrom p.startBlock.toNat log ≤ snapshot.value
  snapshot_eq : snapshot.value + depositedFrom (p.startBlock.toNat + 1) log =
    treasury env c.state.world + paidFrom p.startBlock.toNat log

structure Accounted (first : Nat) (balance : Int) (c : Chain World) (log : List Outcome) : Prop where
  paid_lt : ∀ moment amount, .paid moment amount ∈ log → moment < c.height
  deposited_le : ∀ moment amount, .deposited moment amount ∈ log → moment ≤ c.height
  period : ∃ found, getPeriodState c.state.store = .ok found ∧ (found = none → c.height = first) ∧
    ∀ p, found = some p → ∃ snapshot provision paid, Released env c log p snapshot provision paid
  total : ∃ total, getTotalDistributed c.state.store = .ok total ∧ total.value = paidFrom 0 log
  balanced : treasury env c.state.world + paidFrom 0 log = balance + depositedFrom 0 log

end Statement

section Genesis

theorem getPeriodState_genesisStore (authority : String) (params : Params) :
    getPeriodState (genesisStore authority params) = .ok none := by
  have hget : (genesisStore authority params).get periodStateKey = [] := by
    rw [genesisStore]
    split <;> simp [periodStateKey, paramsKey, totalDistributedKey, authorityKey]
  rw [getPeriodState, hget]
  rfl

theorem getTotalDistributed_genesisStore (authority : String) (params : Params) :
    getTotalDistributed (genesisStore authority params) = .ok SdkInt.zeroInt := by
  rw [genesisStore]
  split
  · rw [getTotalDistributed_of_ne _ (by decide), getTotalDistributed_set _ _ (le_refl 0)]
  · exact getTotalDistributed_set _ _ (le_refl 0)

variable {World : Type} {env : Env World}

theorem Started.accounted {g : GenesisState} {world : World} {c : Chain World}
    (h : Started env g world c) : Accounted env c.height (treasury env world) c [] := by
  obtain ⟨-, -, hstate⟩ := (initGenesis_eq_ok g world c.state).mp h
  refine ⟨by simp, by simp, ⟨none, ?_, fun _ => rfl, by simp⟩, ⟨SdkInt.zeroInt, ?_, rfl⟩, ?_⟩
  · rw [hstate]
    exact getPeriodState_genesisStore g.authority g.params
  · rw [hstate]
    exact getTotalDistributed_genesisStore g.authority g.params
  · simp [hstate]

end Genesis

section Step

variable {World : Type} {env : Env World}

theorem Transferred.treasury_eq (hm : MovesExactly env) {world next : World} {amount : Int}
    (h : Transferred env feeCollectorName world amount next) :
    treasury env next = treasury env world - amount := by
  cases h with
  | nothing => rw [Int.sub_zero]
  | sent amount next positive send => exact hm amount world next send

theorem toNat_height {height : Nat} (h : height < 2 ^ 63) :
    (Int64.ofNat height).toUInt64.toNat = height := by
  have hcast : (Int64.ofNat height).toUInt64 = UInt64.ofNat height := rfl
  rw [hcast, UInt64.toNat_ofNat', Nat.mod_eq_of_lt (by omega)]

theorem Active.paid_eq {first : Nat} {balance : Int} {c : Chain World} {log : List Outcome}
    (ha : Accounted env first balance c log) {height : UInt64} (hh : height.toNat = c.height)
    {p : PeriodState} {r : State World} (h : Active env c.state height p r)
    {snapshot provision paid : SdkInt} (hs : p.Sound snapshot provision paid) :
    paid.value = paidFrom p.startBlock.toNat log ∧
      snapshot.value + depositedFrom (p.startBlock.toNat + 1) log =
        treasury env c.state.world + paidFrom p.startBlock.toNat log := by
  cases h with
  | stored found running =>
    obtain ⟨_, hfound, -, hreleased⟩ := ha.period
    obtain rfl := Except.ok.inj (hfound.symm.trans found)
    obtain ⟨snapshot', provision', paid', hr⟩ := hreleased p rfl
    obtain rfl := Except.ok.inj (hs.snapshot_read.symm.trans hr.sound.snapshot_read)
    obtain rfl := Except.ok.inj (hs.paid_read.symm.trans hr.sound.paid_read)
    exact ⟨hr.paid_eq, hr.snapshot_eq⟩
  | opened closed bonded balance provision' hsnapshot =>
    have ho := hsnapshot.opened
    obtain rfl := Except.ok.inj (hs.snapshot_read.symm.trans ho.sound.snapshot_read)
    obtain rfl := Except.ok.inj (hs.paid_read.symm.trans ho.sound.paid_read)
    -- Nothing has been paid or deposited from this height on.
    have hpaid : paidFrom p.startBlock.toNat log = 0 := by
      apply sumFrom_eq_zero
      rintro (⟨moment, amount⟩ | _ | _) hmem _ ⟨⟩
      rw [ho.start_eq, hh]
      exact ha.paid_lt moment amount hmem
    have hdeposited : depositedFrom (p.startBlock.toNat + 1) log = 0 := by
      apply sumFrom_eq_zero
      rintro (_ | ⟨moment, amount⟩ | _) hmem _ ⟨⟩
      rw [ho.start_eq, hh]
      exact Nat.lt_succ_of_le (ha.deposited_le moment amount hmem)
    rw [hpaid, hdeposited, hsnapshot.balance_value]
    exact ⟨rfl, rfl⟩

theorem Accounted.block (hm : MovesExactly env) {first : Nat} {balance : Int} {c : Chain World}
    {log : List Outcome} (ha : Accounted env first balance c log) (hlt : c.height < 2 ^ 63) {next : State World}
    (h : (processBlock env (Int64.ofNat c.height) feeCollectorName).run c.state = .ok () next) :
    Accounted env first balance ⟨next, c.height + 1⟩
      (log ++ [.paid c.height (treasury env c.state.world - treasury env next.world)]) := by
  obtain ⟨total, htotal, htotalValue⟩ := ha.total
  obtain ⟨p, snapshot, provision, paid, target, newTotal, hb⟩ := processBlock_ok htotal h
  obtain ⟨r, hactive⟩ := hb.active
  have hheight := toNat_height hlt
  obtain ⟨hpaid, hsnapshot⟩ := hactive.paid_eq ha hheight hb.sound
  obtain ⟨q, hq, hqsound, hqstart, hqend⟩ := hb.period_after
  have hmoved := hb.transferred.treasury_eq hm
  have hamount : treasury env c.state.world - treasury env next.world = target.value - paid.value := by
    omega
  have hstart : p.startBlock.toNat ≤ c.height := by
    rw [← hheight]
    exact UInt64.le_iff_toNat_le.mp hb.start_le
  have hend : c.height < p.endBlock.toNat := by
    rw [← hheight]
    exact UInt64.lt_iff_toNat_lt.mp hb.lt_end
  rw [hamount]
  have hsum : paidFrom p.startBlock.toNat (log ++ [.paid c.height (target.value - paid.value)]) =
      target.value := by
    rw [paidFrom_paid, if_pos hstart, ← hpaid]
    omega
  refine ⟨?_, ?_, ⟨some q, hq, by simp, ?_⟩, ⟨newTotal, hb.total_after, ?_⟩, ?_⟩
  · intro moment amount hmem
    rcases List.mem_append.mp hmem with hmem | hmem
    · exact Nat.lt_succ_of_lt (ha.paid_lt moment amount hmem)
    · cases List.mem_singleton.mp hmem
      exact Nat.lt_succ_self _
  · intro moment amount hmem
    rcases List.mem_append.mp hmem with hmem | hmem
    · exact Nat.le_succ_of_le (ha.deposited_le moment amount hmem)
    · cases List.mem_singleton.mp hmem
  · rintro _ ⟨⟩
    have hreleased := hb.target_eq
    rw [hheight] at hreleased
    refine ⟨snapshot, provision, target, hqsound, ?_, ?_, ?_, ?_, ?_, ?_, ?_⟩
    · rw [hqstart]
      exact Nat.lt_succ_of_le hstart
    · rw [hqend]
      exact hend
    · rw [hqstart, hsum]
    · rintro last ⟨⟩
      rw [hqstart, hqend, hsum, hreleased]
      rfl
    · intro hlast
      replace hlast : c.height + 1 = p.endBlock.toNat := by rw [← hqend]; exact hlast
      have helapsed : p.elapsed c.height = p.length := by
        rw [PeriodState.elapsed, PeriodState.length, ← hlast]
        omega
      rw [hqstart, hsum, hreleased, helapsed, share_all _ hb.sound.length_pos]
    · rw [hqstart, hsum]
      exact hqsound.paid_le.trans hqsound.provision_le
    · rw [hqstart, hsum, depositedFrom_paid]
      dsimp only
      omega
  · rw [paidFrom_paid, if_pos (Nat.zero_le _), hb.newTotal_eq, htotalValue]
  · have hbalanced := ha.balanced
    rw [paidFrom_paid, if_pos (Nat.zero_le _), depositedFrom_paid]
    dsimp only
    omega

theorem Accounted.keep {first : Nat} {balance : Int} {c : Chain World} {log : List Outcome}
    (ha : Accounted env first balance c log) {next : State World} {outcome : Outcome} {a : Int}
    (hperiod : getPeriodState next.store = getPeriodState c.state.store)
    (htotal : getTotalDistributed next.store = getTotalDistributed c.state.store)
    (hworld : treasury env next.world = treasury env c.state.world + a)
    (hpaid : ∀ moment, paidFrom moment (log ++ [outcome]) = paidFrom moment log)
    (hdeposited : ∀ moment ≤ c.height,
      depositedFrom moment (log ++ [outcome]) = depositedFrom moment log + a)
    (hnot : ∀ moment value, .paid moment value ≠ outcome)
    (hmoment : ∀ moment value, .deposited moment value = outcome → moment ≤ c.height) :
    Accounted env first balance ⟨next, c.height⟩ (log ++ [outcome]) := by
  obtain ⟨found, hfound, hfresh, hreleased⟩ := ha.period
  have hbalanced := ha.balanced
  refine ⟨?_, ?_, ⟨found, hperiod.trans hfound, hfresh, ?_⟩, ?_, ?_⟩
  · intro moment value hmem
    rcases List.mem_append.mp hmem with hmem | hmem
    · exact ha.paid_lt moment value hmem
    · exact absurd (List.mem_singleton.mp hmem) (hnot moment value)
  · intro moment value hmem
    rcases List.mem_append.mp hmem with hmem | hmem
    · exact ha.deposited_le moment value hmem
    · exact hmoment moment value (List.mem_singleton.mp hmem)
  · intro p hp
    obtain ⟨snapshot, provision, paid, hr⟩ := hreleased p hp
    have hsnapshot := hr.snapshot_eq
    refine ⟨snapshot, provision, paid, hr.sound, hr.started, hr.running, ?_, ?_, ?_, ?_, ?_⟩
    · rw [hpaid]
      exact hr.paid_eq
    · intro last hlast
      rw [hpaid]
      exact hr.released last hlast
    · intro hlast
      rw [hpaid]
      exact hr.completed hlast
    · rw [hpaid]
      exact hr.within
    · rw [hpaid, hdeposited (p.startBlock.toNat + 1) hr.started]
      dsimp only
      omega
  · rw [hpaid, htotal]
    exact ha.total
  · rw [hpaid, hdeposited 0 (Nat.zero_le _)]
    dsimp only
    omega

theorem Accounted.step (hm : MovesExactly env) {first : Nat} {balance : Int} {c next : Chain World}
    {log : List Outcome} {event : Event World} {outcome : Outcome}
    (h : Stepped env c event outcome next) (ha : Accounted env first balance c log) :
    Accounted env first balance next (log ++ [outcome]) := by
  cases h with
  | block height_lt next processed => exact ha.block hm height_lt processed
  | updateParams message params valid =>
    refine ha.keep (a := 0) (getPeriodState_of_ne _ (by decide))
      (getTotalDistributed_of_ne _ (by decide)) (by simp) (by simp) (by simp) (by simp) (by simp)
  | other world kept =>
    refine ha.keep (a := treasury env world - treasury env c.state.world) rfl rfl (by simp) (by simp)
      ?_ (by simp) ?_
    · intro moment hmoment
      rw [depositedFrom_deposited, if_pos hmoment]
    · rintro moment value ⟨⟩
      exact le_refl _

end Step

theorem incentives_books {World : Type} {env : Env World} (hm : MovesExactly env)
    {g : GenesisState} {world : World} {c : Chain World} (hc : Started env g world c)
    (events : List (Event World)) :
    Accounted env c.height (treasury env world) (run (step env) c events)
      (outcomes (accepted (step env) c events)) := by
  refine Run.run_history (fun s log => Accounted env c.height (treasury env world) s (outcomes log))
    ?_ c events [] hc.accounted
  intro s log event outcome next hstep ha
  rw [outcomes, List.map_append]
  exact ha.step hm (step_ok hstep)

-- The three parts of the accounting, for a chain and what has happened on it.
def AccountsFor {World : Type} (env : Env World) (first : Nat) (balance : Int) (c : Chain World)
    (log : List Outcome) : Prop :=
  (∃ total, getTotalDistributed c.state.store = .ok total ∧ total.value = paidFrom 0 log ∧
    treasury env c.state.world + total.value = balance + depositedFrom 0 log) ∧
  ((getPeriodState c.state.store = .ok none ∧ c.height = first) ∨
    ∃ p snapshot provision last, getPeriodState c.state.store = .ok (some p) ∧
      parseAtomicAmount p.treasuryBalanceAtomic = .ok snapshot ∧
      parseAtomicAmount p.periodProvisionAtomic = .ok provision ∧
      c.height = last + 1 ∧ p.startBlock.toNat ≤ last ∧ last < p.endBlock.toNat ∧
      paidFrom p.startBlock.toNat log = provision.value * (last - p.startBlock.toNat + 1) /
        (p.endBlock.toNat - p.startBlock.toNat) ∧
      (last + 1 = p.endBlock.toNat → paidFrom p.startBlock.toNat log = provision.value) ∧
      paidFrom p.startBlock.toNat log ≤ snapshot.value ∧
      snapshot.value + depositedFrom (p.startBlock.toNat + 1) log =
        treasury env c.state.world + paidFrom p.startBlock.toNat log)

-- Along every run from a genesis the module has paid what the periods released,
-- its total is what it has paid, and the treasury has lost nothing else.
theorem incentives_accounted {World : Type} (env : Env World) (hm : MovesExactly env)
    (g : GenesisState) (world : World) (c : Chain World) (hc : Started env g world c)
    (events : List (Event World)) :
    AccountsFor env c.height (treasury env world) (run (step env) c events)
      (outcomes (accepted (step env) c events)) := by
  have hbooks := incentives_books hm hc events
  obtain ⟨total, htotal, hvalue⟩ := hbooks.total
  refine ⟨⟨total, htotal, hvalue, by rw [hvalue]; exact hbooks.balanced⟩, ?_⟩
  obtain ⟨found, hfound, hfresh, hreleased⟩ := hbooks.period
  cases found with
  | none => exact Or.inl ⟨hfound, hfresh rfl⟩
  | some p =>
    obtain ⟨snapshot, provision, paid, hr⟩ := hreleased p rfl
    have hstarted := hr.started
    have hrunning := hr.running
    obtain ⟨last, hlast⟩ : ∃ last, (run (step env) c events).height = last + 1 :=
      Nat.exists_eq_succ_of_ne_zero (by omega)
    exact Or.inr ⟨p, snapshot, provision, last, hfound, hr.sound.snapshot_read,
      hr.sound.provision_read, hlast, by omega, by omega, hr.released last hlast,
      fun hend => hr.completed (hlast.trans hend), hr.within, hr.snapshot_eq⟩

-- The rest of a chain with one account of interest and some bonded stake.
structure Purse where
  balance : Nat
  stake : Nat
  balance_lt : balance < 2 ^ 256
  stake_lt : stake < 2 ^ 256

def Purse.env : Env Purse where
  accAddressFromBech32 text :=
    if text = "xtc1qurswpc8qurswpc8qurswpc8qurswpc8cda56t" then .ok (List.replicate 20 7)
    else .error "decoding bech32 failed"
  getModuleAddress _ := List.replicate 20 9
  getBalance purse _ denom := ⟨denom, ⟨purse.balance, purse.balance_lt⟩⟩
  sendCoinsFromModuleToModule _ _ coin := do
    let purse ← get
    failIf (!coin.amount.isPositive) "invalid coins"
    failIf (purse.balance < coin.amount.value) "insufficient funds"
    set { purse with balance := purse.balance - coin.amount.value.toNat,
                     balance_lt := lt_of_le_of_lt (Nat.sub_le _ _) purse.balance_lt }
  totalValidatorPower purse := .ok ⟨purse.stake, purse.stake_lt⟩

theorem Purse.send_eq_ok (sender recipient : String) (coin : Coin) (purse next : Purse) :
    (Purse.env.sendCoinsFromModuleToModule sender recipient coin).run purse = .ok () next ↔
      0 < coin.amount.value ∧ coin.amount.value ≤ purse.balance ∧
        next = { purse with balance := purse.balance - coin.amount.value.toNat,
                            balance_lt := lt_of_le_of_lt (Nat.sub_le _ _) purse.balance_lt } := by
  simp only [Purse.env, run_get_bind, run_lift_bind, failIf_eq_ok, exists_const, EStateM.run_set,
    EStateM.Result.ok.injEq, true_and, SdkInt.isPositive, Bool.not_eq_false', decide_eq_true_eq,
    decide_eq_false_iff_not, not_lt, @eq_comm Purse next]

theorem Purse.movesExactly : MovesExactly Purse.env := by
  intro amount purse next h
  obtain ⟨hpos, hle, rfl⟩ := (Purse.send_eq_ok _ _ _ _ _).mp h
  simp only [treasury, Purse.env]
  dsimp only at hpos hle
  omega

def somePurse : Purse :=
  ⟨10 ^ 24, 10 ^ 24, by decide, by decide⟩

def richerPurse : Purse :=
  ⟨10 ^ 25, 10 ^ 24, by decide, by decide⟩

def freshChain (g : GenesisState) : Chain Purse :=
  ⟨⟨genesisStore g.authority g.params, somePurse⟩, 1⟩

theorem freshChain_started {g : GenesisState} (hv : g.validate Purse.env = .ok ())
    (hp : g.params.validate = .ok ()) : Started Purse.env g somePurse (freshChain g) :=
  (initGenesis_eq_ok g somePurse _).mpr ⟨hv, hp, rfl⟩

theorem default_run_accounted :
    AccountsFor Purse.env 1 (10 ^ 24)
      (run (step Purse.env) (freshChain defaultGenesisState) [.block, .other richerPurse, .block])
      (outcomes (accepted (step Purse.env) (freshChain defaultGenesisState)
        [.block, .other richerPurse, .block])) :=
  incentives_accounted Purse.env Purse.movesExactly defaultGenesisState somePurse _
    (freshChain_started (by decide +kernel) (by decide +kernel)) _

end PosChain.Incentives
