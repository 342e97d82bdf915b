import PosChain.Base.Run
import PosChain.Incentives.Keeper.Theorems

namespace PosChain.Incentives

structure Chain (World : Type) where
  state : State World
  height : Nat

-- Besides blocks and parameter updates, the rest of the chain may change in any
-- way that does not debit the treasury: deposits, delegations and all else.
inductive Event (World : Type) where
  | block
  | updateParams (message : MsgUpdateParams)
  | other (world : World)

-- What an event does to the treasury, with the height of the next block.
inductive Outcome where
  | paid (height : Nat) (amount : Int)
  | deposited (height : Nat) (amount : Int)
  | updated
  deriving DecidableEq, Repr

section Step

variable {World : Type} (env : Env World)

-- Heights are signed 64-bit numbers. A block that fails is not committed, and an
-- update that fails is rolled back.
def step (c : Chain World) : Event World → Option (Outcome × Chain World)
  | .block =>
    if c.height < 2 ^ 63 then
      (kept ((beginBlock env (Int64.ofNat c.height)).run c.state)).map fun answer =>
        (.paid c.height (treasury env c.state.world - treasury env answer.2.world),
          ⟨answer.2, c.height + 1⟩)
    else none
  | .updateParams message =>
    (kept ((MsgServer.updateParams env message).run c.state)).map fun answer =>
      (.updated, { c with state := answer.2 })
  | .other world =>
    if treasury env c.state.world ≤ treasury env world then
      some (.deposited c.height (treasury env world - treasury env c.state.world),
        { c with state := { c.state with world } })
    else none

def Started (g : GenesisState) (world : World) (c : Chain World) : Prop :=
  (initGenesis env g).run ⟨KVStore.empty, world⟩ = .ok () c.state

def outcomes (log : List (Event World × Outcome)) : List Outcome :=
  log.map Prod.snd

end Step

section Sums

def Outcome.payment : Outcome → Option (Nat × Int)
  | .paid moment amount => some (moment, amount)
  | _ => none

def Outcome.deposit : Outcome → Option (Nat × Int)
  | .deposited moment amount => some (moment, amount)
  | _ => none

def sumFrom (entry : Outcome → Option (Nat × Int)) (height : Nat) (log : List Outcome) : Int :=
  ((log.filterMap entry).map fun e => if height ≤ e.1 then e.2 else 0).sum

def paidFrom (height : Nat) (log : List Outcome) : Int :=
  sumFrom Outcome.payment height log

def depositedFrom (height : Nat) (log : List Outcome) : Int :=
  sumFrom Outcome.deposit height log

variable (height : Nat) (log : List Outcome)

@[simp] theorem paidFrom_nil : paidFrom height [] = 0 := rfl

@[simp] theorem depositedFrom_nil : depositedFrom height [] = 0 := rfl

theorem sumFrom_concat (entry : Outcome → Option (Nat × Int)) (outcome : Outcome) :
    sumFrom entry height (log ++ [outcome]) =
      sumFrom entry height log + ((entry outcome).map fun e => if height ≤ e.1 then e.2 else 0).getD 0 := by
  cases h : entry outcome <;> simp [sumFrom, h]

@[simp] theorem paidFrom_paid (moment : Nat) (amount : Int) :
    paidFrom height (log ++ [.paid moment amount]) =
      paidFrom height log + if height ≤ moment then amount else 0 :=
  sumFrom_concat height log _ _

@[simp] theorem paidFrom_deposited (moment : Nat) (amount : Int) :
    paidFrom height (log ++ [.deposited moment amount]) = paidFrom height log :=
  (sumFrom_concat height log _ _).trans (Int.add_zero _)

@[simp] theorem paidFrom_updated : paidFrom height (log ++ [.updated]) = paidFrom height log :=
  (sumFrom_concat height log _ _).trans (Int.add_zero _)

@[simp] theorem depositedFrom_deposited (moment : Nat) (amount : Int) :
    depositedFrom height (log ++ [.deposited moment amount]) =
      depositedFrom height log + if height ≤ moment then amount else 0 :=
  sumFrom_concat height log _ _

@[simp] theorem depositedFrom_paid (moment : Nat) (amount : Int) :
    depositedFrom height (log ++ [.paid moment amount]) = depositedFrom height log :=
  (sumFrom_concat height log _ _).trans (Int.add_zero _)

@[simp] theorem depositedFrom_updated :
    depositedFrom height (log ++ [.updated]) = depositedFrom height log :=
  (sumFrom_concat height log _ _).trans (Int.add_zero _)

variable {height log}

theorem sumFrom_eq_zero {entry : Outcome → Option (Nat × Int)}
    (h : ∀ outcome ∈ log, ∀ e, entry outcome = some e → e.1 < height) : sumFrom entry height log = 0 := by
  apply List.sum_eq_zero
  intro value hvalue
  obtain ⟨e, he, rfl⟩ := List.mem_map.mp hvalue
  obtain ⟨outcome, hmem, hentry⟩ := List.mem_filterMap.mp he
  exact if_neg (Nat.not_le.mpr (h outcome hmem e hentry))

end Sums

section Steps

variable {World : Type} {env : Env World}

theorem updateParams_ok {message : MsgUpdateParams} {s t : State World} {u : Unit}
    (h : (MsgServer.updateParams env message).run s = .ok u t) :
    ∃ params : Params, params.validate = .ok () ∧
      t = { s with store := s.store.set paramsKey (encodeParams params) } := by
  simp only [MsgServer.updateParams, handleUpdateParamsCommand, updateParamsAuthorized,
    Incentives.updateParams, run_lift_bind, run_get_bind, setParams_eq_ok] at h
  obtain ⟨_, -, _, -, _, -, hvalid, rfl⟩ := h
  exact ⟨_, hvalid, rfl⟩

def genesisStore (authority : String) (params : Params) : KVStore :=
  let store := (KVStore.empty.set paramsKey (encodeParams params)).set totalDistributedKey
    (Bytes.utf8 SdkInt.zeroInt.toText)
  if authority != "" then store.set authorityKey (Bytes.utf8 authority) else store

theorem initGenesis_eq_ok (g : GenesisState) (world : World) (t : State World) :
    (initGenesis env g).run ⟨KVStore.empty, world⟩ = .ok () t ↔
      g.validate env = .ok () ∧ g.params.validate = .ok () ∧
        t = ⟨genesisStore g.authority g.params, world⟩ := by
  simp only [initGenesis, run_lift_bind, run_bind_eq_ok (setParams _), setParams_eq_ok,
    run_bind_eq_ok (setTotalDistributed _), setTotalDistributed_eq_ok, run_runIf_eq_ok, setAuthority,
    writeStore, run_modify_eq_ok, genesisStore, exists_const]
  have hzero : 0 ≤ SdkInt.zeroInt.value := le_refl 0
  constructor
  · rintro ⟨⟨⟩, hvalid, r, ⟨hparams, rfl⟩, r', ⟨-, rfl⟩, hauthority⟩
    refine ⟨hvalid, hparams, ?_⟩
    split at hauthority
    case isTrue ha => rw [if_pos ha, ← hauthority]
    case isFalse ha => rw [if_neg ha, ← hauthority]
  · rintro ⟨hvalid, hparams, rfl⟩
    refine ⟨(), hvalid, _, ⟨hparams, rfl⟩, _, ⟨hzero, rfl⟩, ?_⟩
    split <;> rfl

inductive Stepped (env : Env World) (c : Chain World) : Event World → Outcome → Chain World → Prop
  | block (height_lt : c.height < 2 ^ 63) (next : State World)
      (processed : (processBlock env (Int64.ofNat c.height) feeCollectorName).run c.state = .ok () next) :
      Stepped env c .block (.paid c.height (treasury env c.state.world - treasury env next.world))
        ⟨next, c.height + 1⟩
  | updateParams (message : MsgUpdateParams) (params : Params) (valid : params.validate = .ok ()) :
      Stepped env c (.updateParams message) .updated
        ⟨⟨c.state.store.set paramsKey (encodeParams params), c.state.world⟩, c.height⟩
  | other (world : World) (kept : treasury env c.state.world ≤ treasury env world) :
      Stepped env c (.other world)
        (.deposited c.height (treasury env world - treasury env c.state.world))
        ⟨⟨c.state.store, world⟩, c.height⟩

theorem step_ok {c next : Chain World} {event : Event World} {outcome : Outcome}
    (h : step env c event = some (outcome, next)) : Stepped env c event outcome next := by
  cases event with
  | block =>
    simp only [step, Option.ite_none_right_eq_some, Option.map_eq_some_iff, Prod.mk.injEq] at h
    obtain ⟨hheight, ⟨⟨⟩, after⟩, hkept, rfl, rfl⟩ := h
    exact .block hheight after ((kept_eq_some _ _ _).mp hkept)
  | updateParams message =>
    simp only [step, Option.map_eq_some_iff, Prod.mk.injEq] at h
    obtain ⟨⟨⟨⟩, after⟩, hkept, rfl, rfl⟩ := h
    obtain ⟨params, hvalid, rfl⟩ := updateParams_ok ((kept_eq_some _ _ _).mp hkept)
    exact .updateParams message params hvalid
  | other world =>
    simp only [step, Option.ite_none_right_eq_some, Option.some.injEq, Prod.mk.injEq] at h
    obtain ⟨hkept, rfl, rfl⟩ := h
    exact .other world hkept

end Steps

end PosChain.Incentives
