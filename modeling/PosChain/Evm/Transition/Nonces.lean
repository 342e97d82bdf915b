import PosChain.Evm.Nonces
import PosChain.Evm.Transition.Steps

namespace PosChain.Evm

open StateDB Ethereum

variable {R : Type}

-- The scripts of an interpreter raise nonces, from whatever state they start, and a
-- creation does not create its sender.
structure Interpreter.RaisesNonces (config : Config) (interpreter : Interpreter (World R)) : Prop where
  create : ∀ db sender data gas value history last,
    (Machine.exec (VmKeeper.env config) (interpreter.create db sender data gas value).script).run ⟨db, history⟩ =
        .ok () last →
      ∀ steps, last.history = steps ++ history → ∀ step ∈ steps, step.RaisesNonces config db.world ∧
        ∀ before, step ≠ .op (.createContract sender) before
  call : ∀ db sender recipient data gas value history last,
    (Machine.exec (VmKeeper.env config) (interpreter.call db sender recipient data gas value).script).run
        ⟨db, history⟩ = .ok () last →
      ∀ steps, last.history = steps ++ history → ∀ step ∈ steps, step.RaisesNonces config db.world

section Machines

variable {config : Config} {start : World R} {floor : Address → UInt64}

-- What the steps of a message keep: the floors hold and every step so far is above them.
structure Machine.Floored (config : Config) (start : World R) (floor : Address → UInt64)
    (m : Machine (World R)) : Prop where
  above : NoncesAbove config start floor m
  steps : HistoryMeets (Step.AboveFloor config start floor) m
  origin : m.db.world = start

theorem Machine.Floored.issue {m : Machine (World R)} {o : Op} {db : StateDB (World R)}
    (h : m.Floored config start floor) (hregular : Step.AboveFloor config start floor (.op o m.db))
    (happly : o.apply (VmKeeper.env config) m.db = .ok db) :
    (m.record (.op o m.db) |>.setDb db).Floored config start floor := by
  refine ⟨h.above.issue hregular happly, ?_, ?_⟩
  · intro step hstep
    rcases List.mem_cons.mp hstep with rfl | hold
    · exact hregular
    · exact h.steps step hold
  · have hlogged : Logged (VmKeeper.env config) .evm o.destructs m.db db := Op.logged happly
    change db.ctx.world = start
    rw [hlogged.ctx]
    exact h.origin

theorem Machine.Floored.exec {m n : Machine (World R)} {script : Script (World R) .evm}
    (h : m.Floored config start floor) (hrun : (Machine.exec (VmKeeper.env config) script).run m = .ok () n)
    (hsteps : ∀ steps, n.history = steps ++ m.history → ∀ step ∈ steps, step.RaisesNonces config m.db.world) :
    n.Floored config start floor := by
  have hran : Ran (VmKeeper.env config) .evm m n := Ends.of_ok (a := ()) (t := n) (Machine.ran_exec script m) hrun
  obtain ⟨steps, hhistory, hlogged⟩ := hran
  have hmeets : HistoryMeets (Step.AboveFloor config start floor) n := by
    intro step hstep
    rw [hhistory] at hstep
    rcases List.mem_append.mp hstep with hnew | hold
    · have hraises := hsteps steps hhistory step hnew
      rw [h.origin] at hraises
      exact .inl hraises
    · exact h.steps step hold
  refine ⟨(nonces_invariant config start floor).exec script [] hrun hmeets h.above, hmeets, ?_⟩
  rw [StateDB.world, hlogged.ctx]
  exact h.origin

end Machines

section Messages

variable {config : Config} {start : World R} {floor : Address → UInt64} {chain : Chain (World R)} {msg : Message}
  {m n : Machine (World R)} {gas : UInt64} {value : Uint256} {out : UInt64 × Option String}

theorem floored_new {w : World R} (txIndex : Nat) (h : ∀ address, floor address ≤ w.nonce address) :
    (⟨.new ⟨w, []⟩ txIndex, []⟩ : Machine (World R)).Floored config w floor := by
  refine ⟨fun address => .inr (.inr ⟨?_, h address, ?_, ?_⟩), fun _ hstep => (by cases hstep), rfl⟩
  · have hnonce : (StateDB.new (⟨w, []⟩ : Ctx (World R)) txIndex).getNonce (VmKeeper.env config) address =
        w.nonce address := by
      simp only [getNonce, getStateObject, StateDB.new, VmKeeper.env, VmKeeper.keeper, World.getAccount,
        StateDB.world, World.nonce, World.record, Record.nonce]
      cases w.accounts address <;> rfl
    rw [hnonce]
    exact h address
  · simp only [hasSelfDestructed, getStateObject, StateDB.new, VmKeeper.env, VmKeeper.keeper, World.getAccount,
      StateDB.world]
    cases w.accounts address <;> rfl
  · simp only [isNewContract, getStateObject, StateDB.new, VmKeeper.env, VmKeeper.keeper, World.getAccount,
      StateDB.world]
    cases w.accounts address <;> rfl

theorem Machine.Floored.prepare (accessList : AccessList) (h : m.Floored config start floor) :
    (m.setDb { m.db with accessList := accessList, transientStorage := fun _ _ => zeroHash }).Floored config
      start floor :=
  ⟨h.above.step (List.Subset.refl _) fun _ habove =>
    habove.of_figures (figures_of_objects (objects_eq_of_objects rfl rfl)) habove.stores, h.steps, h.origin⟩

theorem keeps_floored (hraises : chain.interpreter.RaisesNonces config) (hrecipient : msg.recipient ≠ none) :
    chain.Keeps (VmKeeper.env config) msg (Machine.Floored config start floor) where
  prepare accessList h := h.prepare accessList
  issue := by
    intro m o db h hissues happly
    refine h.issue (.inl ?_) happly
    cases hissues with
    | warm address => trivial
    | load address => trivial
    | refund gas => trivial
    | raise address nonce hle => exact .inl hle
    | delegate address target => trivial
    | reset hnone => exact absurd hnone hrecipient
    | advance hnone => exact absurd hnone hrecipient
  create h hexec := h.exec hexec fun steps hhistory step hstep =>
    (hraises.create _ _ _ _ _ _ _ hexec steps hhistory step hstep).1
  call h hexec := h.exec hexec fun steps hhistory =>
    hraises.call _ _ _ _ _ _ _ _ hexec steps hhistory

theorem dirty_setNonce (s : StateDB (World R)) (address : Address) (nonce : UInt64) :
    (s.setNonce (VmKeeper.env config) address nonce).Dirty address := by
  unfold StateDB.setNonce
  rcases s.getOrNewStateObject (VmKeeper.env config) address with ⟨object, t⟩
  exact ⟨_, List.mem_cons_self, rfl⟩

theorem toNat_succ {nonce : UInt64} (h : nonce.toNat + 1 < 2 ^ 64) : (nonce + 1).toNat = nonce.toNat + 1 := by
  rw [UInt64.toNat_add]
  exact Nat.mod_eq_of_lt h

theorem not_created_of_issue {o : Op} {db : StateDB (World R)} {address : Address}
    (h : ¬ CreatedContract m.history address) (ho : o ≠ .createContract address) :
    ¬ CreatedContract (m.record (.op o m.db) |>.setDb db).history address := by
  rintro ⟨before, hmem⟩
  rcases List.mem_cons.mp hmem with heq | hold
  · exact ho (Step.op.inj heq).1.symm
  · exact h ⟨before, hold⟩

-- The sender of a creation is in the journal, and its nonce is behind the message.
theorem Machine.Floored.runCreation (hraises : chain.interpreter.RaisesNonces config)
    (h : m.Floored config start floor) (hfresh : ¬ CreatedContract m.history msg.sender)
    (hfloor : floor msg.sender = msg.nonce) (hnonce : msg.nonce.toNat + 1 < 2 ^ 64)
    (hrun : (chain.runCreation (VmKeeper.env config) msg gas value).run m = .ok out n) :
    n.Floored config start floor ∧ n.db.Dirty msg.sender ∧
      (DestructedContract config start n.history msg.sender ∨
        NonceAbove config (floor msg.sender) n.db msg.sender ∧
          msg.nonce + 1 ≤ n.db.getNonce (VmKeeper.env config) msg.sender) := by
  rw [Chain.runCreation, run_bind_eq_ok] at hrun
  obtain ⟨_, reset, hreset, hrun⟩ := hrun
  have hregular : Step.AboveFloor config start floor (.op (.setNonce msg.sender msg.nonce) m.db) :=
    .inr ⟨msg.sender, msg.nonce, m.db, rfl, by rw [hfloor]; exact UInt64.le_refl _⟩
  obtain ⟨db, happly, hset⟩ := issue_ok hreset
  have hfirst : reset.Floored config start floor := by
    rw [hset]
    exact h.issue hregular happly
  have hfreshReset : ¬ CreatedContract reset.history msg.sender := by
    rw [hset]
    exact not_created_of_issue hfresh (by simp)
  rw [run_get_bind, run_bind_eq_ok] at hrun
  obtain ⟨_, created, hexec, hrun⟩ := hrun
  have hsteps := hraises.create _ _ _ _ _ reset.history created hexec
  have hsecond := hfirst.exec hexec fun steps hhistory step hstep => (hsteps steps hhistory step hstep).1
  have hdirty : reset.db.Dirty msg.sender := by
    rw [hset]
    change db.Dirty msg.sender
    rw [← Except.ok.inj happly]
    exact dirty_setNonce m.db msg.sender msg.nonce
  have hran : Ran (VmKeeper.env config) .evm reset created :=
    Ends.of_ok (a := ()) (t := created) (Machine.ran_exec _ reset) hexec
  obtain ⟨steps, hhistory, hlogged⟩ := hran
  have hcreated := dirty_of_logged hlogged hdirty
  have hfreshCreated : ¬ CreatedContract created.history msg.sender := by
    rintro ⟨before, hmem⟩
    rw [hhistory] at hmem
    rcases List.mem_append.mp hmem with hnew | hold
    · exact (hsteps steps hhistory _ hnew).2 before rfl
    · exact hfreshReset ⟨before, hold⟩
  rw [run_get_bind] at hrun
  have hsucc := toNat_succ hnonce
  split at hrun
  · rename_i heq
    rw [run_bind_eq_ok] at hrun
    obtain ⟨_, raised, hraised, hrun⟩ := hrun
    obtain ⟨-, rfl⟩ := (run_pure_eq_ok _ _ _ _).mp hrun
    have hup : Step.AboveFloor config start floor (.op (.setNonce msg.sender (msg.nonce + 1)) created.db) := by
      refine .inl (.inl ?_)
      rw [heq, UInt64.le_iff_toNat_le, hsucc]
      exact Nat.le_succ _
    obtain ⟨db, happly, rfl⟩ := issue_ok hraised
    have hlast := hsecond.issue hup happly
    have hstep : Logged (VmKeeper.env config) .evm [] created.db db := Op.logged happly
    refine ⟨hlast, dirty_of_logged hstep hcreated, ?_⟩
    rcases hlast.above msg.sender with hdestructed | ⟨-, hnew⟩ | habove
    · exact .inl hdestructed
    · exact absurd hnew (not_created_of_issue hfreshCreated (by simp))
    · refine .inr ⟨habove, ?_⟩
      change msg.nonce + 1 ≤ db.getNonce (VmKeeper.env config) msg.sender
      rw [← figures_nonce, (Op.effect happly msg.sender).nonce]
      simp [Op.nonceAt]
  · rename_i hne
    obtain ⟨-, rfl⟩ := (run_pure_eq_ok _ _ _ _).mp hrun
    refine ⟨hsecond, hcreated, ?_⟩
    rcases hsecond.above msg.sender with hdestructed | ⟨-, hnew⟩ | habove
    · exact .inl hdestructed
    · exact absurd hnew hfreshCreated
    · refine .inr ⟨habove, ?_⟩
      have hview := habove.view
      rw [hfloor, UInt64.le_iff_toNat_le] at hview
      rw [UInt64.le_iff_toNat_le, hsucc]
      have hnat : created.db.getNonce (VmKeeper.env config) msg.sender ≠ msg.nonce := hne
      rw [ne_eq, ← UInt64.toNat_inj] at hnat
      omega

-- A message that is committed lowers no nonce, apart from self-destructed contracts. The
-- nonce of its sender was raised before.
theorem message_nonces (hraises : chain.interpreter.RaisesNonces config) {w : World R} {cfg : EVMConfig}
    {res : Response} {txIndex : Nat} (hnonce : w.nonce msg.sender = msg.nonce + 1)
    (hbelow : msg.nonce.toNat + 1 < 2 ^ 64)
    (happly : (chain.applyMessageWithConfig (VmKeeper.env config) msg cfg true false false).run
      ⟨.new ⟨w, []⟩ txIndex, []⟩ = .ok res n) (address : Address) :
    DestructedContract config w n.history address ∨ w.nonce address ≤ n.db.ctx.world.nonce address := by
  obtain ⟨leftoverGas, vmErr, ran, refund, hrun, -, -, hcommit, -⟩ := applyMessageWithConfig_ok happly
  obtain ⟨next, hnext, rfl⟩ := commit_ok hcommit
  obtain ⟨gas, value, prepared, hprepared, hrest⟩ := runMessage_ok hrun
  obtain ⟨accessList, rfl⟩ := prepare_machine hprepared
  have hstart : ran.db.writeCache.world = ran.db.stores := writeCache_world ran.db
  have hcommitted : ∀ {floor : Address → UInt64}, ran.Floored config w floor →
      floor address = w.nonce address →
      DestructedContract config w ran.history address ∨ w.nonce address ≤ next.world.nonce address := by
    intro floor hlast hfloor
    rw [← hfloor]
    rcases hlast.above address with hdestructed | ⟨hzero, -⟩ | habove
    · exact .inl hdestructed
    · rw [hzero]
      exact .inr UInt64.zero_le
    · exact .inr (habove.committed hstart hnext)
  cases hrecipient : msg.recipient with
  | some recipient =>
    have hkeeps : chain.Keeps (VmKeeper.env config) msg (Machine.Floored config w w.nonce) :=
      keeps_floored hraises (by rw [hrecipient]; exact Option.some_ne_none recipient)
    exact hcommitted (hkeeps.runMessage (floored_new txIndex fun _ => UInt64.le_refl _) hrun) rfl
  | none =>
    rw [hrecipient] at hrest
    -- The nonce of the sender goes back by one and comes up again.
    have hfloors : ∀ other, Function.update w.nonce msg.sender msg.nonce other ≤ w.nonce other := by
      intro other
      by_cases heq : other = msg.sender
      · subst heq
        rw [Function.update_self, hnonce, UInt64.le_iff_toNat_le, toNat_succ hbelow]
        exact Nat.le_succ _
      · rw [Function.update_of_ne heq]
        exact UInt64.le_refl _
    have hfresh : ¬ CreatedContract ([] : List (Step (World R))) msg.sender := by
      rintro ⟨_, hmem⟩
      cases hmem
    obtain ⟨hlast, hdirty, hsender⟩ :=
      ((floored_new txIndex hfloors).prepare accessList).runCreation hraises hfresh
        (Function.update_self _ _ _) hbelow hrest
    by_cases heq : address = msg.sender
    · subst heq
      refine hsender.imp_right fun ⟨habove, hview⟩ => ?_
      rw [hnonce]
      change msg.nonce + 1 ≤ next.world.nonce msg.sender
      rw [habove.committed_dirty hdirty hnext]
      exact hview
    · exact hcommitted hlast (Function.update_of_ne heq _ _)

end Messages

end PosChain.Evm
