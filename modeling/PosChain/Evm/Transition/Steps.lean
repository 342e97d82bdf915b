import PosChain.Evm.Publish
import PosChain.Evm.Transition.Gas

namespace PosChain.Evm

open StateDB Ethereum

variable {R : Type}

-- The operations that a message issues besides the script of its call or creation.
inductive Issues (env : Env (World R)) (msg : Message) (db : StateDB (World R)) : Op → Prop where
  | warm (address : Address) : Issues env msg db (.addAddressToAccessList address)
  | load (address : Address) : Issues env msg db (.loadCode address)
  | refund (gas : UInt64) : Issues env msg db (.addRefund gas)
  | raise (address : Address) (nonce : UInt64) (h : db.getNonce env address ≤ nonce) :
      Issues env msg db (.setNonce address nonce)
  | delegate (address : Address) (target : Option Address) :
      Issues env msg db (.setCode address (target.map addressToDelegation))
  | reset (h : msg.recipient = none) : Issues env msg db (.setNonce msg.sender msg.nonce)
  | advance (h : msg.recipient = none) : Issues env msg db (.setNonce msg.sender (msg.nonce + 1))

-- What every part of a message has to keep for it to hold when the EVM returns.
structure Chain.Keeps (env : Env (World R)) (chain : Chain (World R)) (msg : Message)
    (kept : Machine (World R) → Prop) : Prop where
  prepare : ∀ {m} accessList, kept m →
    kept (m.setDb { m.db with accessList := accessList, transientStorage := fun _ _ => zeroHash })
  issue : ∀ {m o db}, kept m → Issues env msg m.db o → o.apply env m.db = .ok db →
    kept (m.record (.op o m.db) |>.setDb db)
  create : ∀ {m n gas value}, kept m →
    (Machine.exec env (chain.interpreter.create m.db msg.sender msg.data gas value).script).run m = .ok () n →
      kept n
  call : ∀ {m n recipient gas value}, kept m →
    (Machine.exec env (chain.interpreter.call m.db msg.sender recipient msg.data gas value).script).run m =
      .ok () n → kept n

theorem Invariant.keeps {env : Env (World R)} {regular : Step (World R) → Prop}
    {holds : List Event → Place → Machine (World R) → Prop} (h : Invariant env regular holds) (base : List Event)
    (hprepare : ∀ {m : Machine (World R)} accessList, holds base .evm m →
      holds base .evm (m.setDb { m.db with accessList := accessList, transientStorage := fun _ _ => zeroHash }))
    (chain : Chain (World R)) (msg : Message) :
    chain.Keeps env msg fun m => HistoryMeets regular m → holds base .evm m := by
  have hexec : ∀ {m n : Machine (World R)} {script : Script (World R) .evm},
      (HistoryMeets regular m → holds base .evm m) → (Machine.exec env script).run m = .ok () n →
      HistoryMeets regular n → holds base .evm n := by
    intro m n script hm hrun hmeets
    have hran : Ran env .evm m n := Ends.of_ok (a := ()) (t := n) (Machine.ran_exec script m) hrun
    exact h.exec script base hrun hmeets (hm (hmeets.of_ran hran))
  refine ⟨fun accessList hm hmeets => hprepare accessList (hm hmeets), ?_, hexec, hexec⟩
  intro m o db hm _ happly hmeets
  have hbefore : HistoryMeets regular m := fun step hstep => hmeets step (List.mem_cons_of_mem _ hstep)
  exact h.issue (hm hbefore) (hmeets _ List.mem_cons_self) happly

section Parts

variable {env : Env (World R)} {chain : Chain (World R)} {msg : Message} {kept : Machine (World R) → Prop}
  {m n : Machine (World R)} {gas : UInt64} {value : Uint256} {out : UInt64 × Option String}

theorem ends_check {σ α : Type} {check : Check α} {s : σ} {failed : σ → Prop} (h : failed s) :
    Ends (EStateM.run (liftM check : Action σ α) s) (fun a t => check = .ok a ∧ t = s) failed :=
  ends_lift (fun _ ha => ⟨ha, rfl⟩) fun _ _ => h

theorem issue_ok {o : Op} {u : Unit} (hrun : (Machine.issue env o).run m = .ok u n) :
    ∃ db, o.apply env m.db = .ok db ∧ n = (m.record (.op o m.db) |>.setDb db) := by
  rw [Machine.issue, run_get_bind, run_lift_bind] at hrun
  obtain ⟨db, happly, hset⟩ := hrun
  exact ⟨db, happly, (EStateM.Result.ok.inj hset).2.symm⟩

theorem prepare_machine {u : Unit} (hrun : (chain.prepare msg).run m = .ok u n) :
    ∃ accessList, n = m.setDb { m.db with accessList := accessList, transientStorage := fun _ _ => zeroHash } := by
  rw [Chain.prepare, run_get_bind, run_lift_bind] at hrun
  obtain ⟨db, hdb, hset⟩ := hrun
  cases hset
  obtain ⟨accessList, rfl⟩ := prepare_ok hdb
  exact ⟨accessList, rfl⟩

theorem commit_ok {u : Unit} (h : (runIf true (Machine.commitOrFlush env false)).run m = .ok u n) :
    ∃ next, (m.db.commitWithCtx env).run m.db.writeCache = .ok () next ∧
      n = m.setDb { m.db with ctx := next } := by
  rw [run_runIf_eq_ok, if_pos rfl, Machine.commitOrFlush, if_neg Bool.false_ne_true, wrapError_eq_ok,
    Machine.commit, run_get_bind, run_onPart_eq_ok] at h
  obtain ⟨next, hnext, rfl⟩ := h
  exact ⟨next, hnext, rfl⟩

theorem runMessage_ok (h : (chain.runMessage env msg false).run m = .ok out n) :
    ∃ gas value prepared, (chain.prepare msg).run m = .ok () prepared ∧
      match msg.recipient with
      | none => (chain.runCreation env msg gas value).run prepared = .ok out n
      | some recipient => (chain.runCall env msg recipient gas value).run prepared = .ok out n := by
  rw [Chain.runMessage, run_lift_bind] at h
  obtain ⟨gas, -, h⟩ := h
  rw [run_bind_eq_ok] at h
  obtain ⟨_, prepared, hprepared, h⟩ := h
  rw [run_lift_bind] at h
  obtain ⟨value, -, h⟩ := h
  refine ⟨gas, value, prepared, hprepared, ?_⟩
  cases hrecipient : msg.recipient with
  | none =>
    rw [hrecipient] at h
    exact h
  | some recipient =>
    rw [hrecipient] at h
    exact h

namespace Chain.Keeps

variable (h : chain.Keeps env msg kept)

include h

theorem ends_issue {o : Op} (hm : kept m) (hissues : Issues env msg m.db o) :
    Ends ((Machine.issue env o).run m) (fun _ n => kept n ∧ o.apply env m.db = .ok n.db) kept := by
  refine ends_get_bind (ends_bind (fun db n => o.apply env m.db = .ok db ∧ n = m) (ends_check hm) ?_)
  rintro db n ⟨happly, rfl⟩
  exact ⟨h.issue hm hissues happly, happly⟩

theorem issued {o : Op} {u : Unit} (hm : kept m) (hissues : Issues env msg m.db o)
    (hrun : (Machine.issue env o).run m = .ok u n) : kept n := by
  obtain ⟨db, happly, rfl⟩ := issue_ok hrun
  exact h.issue hm hissues happly

theorem ends_validateAuthorization (auth : SetCodeAuthorization) (hm : kept m) :
    Ends ((chain.validateAuthorization env auth).run m)
      (fun authority n => kept n ∧ n.db.getNonce env authority = auth.nonce ∧ auth.nonce ≤ auth.nonce + 1)
      kept := by
  unfold Chain.validateAuthorization
  refine ends_bind _ (ends_check hm) ?_
  rintro _ _ ⟨-, rfl⟩
  refine ends_bind _ (ends_check hm) ?_
  rintro _ _ ⟨hoverflow, rfl⟩
  rw [failIf_eq_ok, decide_eq_false_iff_not, UInt64.not_lt] at hoverflow
  refine ends_bind _ (ends_check hm) ?_
  rintro authority _ ⟨-, rfl⟩
  refine ends_bind _ (h.ends_issue hm (.warm authority)) ?_
  rintro _ warmed ⟨hwarmed, -⟩
  refine ends_get_bind (ends_bind _ (h.ends_issue hwarmed (.load authority)) ?_)
  rintro _ loaded ⟨hloaded, -⟩
  refine ends_bind _ (ends_check hloaded) ?_
  rintro _ _ ⟨-, rfl⟩
  refine ends_get_bind (ends_bind _ (ends_check hloaded) ?_)
  rintro _ _ ⟨hnonce, rfl⟩
  refine ends_pure ⟨hloaded, ?_, hoverflow⟩
  simpa using hnonce

theorem ends_applyAuthorization (auth : SetCodeAuthorization) (hm : kept m) :
    Ends ((chain.applyAuthorization env auth).run m) (fun _ n => kept n) kept := by
  unfold Chain.applyAuthorization
  refine ends_bind _ (h.ends_validateAuthorization auth hm) ?_
  rintro authority valid ⟨hvalid, hnonce, hle⟩
  refine ends_get_bind (ends_bind (fun _ n => kept n ∧ n.db.getNonce env authority = auth.nonce)
    (ends_runIf ?_ fun _ => ⟨hvalid, hnonce⟩) ?_)
  · intro _
    refine (h.ends_issue hvalid (.refund (25000 - 12500))).mono ?_ fun _ hfailed => hfailed
    rintro _ refunded ⟨hrefunded, happly⟩
    refine ⟨hrefunded, ?_⟩
    have hobjects : ((valid.db.addRefund (25000 - 12500)).core env).objects = (valid.db.core env).objects :=
      objects_eq_of_objects rfl rfl
    rw [← hnonce, ← Except.ok.inj happly, getNonce_eq, getNonce_eq, ← hobjects]
  · rintro _ refunded ⟨hrefunded, hsame⟩
    refine ends_bind _ (h.ends_issue hrefunded (.raise authority _ (by rw [hsame]; exact hle))) ?_
    rintro _ raised ⟨hraised, -⟩
    have hcode : ∀ target : Option Address,
        Ends ((Machine.issue env (.setCode authority (target.map addressToDelegation))).run raised)
          (fun _ n => kept n) kept := fun target =>
      (h.ends_issue hraised (.delegate authority target)).mono (fun _ _ hlast => hlast.1) fun _ hfailed => hfailed
    split
    · exact hcode none
    · exact hcode (some auth.address)

theorem ends_authorizations (authorizations : List SetCodeAuthorization) (hm : kept m) :
    Ends ((authorizations.forM fun auth => do
        let _ ← attempt (chain.applyAuthorization env auth)).run m) (fun _ n => kept n) kept := by
  refine ends_forM ?_ authorizations hm
  intro auth k hk
  refine ends_bind (fun _ n => kept n)
    (ends_attempt (h.ends_applyAuthorization auth hk) (fun _ ht => ht) fun _ ht => ht) ?_
  rintro _ t ht
  exact ends_pure ht

theorem runCall {recipient : Address} (hm : kept m)
    (hrun : (chain.runCall env msg recipient gas value).run m = .ok out n) : kept n := by
  rw [Chain.runCall, run_bind_eq_ok] at hrun
  obtain ⟨_, authorized, hauthorized, hrun⟩ := hrun
  have hends := h.ends_authorizations msg.setCodeAuthorizations hm
  have hfirst : kept authorized := hends.of_ok hauthorized
  rw [run_get_bind, run_bind_eq_ok] at hrun
  obtain ⟨_, loaded, hloaded, hrun⟩ := hrun
  have hsecond := h.issued hfirst (.load recipient) hloaded
  have hlast : ∀ warmed : Machine (World R), kept warmed → ∀ outcome,
      outcome = chain.interpreter.call warmed.db msg.sender recipient msg.data gas value →
      (do Machine.exec env outcome.script
          return (outcome.leftoverGas, outcome.vmErr) : Action (Machine (World R)) _).run warmed = .ok out n →
      kept n := by
    rintro warmed hwarmed _ rfl hrun
    rw [run_bind_eq_ok] at hrun
    obtain ⟨_, last, hexec, hrun⟩ := hrun
    obtain ⟨-, rfl⟩ := (run_pure_eq_ok _ _ _ _).mp hrun
    exact h.call hwarmed hexec
  split at hrun
  · rw [run_bind_eq_ok] at hrun
    obtain ⟨_, warmed, hwarmed, hrun⟩ := hrun
    exact hlast warmed (h.issued hsecond (.warm _) hwarmed) _ rfl hrun
  · exact hlast loaded hsecond _ rfl hrun

theorem runCreation (hm : kept m) (hrecipient : msg.recipient = none)
    (hrun : (chain.runCreation env msg gas value).run m = .ok out n) : kept n := by
  rw [Chain.runCreation, run_bind_eq_ok] at hrun
  obtain ⟨_, reset, hreset, hrun⟩ := hrun
  rw [run_get_bind, run_bind_eq_ok] at hrun
  obtain ⟨_, created, hexec, hrun⟩ := hrun
  have hcreated := h.create (h.issued hm (.reset hrecipient) hreset) hexec
  rw [run_get_bind] at hrun
  split at hrun
  · rw [run_bind_eq_ok] at hrun
    obtain ⟨_, raised, hraised, hrun⟩ := hrun
    obtain ⟨-, rfl⟩ := (run_pure_eq_ok _ _ _ _).mp hrun
    exact h.issued hcreated (.advance hrecipient) hraised
  · obtain ⟨-, rfl⟩ := (run_pure_eq_ok _ _ _ _).mp hrun
    exact hcreated

theorem runMessage (hm : kept m) (hrun : (chain.runMessage env msg false).run m = .ok out n) : kept n := by
  obtain ⟨gas, value, prepared, hprepared, hrest⟩ := runMessage_ok hrun
  obtain ⟨accessList, rfl⟩ := prepare_machine hprepared
  have hfirst := h.prepare accessList hm
  cases hrecipient : msg.recipient with
  | none =>
    rw [hrecipient] at hrest
    exact h.runCreation hfirst hrecipient hrest
  | some recipient =>
    rw [hrecipient] at hrest
    exact h.runCall hfirst hrest

end Chain.Keeps

end Parts

end PosChain.Evm
