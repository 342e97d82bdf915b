import PosChain.Evm.Transition.Steps

namespace PosChain.Evm

open StateDB Ethereum

-- What an authorization looks at and changes of an account. An account that does not
-- exist has nothing.
@[ext] structure Holding where
  nonce : UInt64
  balance : Uint256
  code : Bytes

def Holding.none : Holding :=
  ⟨0, 0, []⟩

def ObjectView.holding (view : ObjectView) : Holding :=
  ⟨view.account.nonce, view.account.balance, view.code.getD []⟩

def StateDB.holding {W : Type} (env : Env W) (s : StateDB W) (address : Address) : Holding :=
  ((s.core env).objects address).elim .none ObjectView.holding

-- The rules of EIP-7702 for one authorization, and what follows from it.
section Rules

def Holding.Authorizes (account : Holding) (chainID : Nat) (auth : SetCodeAuthorization) : Prop :=
  (auth.chainID = 0 ∨ auth.chainID = chainID) ∧ auth.nonce ≤ auth.nonce + 1 ∧
    (account.code = [] ∨ (parseDelegation account.code).isSome = true) ∧ account.nonce = auth.nonce

instance (account : Holding) (chainID : Nat) (auth : SetCodeAuthorization) :
    Decidable (account.Authorizes chainID auth) := by
  unfold Holding.Authorizes
  infer_instance

def delegationCode (target : Address) : Bytes :=
  if target = zeroAddress then [] else addressToDelegation target

def Holding.delegate (account : Holding) (auth : SetCodeAuthorization) : Holding :=
  { account with nonce := auth.nonce + 1, code := delegationCode auth.address }

-- An authorization that is not valid at its turn is skipped.
def authorize (chainID : Nat) (accounts : Address → Holding) (auth : SetCodeAuthorization) :
    Address → Holding :=
  match auth.authority with
  | .error _ => accounts
  | .ok authority =>
    if (accounts authority).Authorizes chainID auth then
      Function.update accounts authority ((accounts authority).delegate auth)
    else accounts

def authorizeAll (chainID : Nat) (accounts : Address → Holding) (list : List SetCodeAuthorization) :
    Address → Holding :=
  list.foldl (authorize chainID) accounts

end Rules

section Holdings

variable {W : Type} {env : Env W} {s t : StateDB W} {address other : Address} {object next : StateObject}

theorem holding_nonce : (s.holding env address).nonce = s.getNonce env address := by
  rw [holding, getNonce_eq]
  cases (s.core env).objects address <;> rfl

theorem holding_code : (s.holding env address).code = (s.getCode env address).getD [] := by
  rw [holding, getCode_eq]
  cases (s.core env).objects address <;> rfl

theorem holding_of_objects (h : (t.core env).objects = (s.core env).objects) : t.holding env = s.holding env := by
  funext address
  rw [holding, h, holding]

theorem holding_setStateObject : (s.setStateObject address next).holding env =
    Function.update (s.holding env) address (next.view env s.world address).holding := by
  funext other
  rw [holding, core_setStateObject]
  by_cases h : other = address
  · subst h
    simp
  · simp [h, holding]

theorem holding_change (entry : JournalEntry) : (s.change address entry next).holding env =
    Function.update (s.holding env) address (next.view env s.world address).holding := by
  have happend : (s.append entry).holding env = s.holding env :=
    holding_of_objects (congrArg Core.objects (core_append entry))
  rw [change, holding_setStateObject, happend]
  rfl

theorem holding_of_live (h : s.stateObjects address = some object) :
    s.holding env address = (object.view env s.world address).holding := by
  simp [holding, core, s.object_of_live env address h]

theorem holding_of_getStateObject (hget : s.getStateObject env address = (some object, t)) :
    t.holding env = s.holding env ∧ (object.view env t.world address).holding = s.holding env address := by
  have hsame : t.holding env = s.holding env :=
    holding_of_objects (congrArg Core.objects (same_of_getStateObject hget).1)
  refine ⟨hsame, ?_⟩
  rw [← hsame, holding_of_live (live_of_getStateObject hget)]

theorem holding_emptyObject (world : W) :
    ((newObject env.emptyAccount).view env world address).holding = .none := by
  simp [ObjectView.holding, StateObject.view, StateObject.codeOf, newObject, Env.emptyAccount, Holding.none]

theorem holding_of_getOrNew (hget : s.getOrNewStateObject env address = (object, t)) :
    t.holding env = s.holding env ∧ (object.view env t.world address).holding = s.holding env address := by
  rcases getOrNewStateObject_cases env s address with ⟨found, r, hfound, h⟩ | ⟨hnone, haccount, h⟩
  · rw [h] at hget
    cases hget
    exact holding_of_getStateObject hfound
  · rw [h, createObject] at hget
    cases hget
    have hself : s.holding env address = .none := by
      simp [holding, core, object_eq, hnone, haccount]
    refine ⟨?_, ?_⟩
    · rw [holding_change, holding_emptyObject, ← hself, Function.update_eq_self]
    · rw [holding_emptyObject, hself]

theorem holding_loadCode : (s.loadCode env address).holding env = s.holding env := by
  unfold loadCode
  rcases hget : s.getStateObject env address with ⟨_ | object, t⟩
  · rw [(getStateObject_none hget).1]
  · obtain ⟨hsame, hobject⟩ := holding_of_getStateObject hget
    dsimp only
    rw [holding_setStateObject, StateObject.view_loadCode, hobject, hsame, Function.update_eq_self]

theorem holding_setNonce (nonce : UInt64) : (s.setNonce env address nonce).holding env =
    Function.update (s.holding env) address { s.holding env address with nonce := nonce } := by
  unfold setNonce
  rcases hget : s.getOrNewStateObject env address with ⟨object, t⟩
  obtain ⟨hsame, hobject⟩ := holding_of_getOrNew hget
  dsimp only
  rw [holding_change, hsame, ← hobject]
  rfl

-- Without a code an account has the hash of the empty one, and nothing is looked up.
theorem code_setCode (world : W) (code : Option Bytes) :
    ((object.setCode (env.keccak256 (code.getD [])) code).codeOf env world).getD [] = code.getD [] := by
  cases code with
  | some bytes => rfl
  | none => simp [StateObject.codeOf, StateObject.setCode, Env.emptyCodeHash]

theorem holding_setCode (code : Option Bytes) : (s.setCode env address code).holding env =
    Function.update (s.holding env) address { s.holding env address with code := code.getD [] } := by
  unfold setCode
  rcases hget : s.getOrNewStateObject env address with ⟨object, t⟩
  obtain ⟨hsame, hobject⟩ := holding_of_getOrNew hget
  dsimp only
  rw [holding_change, hsame, ← hobject]
  congr 1
  simp only [ObjectView.holding, StateObject.view, code_setCode]
  rfl

theorem holding_addAddressToAccessList : (s.addAddressToAccessList address).holding env = s.holding env := by
  unfold addAddressToAccessList
  dsimp only
  split
  · exact holding_of_objects (objects_eq_of_objects rfl rfl)
  · rfl

end Holdings

section Runs

variable {R : Type} {env : Env (World R)} {chain : Chain (World R)} {auth : SetCodeAuthorization}
  {m : Machine (World R)}

theorem ends_issued {o : Op} {db : StateDB (World R)} {failed : Machine (World R) → Prop}
    (h : o.apply env m.db = .ok db) :
    Ends ((Machine.issue env o).run m) (fun _ n => n.db = db) failed := by
  refine ends_get_bind (ends_bind (fun found n => found = db ∧ n = m) (ends_lift ?_ ?_) ?_)
  · intro found hfound
    exact ⟨Except.ok.inj (hfound.symm.trans h), rfl⟩
  · intro text herror
    rw [h] at herror
    cases herror
  · rintro _ _ ⟨rfl, rfl⟩
    exact rfl

theorem ends_failIf {σ : Type} {condition : Bool} {text : String} {s : σ} {succeeded : Unit → σ → Prop}
    {failed : σ → Prop} (hok : condition = false → succeeded () s) (herror : condition = true → failed s) :
    Ends (EStateM.run (liftM (failIf condition text) : Action σ Unit) s) succeeded failed := by
  cases condition with
  | false => exact hok rfl
  | true => exact herror rfl

theorem ends_validated : Ends ((chain.validateAuthorization env auth).run m)
    (fun authority n => n.db.holding env = m.db.holding env ∧ auth.authority = .ok authority ∧
      (m.db.holding env authority).Authorizes chain.chainID auth)
    (fun n => n.db.holding env = m.db.holding env ∧ ∀ authority, auth.authority = .ok authority →
      ¬ (m.db.holding env authority).Authorizes chain.chainID auth) := by
  unfold Chain.validateAuthorization
  refine ends_bind (fun _ n => n = m ∧ (auth.chainID = 0 ∨ auth.chainID = chain.chainID))
    (ends_failIf (fun hchain => ⟨rfl, ?_⟩) fun hchain => ⟨rfl, fun authority _ hvalid => ?_⟩) ?_
  · simpa [or_iff_not_imp_left] using hchain
  · simp only [Bool.and_eq_true, decide_eq_true_eq] at hchain
    exact hvalid.1.elim hchain.1 hchain.2
  rintro _ start ⟨hstart, hchain⟩
  subst hstart
  refine ends_bind (fun _ n => n = start ∧ auth.nonce ≤ auth.nonce + 1)
    (ends_failIf (fun hnonce => ⟨rfl, ?_⟩) fun hnonce => ⟨rfl, fun authority _ hvalid => ?_⟩) ?_
  · rw [decide_eq_false_iff_not, UInt64.not_lt] at hnonce
    exact hnonce
  · exact UInt64.not_lt.mpr hvalid.2.1 (of_decide_eq_true hnonce)
  rintro _ m ⟨hm, hnonce⟩
  subst hm
  refine ends_bind (fun found n => n = m ∧ auth.authority = .ok found) (ends_lift ?_ ?_) ?_
  · intro found hfound
    rw [annotate_eq_ok, passOn_eq_ok] at hfound
    exact ⟨rfl, hfound⟩
  · intro text herror
    refine ⟨rfl, fun authority hauthority _ => ?_⟩
    rw [hauthority] at herror
    cases herror
  rintro authority start ⟨hstart, hauthority⟩
  subst hstart
  refine ends_bind (fun _ n => n.db.holding env = start.db.holding env)
    ((ends_issued rfl).mono (fun _ n hn => ?_) fun _ hfailed => hfailed) ?_
  · rw [hn]
    exact holding_addAddressToAccessList
  intro _ warmed hwarmed
  refine ends_get_bind (ends_bind (fun _ n => n.db.holding env = start.db.holding env)
    ((ends_issued rfl).mono (fun _ n hn => ?_) fun _ hfailed => hfailed) ?_)
  · rw [hn, holding_loadCode, hwarmed]
  intro _ loaded hloaded
  -- Only one authority is asked about.
  have hunique : ∀ {account : Holding}, account = start.db.holding env authority →
      ¬ account.Authorizes chain.chainID auth → ∀ found, auth.authority = .ok found →
        ¬ (start.db.holding env found).Authorizes chain.chainID auth := by
    intro account haccount hinvalid found hfound
    obtain rfl := Except.ok.inj (hauthority.symm.trans hfound)
    rw [← haccount]
    exact hinvalid
  have hcode : ((warmed.db.getCode env authority).getD []) = (start.db.holding env authority).code := by
    rw [← holding_code, hwarmed]
  refine ends_bind (fun _ n => n = loaded ∧ ((start.db.holding env authority).code = [] ∨
      (parseDelegation (start.db.holding env authority).code).isSome = true))
    (ends_failIf (fun hfree => ⟨rfl, ?_⟩) fun htaken => ⟨hloaded, hunique rfl fun hvalid => ?_⟩) ?_
  · rw [hcode] at hfree
    simpa [or_iff_not_imp_left, Option.isSome_iff_ne_none] using hfree
  · rw [hcode] at htaken
    simp only [Bool.and_eq_true, decide_eq_true_eq, ne_eq, List.length_eq_zero_iff] at htaken
    rcases hvalid.2.2.1 with hnil | hsome
    · exact htaken.1 hnil
    · simp [Option.isNone_iff_eq_none.mp htaken.2] at hsome
  rintro _ valid ⟨hvalid, hfree⟩
  subst hvalid
  refine ends_get_bind (ends_bind (fun _ n => n = valid ∧ (start.db.holding env authority).nonce = auth.nonce)
    (ends_failIf (fun hsame => ⟨rfl, ?_⟩) fun hother => ⟨hloaded, hunique rfl fun hvalid => ?_⟩) ?_)
  · rw [← hloaded, holding_nonce]
    simpa using hsame
  · apply of_decide_eq_true hother
    rw [← holding_nonce, hloaded]
    exact hvalid.2.2.2
  rintro _ n ⟨rfl, hsame⟩
  exact ends_pure ⟨hloaded, hauthority, hchain, hnonce, hfree, hsame⟩

theorem authorize_valid {chainID : Nat} {accounts : Address → Holding} {authority : Address}
    (hauthority : auth.authority = .ok authority) (hvalid : (accounts authority).Authorizes chainID auth) :
    authorize chainID accounts auth =
      Function.update accounts authority ((accounts authority).delegate auth) := by
  simp only [authorize, hauthority, if_pos hvalid]

theorem authorize_invalid {chainID : Nat} {accounts : Address → Holding}
    (h : ∀ authority, auth.authority = .ok authority → ¬ (accounts authority).Authorizes chainID auth) :
    authorize chainID accounts auth = accounts := by
  unfold authorize
  split
  · rfl
  · rename_i authority hauthority
    rw [if_neg (h authority hauthority)]

-- A valid authorization raises the nonce, so that it never goes unnoticed.
theorem authorizeAll_raises {chainID : Nat} (list : List SetCodeAuthorization) (accounts : Address → Holding)
    (address : Address) : (accounts address).nonce < (authorizeAll chainID accounts list address).nonce ∨
      authorizeAll chainID accounts list address = accounts address := by
  induction list generalizing accounts with
  | nil => exact .inr rfl
  | cons auth rest ih =>
    have hfirst : (accounts address).nonce < (authorize chainID accounts auth address).nonce ∨
        authorize chainID accounts auth address = accounts address := by
      by_cases h : ∃ authority, auth.authority = .ok authority ∧ (accounts authority).Authorizes chainID auth
      · obtain ⟨authority, hauthority, hvalid⟩ := h
        rw [authorize_valid hauthority hvalid]
        by_cases heq : address = authority
        · subst heq
          rw [Function.update_self, Holding.delegate, hvalid.2.2.2]
          exact .inl (by grind [hvalid.2.1])
        · exact .inr (Function.update_of_ne heq _ _)
      · rw [authorize_invalid fun authority hauthority hvalid => h ⟨authority, hauthority, hvalid⟩]
        exact .inr rfl
    rcases ih (authorize chainID accounts auth) with hlater | hlater <;> rcases hfirst with hraised | hsame
    · exact .inl (UInt64.lt_trans hraised hlater)
    · exact .inl (hsame ▸ hlater)
    · exact .inl (hlater ▸ hraised)
    · exact .inr (hlater.trans hsame)

theorem ends_authorized : Ends ((chain.applyAuthorization env auth).run m)
    (fun _ n => n.db.holding env = authorize chain.chainID (m.db.holding env) auth)
    (fun n => n.db.holding env = authorize chain.chainID (m.db.holding env) auth) := by
  unfold Chain.applyAuthorization
  refine ends_bind _ (ends_validated.mono (fun _ _ h => h) fun n hn => ?_) ?_
  · rw [authorize_invalid hn.2, hn.1]
  rintro authority valid ⟨hvalid, hauthority, hauthorizes⟩
  rw [authorize_valid hauthority hauthorizes]
  refine ends_get_bind (ends_bind (fun _ n => n.db.holding env = m.db.holding env)
    (ends_runIf (fun _ => (ends_issued rfl).mono (fun _ n hn => ?_) fun _ hfailed => hfailed)
      fun _ => hvalid) ?_)
  · rw [hn, ← hvalid]
    exact holding_of_objects (objects_eq_of_objects rfl rfl)
  intro _ refunded hrefunded
  refine ends_bind (fun _ n => n.db.holding env = Function.update (m.db.holding env) authority
      { m.db.holding env authority with nonce := auth.nonce + 1 })
    ((ends_issued rfl).mono (fun _ n hn => ?_) fun _ hfailed => hfailed) ?_
  · rw [hn, holding_setNonce, hrefunded]
  intro _ raised hraised
  have hset : ∀ code : Option Bytes, code.getD [] = delegationCode auth.address →
      Ends ((Machine.issue env (.setCode authority code)).run raised)
        (fun _ n => n.db.holding env =
          Function.update (m.db.holding env) authority ((m.db.holding env authority).delegate auth))
        (fun n => n.db.holding env =
          Function.update (m.db.holding env) authority ((m.db.holding env authority).delegate auth)) := by
    intro code hcode
    refine (ends_issued rfl).mono (fun _ n hn => ?_) fun _ hfailed => hfailed
    rw [hn, holding_setCode, hraised, hcode, Function.update_idem, Function.update_self]
    rfl
  split
  · rename_i hzero
    exact hset none (by rw [delegationCode, if_pos hzero]; rfl)
  · rename_i hne
    exact hset (some _) (by rw [delegationCode, if_neg hne]; rfl)

theorem ends_authorizedAll (list : List SetCodeAuthorization) : Ends ((list.forM fun auth => do
      let _ ← attempt (chain.applyAuthorization env auth)).run m)
    (fun _ n => n.db.holding env = authorizeAll chain.chainID (m.db.holding env) list) (fun _ => False) := by
  induction list generalizing m with
  | nil => exact ends_pure rfl
  | cons auth rest ih =>
    have hattempt : Ends ((attempt (chain.applyAuthorization env auth)).run m)
        (fun _ n => n.db.holding env = authorize chain.chainID (m.db.holding env) auth) (fun _ => False) :=
      ends_attempt ends_authorized (fun _ h => h) fun _ h => h
    refine ends_bind (fun _ n => n.db.holding env = authorize chain.chainID (m.db.holding env) auth)
      (ends_bind _ hattempt fun _ _ h => ends_pure h) ?_
    intro _ n hn
    refine ih.mono (fun _ last hlast => ?_) fun _ hfailed => hfailed
    rw [hlast, hn]
    rfl

-- The call of a message starts when its authorizations are in the state.
theorem runCall_ok {msg : Message} {recipient : Address} {gas : UInt64} {value : Uint256}
    {out : UInt64 × Option String} {n : Machine (World R)}
    (h : (chain.runCall env msg recipient gas value).run m = .ok out n) :
    ∃ called, called.db.holding env =
        authorizeAll chain.chainID (m.db.holding env) msg.setCodeAuthorizations ∧
      (Machine.exec env (chain.interpreter.call called.db msg.sender recipient msg.data gas value).script).run
        called = .ok () n ∧
      out.2 = (chain.interpreter.call called.db msg.sender recipient msg.data gas value).vmErr := by
  rw [Chain.runCall, run_bind_eq_ok] at h
  obtain ⟨_, authorized, hauthorized, h⟩ := h
  have hfirst := (ends_authorizedAll msg.setCodeAuthorizations).of_ok hauthorized
  rw [run_get_bind, run_bind_eq_ok] at h
  obtain ⟨_, loaded, hloaded, h⟩ := h
  have hsecond : loaded.db.holding env = authorized.db.holding env := by
    obtain ⟨db, happly, rfl⟩ := issue_ok hloaded
    cases happly
    exact holding_loadCode
  obtain ⟨called, hcalled, hrun⟩ : ∃ called : Machine (World R),
      called.db.holding env = authorized.db.holding env ∧
      (do let outcome := chain.interpreter.call called.db msg.sender recipient msg.data gas value
          Machine.exec env outcome.script
          return (outcome.leftoverGas, outcome.vmErr) : Action (Machine (World R)) _).run called = .ok out n := by
    split at h
    · rw [run_bind_eq_ok] at h
      obtain ⟨_, warmed, hwarmed, h⟩ := h
      obtain ⟨db, happly, rfl⟩ := issue_ok hwarmed
      cases happly
      exact ⟨_, holding_addAddressToAccessList.trans hsecond, h⟩
    · exact ⟨loaded, hsecond, h⟩
  rw [run_bind_eq_ok] at hrun
  obtain ⟨_, last, hexec, hrun⟩ := hrun
  obtain ⟨rfl, rfl⟩ := (run_pure_eq_ok _ _ _ _).mp hrun
  exact ⟨called, hcalled.trans hfirst, hexec, rfl⟩

end Runs

end PosChain.Evm
