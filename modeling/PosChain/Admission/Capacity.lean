import PosChain.Admission.Revocation

namespace PosChain.Admission

open Run (run after)

section Genesis

variable {World : Type} {env : Env World}

theorem validatePolicyAmount_eq_ok (maximum : UInt32) (minimum : String) (coin : Coin) :
    validatePolicyAmount env maximum minimum = .ok coin ↔
      maximum ≠ 0 ∧ env.parseCoinNormalized minimum = .ok coin ∧ coin.isValid = true ∧
        coin.amount.isPositive = true := by
  simp only [validatePolicyAmount, Check.bind_eq_ok, failIf_eq_ok, exists_const, annotate_eq_ok, passOn_eq_ok,
    Check.pure_eq_ok, beq_eq_false_iff_ne, Bool.or_eq_false_iff, Bool.not_eq_false']
  constructor
  · rintro ⟨hmaximum, _, hparsed, hcoin, rfl⟩
    exact ⟨hmaximum, hparsed, hcoin⟩
  · rintro ⟨hmaximum, hparsed, hcoin⟩
    exact ⟨hmaximum, coin, hparsed, hcoin, rfl⟩

def Usable (env : Env World) (maximum : UInt32) (minimum : String) : Prop :=
  ∃ coin, validatePolicyAmount env maximum minimum = .ok coin

theorem validateGenesisPolicy_eq_ok (maximum : UInt32) (minimum : String) (u : Unit) :
    validateGenesisPolicy env maximum minimum = .ok u ↔ Usable env maximum minimum := by
  simp only [validateGenesisPolicy, Usable, Check.bind_eq_ok, Check.pure_eq_ok, and_true]

theorem validatePolicy_usable {maximum : UInt32} {minimum : String}
    (h : validatePolicy env maximum minimum = .ok ()) : Usable env maximum minimum := by
  simp only [validatePolicy, Check.bind_eq_ok] at h
  obtain ⟨coin, hcoin, -⟩ := h
  exact ⟨coin, hcoin⟩

structure Listable (env : Env World) (text : String) : Prop where
  filled : text ≠ ""
  trimmed : Text.trimSpace text = text
  decodes : ∃ operator, env.valAddressFromBech32 text = .ok operator

theorem validateApproved_eq_ok (seen texts : List String) :
    GenesisState.validateApproved env seen texts = .ok () ↔
      (∀ text ∈ texts, Listable env text ∧ text ∉ seen) ∧ texts.Nodup := by
  induction texts generalizing seen with
  | nil => simp [GenesisState.validateApproved, Check.pure_eq_ok]
  | cons text rest ih =>
    simp only [GenesisState.validateApproved, Check.bind_eq_ok, failIf_eq_ok, exists_const,
      annotate_eq_ok, passOn_eq_ok, ih, beq_eq_false_iff_ne, bne_eq_false_iff_eq, List.mem_cons,
      List.contains_eq_mem, decide_eq_false_iff_not, List.nodup_cons]
    constructor
    · rintro ⟨hfilled, htrimmed, operator, hdecodes, hseen, hrest, hnodup⟩
      rw [htrimmed] at hfilled
      refine ⟨?_, fun hmem => (hrest text hmem).2 (Or.inl rfl), hnodup⟩
      rintro other (rfl | hmem)
      · exact ⟨⟨hfilled, htrimmed, operator, hdecodes⟩, hseen⟩
      · exact ⟨(hrest other hmem).1, fun h => (hrest other hmem).2 (Or.inr h)⟩
    · rintro ⟨hall, hfresh, hnodup⟩
      obtain ⟨⟨hfilled, htrimmed, operator, hdecodes⟩, hseen⟩ := hall text (Or.inl rfl)
      refine ⟨by rwa [htrimmed], htrimmed, operator, hdecodes, hseen, ?_, hnodup⟩
      intro other hmem
      refine ⟨(hall other (Or.inr hmem)).1, ?_⟩
      rintro (rfl | h)
      · exact hfresh hmem
      · exact (hall other (Or.inr hmem)).2 h

-- A genesis is valid when the module is disabled, or when it has an authority
-- and a list of operators that fits the capacity.
structure GenesisState.Enabled (env : Env World) (g : GenesisState) : Prop where
  trimmed : Text.trimSpace g.authority = g.authority
  authority : ∃ account, env.accAddressFromBech32 g.authority = .ok account
  fits : UInt32.ofNat g.approvedValidators.length ≤ g.policy.1
  listed : g.approvedValidators ≠ []
  listable : ∀ text ∈ g.approvedValidators, Listable env text
  distinct : g.approvedValidators.Nodup

theorem GenesisState.validate_eq_ok (g : GenesisState) :
    g.validate env = .ok () ↔ Usable env g.policy.1 g.policy.2 ∧
      ((Text.trimSpace g.authority = "" ∧ g.approvedValidators = []) ∨
        (Text.trimSpace g.authority ≠ "" ∧ g.Enabled env)) := by
  rw [GenesisState.validate]
  split
  case isTrue hblank =>
    simp only [beq_iff_eq] at hblank
    simp [hblank, Check.bind_eq_ok, failIf_eq_ok, validateGenesisPolicy_eq_ok, and_comm]
  case isFalse hfilled =>
    simp only [beq_iff_eq] at hfilled
    simp only [Check.bind_eq_ok, failIf_eq_ok, exists_const, annotate_eq_ok, passOn_eq_ok,
      validateGenesisPolicy_eq_ok, validateApproved_eq_ok, bne_eq_false_iff_eq, hfilled, false_and,
      false_or, decide_eq_false_iff_not, gt_iff_lt, UInt32.not_lt, beq_eq_false_iff_ne,
      List.length_eq_zero_iff, List.not_mem_nil, not_false_eq_true, and_true, ne_eq, true_and]
    constructor
    · rintro ⟨htrimmed, account, haccount, hpolicy, hfits, hlisted, hlistable, hdistinct⟩
      rw [htrimmed] at haccount
      exact ⟨hpolicy, htrimmed, ⟨account, haccount⟩, hfits, hlisted, hlistable, hdistinct⟩
    · rintro ⟨hpolicy, h⟩
      obtain ⟨account, haccount⟩ := h.authority
      rw [← h.trimmed] at haccount
      exact ⟨h.trimmed, account, haccount, hpolicy, h.fits, h.listed, h.listable, h.distinct⟩

end Genesis

-- What every admission message keeps: the authority, address texts as keys, and
-- a usable policy.
section Invariant

variable {World : Type} {env : Env World} {ctx : Context} {store next : KVStore} {msg : AdmissionMsg}

structure Configured (env : Env World) (authority : String) (store : KVStore) : Prop where
  authority : getAuthority store = authority
  named : Named store
  policy : Usable env (getMaxApprovedValidators store) (getMinimumSelfDelegation store)

theorem configured_initGenesis {g : GenesisState} (hg : g.validate env = .ok ()) :
    Configured env g.authority (initGenesis g KVStore.empty) where
  authority := getAuthority_initGenesis g
  named := named_initGenesis g
  policy := by
    rw [getMaxApprovedValidators_initGenesis, getMinimumSelfDelegation_initGenesis]
    exact ((GenesisState.validate_eq_ok g).mp hg).1

theorem Configured.mark {authority : String} (hc : Configured env authority store) (text : String)
    (approved : Bool) (hn : Named (setApprovedValidator text approved store)) :
    Configured env authority (setApprovedValidator text approved store) where
  authority := by
    rw [getAuthority_congr (get_setApprovedValidator text approved (by simp [keyAuthority]))]
    exact hc.authority
  named := hn
  policy := by
    rw [getMaxApprovedValidators_congr
        (get_setApprovedValidator text approved (by simp [keyMaxApprovedValidators])),
      getMinimumSelfDelegation_congr
        (get_setApprovedValidator text approved (by simp [keyMinimumSelfDelegation]))]
    exact hc.policy

theorem Configured.update {authority : String} (hc : Configured env authority store)
    {maximum : UInt32} {minimum : String} (hp : Usable env maximum minimum) (hne : minimum ≠ "") :
    Configured env authority (setMinimumSelfDelegation minimum (setMaxApprovedValidators maximum store)) where
  authority := by
    rw [← hc.authority]
    apply getAuthority_congr
    simp [setMinimumSelfDelegation, setMaxApprovedValidators, keyMinimumSelfDelegation,
      keyMaxApprovedValidators, keyAuthority]
  named := hc.named.policy _ _
  policy := by
    rwa [getMaxApprovedValidators_policy, getMinimumSelfDelegation_set _ hne]

-- The coin parser reads nothing from an empty text.
def NeedsText (env : Env World) : Prop :=
  ∀ coin, env.parseCoinNormalized "" ≠ .ok coin

theorem Usable.filled (hparse : NeedsText env) {maximum : UInt32} {minimum : String}
    (h : Usable env maximum minimum) : minimum ≠ "" := by
  rintro rfl
  obtain ⟨coin, hcoin⟩ := h
  exact hparse coin ((validatePolicyAmount_eq_ok _ _ _).mp hcoin).2.1

theorem Served.configured (hparse : NeedsText env) {authority : String}
    (h : Served env ctx store msg next) (hc : Configured env authority store) :
    Configured env authority next := by
  have hnamed := h.named hc.named
  cases h with
  | already req operator authorised decoded approved => exact hc
  | approved req operator authorised decoded fresh room => exact hc.mark _ true hnamed
  | revoked req operator authorised decoded => exact hc.mark _ false hnamed
  | updated req authorised policy room =>
    have husable := validatePolicy_usable policy
    exact hc.update husable (husable.filled hparse)

-- The approvals fit the capacity, counted without wrapping around.
def Fits (store : KVStore) : Prop :=
  (approvedTexts store).length ≤ (getMaxApprovedValidators store).toNat

theorem Fits.count (h : Fits store) :
    (approvedValidatorCount store).toNat = (approvedTexts store).length := by
  have hlt := (getMaxApprovedValidators store).toNat_lt
  rw [approvedValidatorCount_eq, UInt32.toNat_ofNat']
  exact Nat.mod_eq_of_lt (Nat.lt_of_le_of_lt h hlt)

theorem length_approvedTexts (store : KVStore) :
    (approvedTexts store).length = (store.keysUnder 0x02).length :=
  List.length_map _

theorem Served.fits (h : Served env ctx store msg next) (hf : Fits store) : Fits next := by
  have hcount := hf.count
  rw [Fits] at hf ⊢
  rw [length_approvedTexts] at hf hcount ⊢
  cases h with
  | already req operator authorised decoded approved => exact hf
  | approved req operator authorised decoded fresh room =>
    have hroom := UInt32.lt_iff_toNat_lt.mp room
    have hset := KVStore.length_keysUnder_set store 0x02 (approvedKey req.validatorAddress) [1]
    rw [getMaxApprovedValidators_congr
      (get_setApprovedValidator _ true (by simp [keyMaxApprovedValidators]))]
    rw [setApprovedValidator, if_pos rfl]
    omega
  | revoked req operator authorised decoded =>
    have hunset : ((setApprovedValidator req.validatorAddress false store).keysUnder 0x02).length ≤
        (store.keysUnder 0x02).length := by
      apply KVStore.length_keysUnder_le
      intro rest hhas
      simp only [setApprovedValidator, Bool.false_eq_true, if_false, KVStore.has_delete,
        Bool.and_eq_true] at hhas
      exact hhas.2
    rw [getMaxApprovedValidators_congr
      (get_setApprovedValidator _ false (by simp [keyMaxApprovedValidators]))]
    omega
  | updated req authorised policy room =>
    have hroom := UInt32.le_iff_toNat_le.mp room
    have hkept : ((setMinimumSelfDelegation req.minimumSelfDelegation
        (setMaxApprovedValidators req.maxApprovedValidators store)).keysUnder 0x02).length ≤
        (store.keysUnder 0x02).length := by
      apply KVStore.length_keysUnder_le
      intro rest hhas
      rwa [has_policy] at hhas
    rw [getMaxApprovedValidators_policy]
    omega

end Invariant

-- The rules of the policy in a state: the count is that of the approved texts
-- and fits the capacity, and the minimum reads as a positive coin.
structure WithinPolicy {World : Type} (env : Env World) (store : KVStore) : Prop where
  texts : ∀ text, text ∈ approvedTexts store ↔ store.has (approvedKey text) = true
  counted : (approvedValidatorCount store).toNat = (approvedTexts store).toFinset.card
  capacity : approvedValidatorCount store ≤ getMaxApprovedValidators store
  minimum : ∃ coin, env.parseCoinNormalized (getMinimumSelfDelegation store) = .ok coin ∧
    coin.isValid = true ∧ coin.amount.isPositive = true

theorem Configured.withinPolicy {World : Type} {env : Env World} {authority : String} {store : KVStore}
    (hc : Configured env authority store) (hf : Fits store) : WithinPolicy env store where
  texts := mem_approvedTexts hc.named
  counted := by rw [List.toFinset_card_of_nodup (nodup_approvedTexts hc.named), hf.count]
  capacity := by
    rw [UInt32.le_iff_toNat_le, hf.count]
    exact hf
  minimum := by
    obtain ⟨coin, hcoin⟩ := hc.policy
    exact ⟨coin, ((validatePolicyAmount_eq_ok _ _ _).mp hcoin).2⟩

theorem fits_initGenesis {World : Type} {env : Env World} {g : GenesisState}
    (hg : g.validate env = .ok ()) (hlength : g.approvedValidators.length < 2 ^ 32) :
    Fits (initGenesis g KVStore.empty) := by
  rw [Fits, getMaxApprovedValidators_initGenesis]
  rcases ((GenesisState.validate_eq_ok g).mp hg).2 with ⟨-, hnone⟩ | ⟨-, he⟩
  · rw [length_approvedTexts_initGenesis g (by simp [hnone]), hnone]
    exact Nat.zero_le _
  · have hfits := UInt32.le_iff_toNat_le.mp he.fits
    rw [UInt32.toNat_ofNat', Nat.mod_eq_of_lt hlength] at hfits
    rwa [length_approvedTexts_initGenesis g he.distinct]

section Runs

variable {World : Type} {env : Env World} {g : GenesisState}

theorem run_configured (hparse : NeedsText env) (hg : g.validate env = .ok ()) (world : World)
    (calls : List Call) : Configured env g.authority
      (run (deliver env) ⟨initGenesis g KVStore.empty, world⟩ calls).store :=
  Run.run_invariant (fun s => Configured env g.authority s.store)
    (fun _ _ _ _ h => (deliver_served h).configured hparse) _ calls (configured_initGenesis hg)

theorem run_fits (hg : g.validate env = .ok ()) (hlength : g.approvedValidators.length < 2 ^ 32)
    (world : World) (calls : List Call) :
    Fits (run (deliver env) ⟨initGenesis g KVStore.empty, world⟩ calls).store := by
  refine Run.run_invariant (fun s : State World => Fits s.store) ?_ _ calls (fits_initGenesis hg hlength)
  intro s call answer next h
  exact (deliver_served h).fits

end Runs

-- The authority that a message has to name: the one of the consensus parameters
-- when they have one, and otherwise the one that the module keeps.
def authorityInForce (ctx : Context) (stored : String) : String :=
  if ctx.consensusAuthority = "" then stored else ctx.consensusAuthority

def AdmissionMsg.authority : AdmissionMsg → String
  | .approveValidator req => req.authority
  | .revokeValidator req => req.authority
  | .updateParams req => req.authority

-- What the messages of the module are there to change.
structure Governed where
  approved : String → Bool
  capacity : UInt32
  minimum : String

def governed (store : KVStore) : Governed where
  approved text := store.has (approvedKey text)
  capacity := getMaxApprovedValidators store
  minimum := getMinimumSelfDelegation store

theorem Served.authorised {World : Type} {env : Env World} {ctx : Context} {store next : KVStore}
    {msg : AdmissionMsg} (h : Served env ctx store msg next) :
    env.validateAuthority ctx (getAuthority store) msg.authority = .ok () := by
  cases h <;> assumption

-- Along every run from a genesis that lists less than 2^32 operators, the policy
-- is kept, and it changes only by messages of the authority in force.
theorem policy_kept_by_authority {World : Type} (env : Env World) (hparse : NeedsText env)
    (hauthority : ∀ ctx stored given, env.validateAuthority ctx stored given = .ok () →
      given = authorityInForce ctx stored)
    (g : GenesisState) (hg : g.validate env = .ok ())
    (hlength : g.approvedValidators.length < 2 ^ 32) (world : World) (calls : List Call) :
    WithinPolicy env (run (deliver env) ⟨initGenesis g KVStore.empty, world⟩ calls).store ∧
      ∀ call, governed (after (deliver env)
          (run (deliver env) ⟨initGenesis g KVStore.empty, world⟩ calls) call).store ≠
        governed (run (deliver env) ⟨initGenesis g KVStore.empty, world⟩ calls).store →
      call.msg.authority = authorityInForce call.ctx g.authority := by
  have hconfigured := run_configured hparse hg world calls
  have hfits := run_fits hg hlength world calls
  generalize run (deliver env) ⟨initGenesis g KVStore.empty, world⟩ calls = s at hconfigured hfits ⊢
  refine ⟨hconfigured.withinPolicy hfits, ?_⟩
  intro call hchanged
  cases h : deliver env s call with
  | none =>
    rw [Run.after_of_none h] at hchanged
    exact absurd rfl hchanged
  | some answer =>
    have hauthorised := (deliver_served h).authorised
    rw [hconfigured.authority] at hauthorised
    exact hauthority _ _ _ hauthorised

-- The sample chain with the authority check of the library, which prefers the
-- authority of the consensus parameters.
def consensusEnv : Env Validators :=
  { sampleEnv with
    validateAuthority := fun ctx stored given =>
      if given = authorityInForce ctx stored then .ok () else .error "invalid authority" }

theorem consensusEnv_authority (ctx : Context) (stored given : String)
    (h : consensusEnv.validateAuthority ctx stored given = .ok ()) :
    given = authorityInForce ctx stored := by
  by_contra hne
  simp [consensusEnv, hne] at h

theorem consensusEnv_needsText : NeedsText consensusEnv := by
  intro coin h
  cases h

theorem second_approval_within_policy :
    sampleGenesis.validate consensusEnv = .ok () ∧
      WithinPolicy consensusEnv (run (deliver consensusEnv) sampleState [approveCall secondText]).store :=
  ⟨by decide +kernel, (policy_kept_by_authority consensusEnv consensusEnv_needsText
    consensusEnv_authority sampleGenesis (by decide +kernel) (by decide) ⟨[], []⟩ _).1⟩

-- An account that the consensus parameters name approves an operator, though the
-- module keeps another authority.
theorem consensus_authority_approves :
    sampleGenesis.validate consensusEnv = .ok () ∧ secondAccount ≠ getAuthority sampleState.store ∧
      ∃ next, deliver consensusEnv sampleState
          ⟨⟨secondAccount⟩, .approveValidator ⟨secondAccount, secondText⟩⟩ = some ((), next) ∧
        sampleState.store.has (approvedKey secondText) = false ∧
        next.store.has (approvedKey secondText) = true := by
  have hserved : (deliver consensusEnv sampleState
      ⟨⟨secondAccount⟩, .approveValidator ⟨secondAccount, secondText⟩⟩).isSome = true := by
    decide +kernel
  obtain ⟨⟨⟩, hkept⟩ := kept_of_isSome hserved
  exact ⟨by decide +kernel, by decide +kernel, _, hkept, by decide +kernel, by decide +kernel⟩

end PosChain.Admission
