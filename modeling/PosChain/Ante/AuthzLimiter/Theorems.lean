import PosChain.Ante.AuthzLimiter
import PosChain.Admission.Application

namespace PosChain.Ante

inductive Occurs : List AuthzMsg → AuthzMsg → Prop
  | here {msgs : List AuthzMsg} {msg : AuthzMsg} (h : msg ∈ msgs) : Occurs msgs msg
  | inside {msgs inner : List AuthzMsg} {msg : AuthzMsg} (h : .exec inner ∈ msgs)
      (hinner : Occurs inner msg) : Occurs msgs msg

def InsideExec (msgs : List AuthzMsg) (msg : AuthzMsg) : Prop :=
  ∃ inner, Occurs msgs (.exec inner) ∧ msg ∈ inner

-- What the limiter looks for besides the levels.
structure Allowed (disabled : List String) (msgs : List AuthzMsg) : Prop where
  inside : ∀ msg, InsideExec msgs msg → msg.typeURL ∉ disabled
  grants : ∀ url, Occurs msgs (.grant (.ok url)) → url ∉ disabled
  execs : ∀ error, ¬ Occurs msgs (.execError error)
  authorizations : ∀ error, ¬ Occurs msgs (.grant (.error error))

-- The number of MsgExecs on the longest path into the messages.
mutual
def AuthzMsg.depth : AuthzMsg → Nat
  | .exec msgs => depthOf msgs + 1
  | _ => 0

def depthOf : List AuthzMsg → Nat
  | [] => 0
  | msg :: rest => max msg.depth (depthOf rest)
end

-- The levels that the limiter counts. A MsgExec counts one for the messages
-- inside it, and one for the messages behind it as well.
mutual
def AuthzMsg.levels (behind : Nat) : AuthzMsg → Nat
  | .exec msgs => max (levelsOf msgs) behind + 1
  | _ => behind

def levelsOf : List AuthzMsg → Nat
  | [] => 0
  | msg :: rest => msg.levels (levelsOf rest)
end

section Occurs

variable {msg other : AuthzMsg} {rest inner : List AuthzMsg} {disabled : List String}

theorem occurs_nil : ¬ Occurs [] other := by
  intro h
  cases h with
  | here h => cases h
  | inside h _ => cases h

theorem occurs_cons :
    Occurs (msg :: rest) other ↔
      other = msg ∨ (∃ inner, msg = .exec inner ∧ Occurs inner other) ∨ Occurs rest other := by
  constructor
  · intro h
    cases h with
    | here h =>
      rcases List.mem_cons.mp h with rfl | hrest
      · exact Or.inl rfl
      · exact Or.inr (Or.inr (.here hrest))
    | inside h hinner =>
      rcases List.mem_cons.mp h with heq | hrest
      · exact Or.inr (Or.inl ⟨_, heq.symm, hinner⟩)
      · exact Or.inr (Or.inr (.inside hrest hinner))
  · rintro (rfl | ⟨inner, rfl, hinner⟩ | hrest)
    · exact .here List.mem_cons_self
    · exact .inside List.mem_cons_self hinner
    · cases hrest with
      | here h => exact .here (List.mem_cons_of_mem _ h)
      | inside h hinner => exact .inside (List.mem_cons_of_mem _ h) hinner

theorem not_insideExec_nil : ¬ InsideExec [] other := by
  rintro ⟨inner, hinner, -⟩
  exact occurs_nil hinner

theorem insideExec_cons :
    InsideExec (msg :: rest) other ↔
      (∃ inner, msg = .exec inner ∧ (other ∈ inner ∨ InsideExec inner other)) ∨ InsideExec rest other := by
  constructor
  · rintro ⟨deep, hdeep, hmem⟩
    rcases occurs_cons.mp hdeep with rfl | ⟨inner, rfl, hinner⟩ | hrest
    · exact Or.inl ⟨deep, rfl, Or.inl hmem⟩
    · exact Or.inl ⟨inner, rfl, Or.inr ⟨deep, hinner, hmem⟩⟩
    · exact Or.inr ⟨deep, hrest, hmem⟩
  · rintro (⟨inner, rfl, hmem | ⟨deep, hdeep, hmem⟩⟩ | ⟨deep, hdeep, hmem⟩)
    · exact ⟨inner, .here List.mem_cons_self, hmem⟩
    · exact ⟨deep, occurs_cons.mpr (Or.inr (Or.inl ⟨inner, rfl, hdeep⟩)), hmem⟩
    · exact ⟨deep, occurs_cons.mpr (Or.inr (Or.inr hdeep)), hmem⟩

theorem allowed_nil : Allowed disabled [] where
  inside _ h := absurd h not_insideExec_nil
  grants _ h := absurd h occurs_nil
  execs _ := occurs_nil
  authorizations _ := occurs_nil

theorem allowed_cons_leaf (hleaf : ∀ inner, msg ≠ .exec inner) :
    Allowed disabled (msg :: rest) ↔
      (∀ url, msg = .grant (.ok url) → url ∉ disabled) ∧ (∀ error, msg ≠ .execError error) ∧
        (∀ error, msg ≠ .grant (.error error)) ∧ Allowed disabled rest := by
  have hoccurs : ∀ deep, Occurs (msg :: rest) deep ↔ deep = msg ∨ Occurs rest deep := by
    intro deep
    rw [occurs_cons]
    have hno : ¬ ∃ inner, msg = .exec inner ∧ Occurs inner deep := fun ⟨inner, h, _⟩ => hleaf inner h
    simp only [hno, false_or]
  have hinside : ∀ deep, InsideExec (msg :: rest) deep ↔ InsideExec rest deep := by
    intro deep
    rw [insideExec_cons]
    have hno : ¬ ∃ inner, msg = .exec inner ∧ (deep ∈ inner ∨ InsideExec inner deep) :=
      fun ⟨inner, h, _⟩ => hleaf inner h
    simp only [hno, false_or]
  constructor
  · intro h
    refine ⟨fun url hmsg => ?_, fun error hmsg => ?_, fun error hmsg => ?_, ?_⟩
    · exact h.grants url ((hoccurs _).mpr (Or.inl hmsg.symm))
    · exact h.execs error ((hoccurs _).mpr (Or.inl hmsg.symm))
    · exact h.authorizations error ((hoccurs _).mpr (Or.inl hmsg.symm))
    · exact ⟨fun deep hdeep => h.inside deep ((hinside deep).mpr hdeep),
        fun url hurl => h.grants url ((hoccurs _).mpr (Or.inr hurl)),
        fun error herror => h.execs error ((hoccurs _).mpr (Or.inr herror)),
        fun error herror => h.authorizations error ((hoccurs _).mpr (Or.inr herror))⟩
  · rintro ⟨hgrant, hexec, hauthorization, hrest⟩
    refine ⟨fun deep hdeep => hrest.inside deep ((hinside deep).mp hdeep), fun url hurl => ?_,
      fun error herror => ?_, fun error herror => ?_⟩
    · rcases (hoccurs _).mp hurl with hmsg | hdeep
      · exact hgrant url hmsg.symm
      · exact hrest.grants url hdeep
    · rcases (hoccurs _).mp herror with hmsg | hdeep
      · exact hexec error hmsg.symm
      · exact hrest.execs error hdeep
    · rcases (hoccurs _).mp herror with hmsg | hdeep
      · exact hauthorization error hmsg.symm
      · exact hrest.authorizations error hdeep

theorem allowed_cons_exec :
    Allowed disabled (.exec inner :: rest) ↔
      (∀ deep ∈ inner, deep.typeURL ∉ disabled) ∧ Allowed disabled inner ∧ Allowed disabled rest := by
  have hoccurs : ∀ deep, Occurs (.exec inner :: rest) deep ↔
      deep = .exec inner ∨ Occurs inner deep ∨ Occurs rest deep := by
    intro deep
    rw [occurs_cons]
    simp only [AuthzMsg.exec.injEq, exists_eq_left']
  have hinside : ∀ deep, InsideExec (.exec inner :: rest) deep ↔
      (deep ∈ inner ∨ InsideExec inner deep) ∨ InsideExec rest deep := by
    intro deep
    rw [insideExec_cons]
    simp only [AuthzMsg.exec.injEq, exists_eq_left']
  constructor
  · intro h
    refine ⟨fun deep hdeep => h.inside deep ((hinside deep).mpr (Or.inl (Or.inl hdeep))), ?_, ?_⟩
    · exact ⟨fun deep hdeep => h.inside deep ((hinside deep).mpr (Or.inl (Or.inr hdeep))),
        fun url hurl => h.grants url ((hoccurs _).mpr (Or.inr (Or.inl hurl))),
        fun error herror => h.execs error ((hoccurs _).mpr (Or.inr (Or.inl herror))),
        fun error herror => h.authorizations error ((hoccurs _).mpr (Or.inr (Or.inl herror)))⟩
    · exact ⟨fun deep hdeep => h.inside deep ((hinside deep).mpr (Or.inr hdeep)),
        fun url hurl => h.grants url ((hoccurs _).mpr (Or.inr (Or.inr hurl))),
        fun error herror => h.execs error ((hoccurs _).mpr (Or.inr (Or.inr herror))),
        fun error herror => h.authorizations error ((hoccurs _).mpr (Or.inr (Or.inr herror)))⟩
  · rintro ⟨hhere, hinner, hrest⟩
    refine ⟨fun deep hdeep => ?_, fun url hurl => ?_, fun error herror => ?_, fun error herror => ?_⟩
    · rcases (hinside deep).mp hdeep with (hmem | hdeep) | hdeep
      · exact hhere deep hmem
      · exact hinner.inside deep hdeep
      · exact hrest.inside deep hdeep
    · rcases (hoccurs _).mp hurl with heq | hdeep | hdeep
      · cases heq
      · exact hinner.grants url hdeep
      · exact hrest.grants url hdeep
    · rcases (hoccurs _).mp herror with heq | hdeep | hdeep
      · cases heq
      · exact hinner.execs error hdeep
      · exact hrest.execs error hdeep
    · rcases (hoccurs _).mp herror with heq | hdeep | hdeep
      · cases heq
      · exact hinner.authorizations error hdeep
      · exact hrest.authorizations error hdeep

end Occurs

-- The limiter accepts a list of messages at a level when the tree is allowed and
-- its levels stay below the cap. Inside a MsgExec the types of the messages
-- themselves count as well.
section Loop

variable {ald : AuthzLimiterDecorator}

open AuthzLimiterDecorator

def Permitted (ald : AuthzLimiterDecorator) (inner : Bool) (msgs : List AuthzMsg) : Prop :=
  (inner = true → ∀ msg ∈ msgs, msg.typeURL ∉ ald.disabledMsgTypes) ∧ Allowed ald.disabledMsgTypes msgs

theorem isDisabledMsg_eq_false (url : String) :
    ald.isDisabledMsg url = false ↔ url ∉ ald.disabledMsgTypes := by
  simp [isDisabledMsg]

theorem checkNestedLvl_eq_ok (level : Nat) (u : Unit) :
    checkNestedLvl level = .ok u ↔ level < maxNestedMsgs := by
  simp [checkNestedLvl]

section Turn

variable (inner : Bool) (level : Nat) (contents rest : List AuthzMsg)

theorem loop_exec :
    ald.checkDisabledLoop inner level (.exec contents :: rest) = .ok () ↔
      level + 1 < maxNestedMsgs ∧ ald.checkDisabledLoop true (level + 1) contents = .ok () ∧
        ald.checkDisabledLoop inner (level + 1) rest = .ok () := by
  simp only [checkDisabledLoop, checkDisabledMsg, Check.bind_eq_ok, Check.pure_eq_ok]
  constructor
  · rintro ⟨next, ⟨_, hnext, _, hcontents, rfl⟩, hrest⟩
    exact ⟨(checkNestedLvl_eq_ok _ _).mp hnext, hcontents, hrest⟩
  · rintro ⟨hnext, hcontents, hrest⟩
    exact ⟨level + 1, ⟨(), (checkNestedLvl_eq_ok _ _).mpr hnext, (), hcontents, rfl⟩, hrest⟩

theorem loop_grant (url : String) :
    ald.checkDisabledLoop inner level (.grant (.ok url) :: rest) = .ok () ↔
      url ∉ ald.disabledMsgTypes ∧ ald.checkDisabledLoop inner level rest = .ok () := by
  simp only [checkDisabledLoop, checkDisabledMsg, Check.bind_eq_ok, Check.pure_eq_ok, passOn_eq_ok,
    Except.ok.injEq, exists_eq_left', failIf_eq_ok, isDisabledMsg_eq_false, exists_const]
  constructor
  · rintro ⟨next, ⟨hurl, rfl⟩, hrest⟩
    exact ⟨hurl, hrest⟩
  · rintro ⟨hurl, hrest⟩
    exact ⟨level, ⟨hurl, rfl⟩, hrest⟩

theorem loop_other (url : String) :
    ald.checkDisabledLoop inner level (.other url :: rest) = .ok () ↔
      (inner = true → url ∉ ald.disabledMsgTypes) ∧
        ald.checkDisabledLoop inner level rest = .ok () := by
  have hguard : (inner && ald.isDisabledMsg url) = false ↔ (inner = true → url ∉ ald.disabledMsgTypes) := by
    cases inner <;> simp [isDisabledMsg]
  simp only [checkDisabledLoop, checkDisabledMsg, Check.bind_eq_ok, Check.pure_eq_ok, failIf_eq_ok, hguard,
    exists_const]
  constructor
  · rintro ⟨next, ⟨hurl, rfl⟩, hrest⟩
    exact ⟨hurl, hrest⟩
  · rintro ⟨hurl, hrest⟩
    exact ⟨level, ⟨hurl, rfl⟩, hrest⟩

end Turn

theorem permitted_cons_leaf {inner : Bool} {msg : AuthzMsg} {rest : List AuthzMsg}
    (hleaf : ∀ contents, msg ≠ .exec contents) :
    Permitted ald inner (msg :: rest) ↔
      (inner = true → msg.typeURL ∉ ald.disabledMsgTypes) ∧
        (∀ url, msg = .grant (.ok url) → url ∉ ald.disabledMsgTypes) ∧
        (∀ error, msg ≠ .execError error) ∧ (∀ error, msg ≠ .grant (.error error)) ∧
        Permitted ald inner rest := by
  rw [Permitted, Permitted, allowed_cons_leaf hleaf]
  simp only [List.forall_mem_cons]
  tauto

theorem permitted_cons_exec {inner : Bool} {contents rest : List AuthzMsg}
    (hexec : execURL ∉ ald.disabledMsgTypes) :
    Permitted ald inner (.exec contents :: rest) ↔
      Permitted ald true contents ∧ Permitted ald inner rest := by
  rw [Permitted, Permitted, Permitted, allowed_cons_exec]
  simp only [List.forall_mem_cons, AuthzMsg.typeURL]
  tauto

-- The levels are counted from the one that the loop starts at.
theorem checkDisabledLoop_eq_ok (hexec : execURL ∉ ald.disabledMsgTypes)
    (hgrant : grantURL ∉ ald.disabledMsgTypes) (msgs : List AuthzMsg) (inner : Bool) (level : Nat)
    (hlevel : level < maxNestedMsgs) :
    ald.checkDisabledLoop inner level msgs = .ok () ↔
      Permitted ald inner msgs ∧ level + levelsOf msgs < maxNestedMsgs := by
  match msgs with
  | [] =>
    have hpermitted : Permitted ald inner [] := ⟨fun _ _ h => absurd h List.not_mem_nil, allowed_nil⟩
    simp only [checkDisabledLoop, Check.pure_eq_ok, hpermitted, levelsOf, true_and]
    exact iff_of_true trivial hlevel
  | .exec contents :: rest =>
    rw [loop_exec, permitted_cons_exec hexec, levelsOf, AuthzMsg.levels]
    constructor
    · rintro ⟨hnext, hcontents, hrest⟩
      rw [checkDisabledLoop_eq_ok hexec hgrant contents true _ hnext] at hcontents
      rw [checkDisabledLoop_eq_ok hexec hgrant rest inner _ hnext] at hrest
      exact ⟨⟨hcontents.1, hrest.1⟩, by omega⟩
    · rintro ⟨⟨hcontents, hrest⟩, hlevels⟩
      have hnext : level + 1 < maxNestedMsgs := by omega
      rw [checkDisabledLoop_eq_ok hexec hgrant contents true _ hnext,
        checkDisabledLoop_eq_ok hexec hgrant rest inner _ hnext]
      exact ⟨hnext, ⟨hcontents, by omega⟩, hrest, by omega⟩
  | .execError error :: rest =>
    have hfaults : ald.checkDisabledLoop inner level (.execError error :: rest) = .error (.error error) :=
      rfl
    rw [hfaults, permitted_cons_leaf (by simp)]
    simp
  | .grant (.error error) :: rest =>
    have hfaults : ald.checkDisabledLoop inner level (.grant (.error error) :: rest) =
        .error (.error error) := rfl
    rw [hfaults, permitted_cons_leaf (by simp)]
    simp
  | .grant (.ok url) :: rest =>
    have hlevels : levelsOf (.grant (.ok url) :: rest) = levelsOf rest := rfl
    rw [loop_grant, checkDisabledLoop_eq_ok hexec hgrant rest inner level hlevel,
      permitted_cons_leaf (by simp), hlevels]
    simp [AuthzMsg.typeURL, hgrant, and_assoc]
  | .other url :: rest =>
    have hlevels : levelsOf (.other url :: rest) = levelsOf rest := rfl
    rw [loop_other, checkDisabledLoop_eq_ok hexec hgrant rest inner level hlevel,
      permitted_cons_leaf (by simp), hlevels]
    simp [AuthzMsg.typeURL, and_assoc]

-- The levels bound the depth, since a path enters each of its MsgExecs once.
mutual
theorem depth_le_levels (msg : AuthzMsg) (behind : Nat) :
    max msg.depth behind ≤ msg.levels behind := by
  cases msg with
  | exec contents =>
    have hcontents := depthOf_le_levelsOf contents
    simp only [AuthzMsg.depth, AuthzMsg.levels]
    omega
  | execError error => exact (Nat.zero_max behind).le
  | grant authorization => exact (Nat.zero_max behind).le
  | other url => exact (Nat.zero_max behind).le

theorem depthOf_le_levelsOf (msgs : List AuthzMsg) : depthOf msgs ≤ levelsOf msgs := by
  cases msgs with
  | nil => exact le_rfl
  | cons msg rest =>
    have hrest := depthOf_le_levelsOf rest
    have hmsg := depth_le_levels msg (levelsOf rest)
    simp only [depthOf, levelsOf]
    omega
end

theorem limiter_accepts_iff (ald : AuthzLimiterDecorator) (msgs : List AuthzMsg)
    (hexec : execURL ∉ ald.disabledMsgTypes) (hgrant : grantURL ∉ ald.disabledMsgTypes) :
    (ald.anteHandle msgs = .ok () ↔
        Allowed ald.disabledMsgTypes msgs ∧ 1 + levelsOf msgs < maxNestedMsgs) ∧
      depthOf msgs ≤ levelsOf msgs := by
  refine ⟨?_, depthOf_le_levelsOf msgs⟩
  have hloop := checkDisabledLoop_eq_ok hexec hgrant msgs false 1 (by decide)
  have hpermitted : Permitted ald false msgs ↔ Allowed ald.disabledMsgTypes msgs := by simp [Permitted]
  have hfirst : ald.checkDisabledMsgs msgs false 1 = ald.checkDisabledLoop false 1 msgs := rfl
  rw [anteHandle, mapError_eq_ok, hfirst, hloop, hpermitted]

-- A number of MsgExecs around a transfer.
def nestedExec : Nat → AuthzMsg
  | 0 => .other "/cosmos.bank.v1beta1.MsgSend"
  | n + 1 => .exec [nestedExec n]

theorem limiter_accepts_five :
    authzLimiter.anteHandle [nestedExec 5] = .ok () ∧
      Allowed authzLimiter.disabledMsgTypes [nestedExec 5] ∧ depthOf [nestedExec 5] = 5 :=
  ⟨rfl, ((limiter_accepts_iff authzLimiter [nestedExec 5] (by decide) (by decide)).1.mp rfl).1, rfl⟩

-- Two of them in one transaction are refused, although neither is nested deeper.
theorem limiter_counts_siblings :
    Allowed authzLimiter.disabledMsgTypes [nestedExec 5, nestedExec 5] ∧
      1 + depthOf [nestedExec 5, nestedExec 5] < maxNestedMsgs ∧
      authzLimiter.anteHandle [nestedExec 5, nestedExec 5] =
        .error (.error "found more nested msgs than permitted; got: 7, expected: <7: unauthorized") := by
  have hpermitted : Permitted authzLimiter false [nestedExec 5, nestedExec 5] ∧ 0 + 6 < maxNestedMsgs :=
    (checkDisabledLoop_eq_ok (by decide) (by decide) _ false 0 (by decide)).mp rfl
  exact ⟨hpermitted.1.2, by decide, rfl⟩

end Loop

end PosChain.Ante
