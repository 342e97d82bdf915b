import PosChain.Evm.Execution.Getters
import PosChain.Evm.Sound.Execution
import PosChain.Ethereum.Transaction

namespace PosChain.Evm

open StateDB

variable {R : Type} {config : Config}

def World.HasContract (config : Config) (w : World R) (address : Address) : Prop :=
  w.getCodeHash config address ≠ config.emptyCodeHash ∧ w.isContract config address = true

-- How the EVM and the precompiles write nonces: from the present one on, or, for a creation
-- that an action asks for, from the one in the stores on.
def Step.RaisesNonces (config : Config) (start : World R) : Step (World R) → Prop
  | .op (.setNonce address nonce) db =>
    db.getNonce (VmKeeper.env config) address ≤ nonce ∨ db.stores.nonce address ≤ nonce
  | .op (.createContract address) db => db.getNonce (VmKeeper.env config) address = 0
  | .op (.selfDestruct address) db =>
    db.isNewContract (VmKeeper.env config) address = true ∨ start.HasContract config address
  | .op _ _ => True
  | .native _ before after => ∀ address, before.world.nonce address ≤ after.world.nonce address
  | .reenter _ => True

-- A contract from before the transaction that was self-destructed in it.
def DestructedContract (config : Config) (start : World R) (history : List (Step (World R)))
    (address : Address) : Prop :=
  start.HasContract config address ∧ ∃ db, .op (.selfDestruct address) db ∈ history

def CreatedContract (history : List (Step (World R))) (address : Address) : Prop :=
  ∃ db, .op (.createContract address) db ∈ history

-- An account whose nonce is not below a floor, neither for the getters nor in the stores.
structure NonceAbove (config : Config) (floor : UInt64) (s : StateDB (World R)) (address : Address) : Prop where
  view : floor ≤ s.getNonce (VmKeeper.env config) address
  stores : floor ≤ s.stores.nonce address
  alive : s.hasSelfDestructed (VmKeeper.env config) address = false
  old : s.isNewContract (VmKeeper.env config) address = false

-- A contract that is created in the transaction has no floor to fall below.
def NoncesAbove (config : Config) (start : World R) (floor : Address → UInt64) (m : Machine (World R)) : Prop :=
  ∀ address, DestructedContract config start m.history address ∨
    floor address = 0 ∧ CreatedContract m.history address ∨ NonceAbove config (floor address) m.db address

-- A transaction writes the nonce of its sender itself, down to the floor.
def Step.AboveFloor (config : Config) (start : World R) (floor : Address → UInt64) (step : Step (World R)) : Prop :=
  step.RaisesNonces config start ∨ ∃ address nonce db, step = .op (.setNonce address nonce) db ∧ floor address ≤ nonce

section Steps

variable {floor : UInt64} {s t : StateDB (World R)} {address : Address}

section

variable (h : NonceAbove config floor s address)

include h

theorem NonceAbove.of_figures
    (hfigures : t.figures (VmKeeper.env config) address = s.figures (VmKeeper.env config) address)
    (hstores : floor ≤ t.stores.nonce address) : NonceAbove config floor t address where
  view := by
    rw [← figures_nonce, hfigures, figures_nonce]
    exact h.view
  stores := hstores
  alive := by
    rw [← figures_destructed, hfigures, figures_destructed]
    exact h.alive
  old := by
    rw [← figures_created, hfigures, figures_created]
    exact h.old

theorem NonceAbove.op {o : Op} (happly : o.apply (VmKeeper.env config) s = .ok t)
    (hnonce : ∀ nonce, o = .setNonce address nonce → floor ≤ nonce) (hdestruct : address ∉ o.destructs)
    (hcreate : address ∉ o.creates) : NonceAbove config floor t address := by
  have heffect := Op.effect happly address
  have hlogged : Logged (VmKeeper.env config) .evm o.destructs s t := Op.logged happly
  refine ⟨?_, ?_, ?_, ?_⟩
  · rw [← figures_nonce, heffect.nonce, figures_nonce]
    cases o with
    | setNonce written nonce =>
      simp only [Op.nonceAt]
      split
      · rename_i heq
        exact hnonce nonce (by rw [heq])
      · exact h.view
    | _ => exact h.view
  · rw [stores_of_same (Op.frame happly) hlogged.ctx]
    exact h.stores
  · rw [← figures_destructed]
    by_contra hmark
    rcases heffect.destructed (by simpa using hmark) with hbefore | hmem
    · rw [figures_destructed, h.alive] at hbefore
      cases hbefore
    · exact hdestruct hmem
  · rw [← figures_created]
    by_contra hmark
    rcases heffect.created (by simpa using hmark) with hbefore | hmem
    · rw [figures_created, h.old] at hbefore
      cases hbefore
    · exact hcreate hmem

theorem NonceAbove.snapshot :
    NonceAbove config floor s.snapshot.2 address :=
  h.of_figures figures_snapshot h.stores

theorem NonceAbove.restored {destructed : List Address}
    (hrestored : Restored (VmKeeper.env config) destructed s t) : NonceAbove config floor t address := by
  have hstores : t.stores = s.stores :=
    congrArg (fun view => view.cache.stores.current) hrestored.cacheView
  have hsame : t.figures (VmKeeper.env config) address = s.figures (VmKeeper.env config) address := by
    rw [figures_restored hrestored]
    split
    · have halive : (s.figures (VmKeeper.env config) address).destructed = false := by
        rw [figures_destructed, h.alive]
      rw [← halive]
    · rfl
  exact h.of_figures hsame (by rw [hstores]; exact h.stores)

theorem NonceAbove.committed_dirty {ctx next : Ctx (World R)}
    (hdirty : s.Dirty address) (hrun : (s.commitWithCtx (VmKeeper.env config)).run ctx = .ok () next) :
    next.world.nonce address = s.getNonce (VmKeeper.env config) address := by
  have hrecords := committedRecords_of_ok (nodup_sortedDirties s.journal) hrun
  rcases hrecords.cases address with ⟨hclean, -⟩ | ⟨object, number, -, hlive, -, hstored⟩ |
      ⟨object, -, hlive, hmark, -⟩
  · exact absurd hdirty hclean
  · rw [World.nonce, hstored, ← figures_nonce, figures_of_live hlive]
    rfl
  · have halive := h.alive
    rw [← figures_destructed, figures_of_live hlive] at halive
    exact absurd hmark (by rw [show object.selfDestructed = false from halive]; decide)

theorem NonceAbove.committed {ctx next : Ctx (World R)}
    (hstart : ctx.world = s.stores) (hrun : (s.commitWithCtx (VmKeeper.env config)).run ctx = .ok () next) :
    floor ≤ next.world.nonce address := by
  by_cases hdirty : s.Dirty address
  · rw [h.committed_dirty hdirty hrun]
    exact h.view
  · have hrecords := committedRecords_of_ok (nodup_sortedDirties s.journal) hrun
    have hsame := hrecords.others address fun hmem => hdirty ((dirty_iff address).mp hmem)
    rw [World.nonce, hsame, hstart]
    exact h.stores

theorem NonceAbove.flush {u : Unit}
    (hrun : (flushToCacheCtx (VmKeeper.env config)).run s = .ok u t) : NonceAbove config floor t address := by
  have hcache : CacheOnly s t := Ends.of_ok (a := u) (t := t) cacheOnly_flush hrun
  obtain ⟨next, hnext, hflushed⟩ := flushToCacheCtx_ok hrun
  have hstores : t.stores = next.world := by
    rw [hflushed]
    rfl
  exact h.of_figures (figures_cacheOnly hcache) (by rw [hstores]; exact h.committed rfl hnext)

theorem NonceAbove.entering :
    NonceAbove config floor (entering s) address :=
  h.of_figures (figures_of_objects (objects_eq_of_objects rfl rfl)) h.stores

theorem NonceAbove.addBalance (holder : Address) (amount : Uint256) :
    NonceAbove config floor (s.addBalance (VmKeeper.env config) holder amount) address := by
  have happly : (Op.addBalance holder amount).apply (VmKeeper.env config) s =
      .ok (s.addBalance (VmKeeper.env config) holder amount) := rfl
  exact h.op happly (fun _ heq => by cases heq) List.not_mem_nil List.not_mem_nil

theorem NonceAbove.subBalance {holder : Address} {amount : Uint256}
    (hsub : s.subBalance (VmKeeper.env config) holder amount = .ok t) : NonceAbove config floor t address := by
  have happly : (Op.subBalance holder amount).apply (VmKeeper.env config) s = .ok t := hsub
  exact h.op happly (fun _ heq => by cases heq) List.not_mem_nil List.not_mem_nil

theorem NonceAbove.handled {prevEventsLen : Nat} {u : Unit}
    (hrun : (afterBalanceChange (VmKeeper.env config) prevEventsLen).run s = .ok u t) :
    NonceAbove config floor t address :=
  afterBalanceChange_keeps (NonceAbove config floor · address)
    (fun _ holder amount hr => hr.addBalance holder amount) (fun _ _ _ _ hr hsub => hr.subBalance hsub) h hrun

end

end Steps

section Runs

variable {start : World R} {floor : Address → UInt64} {m n : Machine (World R)}

theorem NoncesAbove.step (h : NoncesAbove config start floor m) (hhistory : m.history ⊆ n.history)
    (hkept : ∀ address, NonceAbove config (floor address) m.db address →
      NonceAbove config (floor address) n.db address) : NoncesAbove config start floor n := by
  intro address
  rcases h address with ⟨hcontract, db, hmem⟩ | ⟨hzero, db, hmem⟩ | habove
  · exact .inl ⟨hcontract, db, hhistory hmem⟩
  · exact .inr (.inl ⟨hzero, db, hhistory hmem⟩)
  · exact .inr (.inr (hkept address habove))

theorem NonceAbove.issue {o : Op} {db : StateDB (World R)} {address : Address}
    (h : NonceAbove config (floor address) m.db address)
    (hregular : Step.AboveFloor config start floor (.op o m.db))
    (happly : o.apply (VmKeeper.env config) m.db = .ok db) :
    o = .selfDestruct address ∧ start.HasContract config address ∨
      floor address = 0 ∧ o = .createContract address ∨ NonceAbove config (floor address) db address := by
  by_cases hdestruct : address ∈ o.destructs
  · left
    cases o with
    | selfDestruct target =>
      obtain rfl : address = target := List.mem_singleton.mp hdestruct
      rcases hregular with (hnew | hcontract) | ⟨_, _, _, heq, -⟩
      · rw [h.old] at hnew
        cases hnew
      · exact ⟨rfl, hcontract⟩
      · cases heq
    | _ => cases hdestruct
  right
  by_cases hcreate : address ∈ o.creates
  · left
    cases o with
    | createContract target =>
      obtain rfl : address = target := List.mem_singleton.mp hcreate
      rcases hregular with hzero | ⟨_, _, _, heq, -⟩
      · have hle := h.view
        rw [show m.db.getNonce (VmKeeper.env config) address = 0 from hzero, UInt64.le_iff_toNat_le] at hle
        exact ⟨UInt64.toNat_inj.mp (Nat.le_zero.mp hle), rfl⟩
      · cases heq
    | _ => cases hcreate
  · right
    refine h.op happly ?_ hdestruct hcreate
    rintro nonce rfl
    rcases hregular with (hview | hstores) | ⟨target, written, db, heq, hfloor⟩
    · exact UInt64.le_trans h.view hview
    · exact UInt64.le_trans h.stores hstores
    · cases heq
      exact hfloor

theorem NoncesAbove.issue {o : Op} {db : StateDB (World R)} (h : NoncesAbove config start floor m)
    (hregular : Step.AboveFloor config start floor (.op o m.db))
    (happly : o.apply (VmKeeper.env config) m.db = .ok db) :
    NoncesAbove config start floor (m.record (.op o m.db) |>.setDb db) := by
  intro address
  rcases h address with ⟨hcontract, before, hmem⟩ | ⟨hzero, before, hmem⟩ | habove
  · exact .inl ⟨hcontract, before, List.mem_cons_of_mem _ hmem⟩
  · exact .inr (.inl ⟨hzero, before, List.mem_cons_of_mem _ hmem⟩)
  · rcases habove.issue hregular happly with ⟨rfl, hcontract⟩ | ⟨hzero, rfl⟩ | hnext
    · exact .inl ⟨hcontract, m.db, List.mem_cons_self⟩
    · exact .inr (.inl ⟨hzero, m.db, List.mem_cons_self⟩)
    · exact .inr (.inr hnext)

end Runs

theorem nonces_invariant (config : Config) (start : World R) (floor : Address → UInt64) :
    Invariant (VmKeeper.env config) (Step.AboveFloor config start floor)
      (fun _ _ m => NoncesAbove config start floor m) where
  issue h hregular happly := h.issue hregular happly
  snapshot h := h.step (List.Subset.refl _) fun _ => NonceAbove.snapshot
  revert h hhistory hrestored :=
    h.step (by rw [hhistory]; exact List.subset_append_right _ _) fun _ habove => habove.restored hrestored
  enter _ h hflush := h.step (List.Subset.refl _) fun _ habove => habove.entering.flush hflush
  native := by
    intro base m handled after h hregular
    refine h.step (List.subset_cons_self _ _) fun address habove => ?_
    have hraises : ∀ address, m.db.cacheCtx.world.nonce address ≤ after.world.nonce address := by
      rcases hregular with hraises | ⟨_, _, _, heq, -⟩
      · exact hraises
      · cases heq
    exact habove.of_figures (figures_cacheOnly (.setCacheCtx _ _))
      (UInt64.le_trans habove.stores (hraises address))
  reenter h _ := h.step (List.subset_cons_self _ _) fun _ habove => habove
  flush _ h hflush := h.step (List.Subset.refl _) fun _ habove => habove.flush hflush
  handle h hrun := h.step (List.Subset.refl _) fun _ habove => habove.handled hrun
  unhandled h := h
  leave _ _ h := h

end PosChain.Evm
