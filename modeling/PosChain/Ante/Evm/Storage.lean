import PosChain.Ante.Evm.Delivery
import PosChain.Ante.Evm.Fees
import PosChain.Evm.Storage.Zeros

namespace PosChain.Ante

open Ethereum Evm

variable {R : Type}

namespace Delivery

variable (d : Delivery R)

-- Nothing but the EVM writes the storage of contracts: neither the native actions of the
-- message, which remove no account either, nor the hooks.
structure StorageByEvm (w : World R) : Prop where
  natives : ∀ paid msg message ran, d.accept w = .ok () paid →
    d.Returned paid.world msg message ran → HistoryMeets Step.LeavesStorage ran
  hooks : ∀ hooks, d.block.hooks = some hooks → ∀ sender message res ctx next,
    (hooks sender message res).run ctx = .ok () next → next.world.storage = ctx.world.storage

-- When the EVM returns, no slot that it has written is zero, unless its account is
-- self-destructed.
def WritesNoZero (w : World R) : Prop :=
  ∀ paid msg message ran, d.accept w = .ok () paid → d.Returned paid.world msg message ran →
    ran.db.WritesNoZero

end Delivery

section Steps

variable {d : Delivery R} {w : World R}

theorem clean_of_storage {v : World R} (h : w.Clean) (hstorage : v.storage = w.storage) : v.Clean := by
  intro address key value hstored
  rw [hstorage] at hstored
  exact h address key value hstored

theorem deliver_clean (hevm : d.StorageByEvm w) (hzero : d.WritesNoZero w) (h : w.Clean) :
    (d.deliver w).1.Clean := by
  cases haccept : d.accept w with
  | error fault next =>
    rw [Delivery.deliver, haccept]
    exact h
  | ok u paid =>
    rw [deliver_of_accept haccept]
    obtain ⟨msg, sender, baseFee, fees, deducted, account, haccepted⟩ := anteHandle_ok haccept
    have hpaid : paid.world.Clean := by
      refine clean_of_storage h ?_
      rw [haccepted.world]
      exact haccepted.sent.kept.storage
    refine execute_keeps World.Clean ?_ ?_ ?_ hpaid
    · intro msg message res last happlied
      obtain ⟨ran, next, hreturned, hcommit, rfl⟩ := happlied.returned
      obtain ⟨cfg, out, -, -, hrun⟩ := hreturned.message
      have hregular := hevm.natives paid msg message ran haccept hreturned
      exact (message_clean_iff hpaid hrun hregular hcommit).mpr (hzero paid msg message ran haccept hreturned)
    · intro hooks hhooks _ _ _ _ _ hran hclean
      exact clean_of_storage hclean (hevm.hooks hooks hhooks _ _ _ _ _ hran)
    · intro _ _ _ _ hsent hclean
      exact clean_of_storage hclean hsent.kept.storage

end Steps

-- A transaction that writes no zero, or a step that leaves the storage of contracts alone.
inductive WritesStorage : World R → World R → Prop where
  | deliver (d : Delivery R) (w : World R) : d.StorageByEvm w → d.WritesNoZero w →
      WritesStorage w (d.deliver w).1
  | other (w next : World R) : next.storage = w.storage → WritesStorage w next

theorem WritesStorage.clean {w next : World R} (h : w.Clean)
    (hrun : Relation.ReflTransGen WritesStorage w next) : next.Clean := by
  induction hrun with
  | refl => exact h
  | tail _ hstep ih =>
    cases hstep with
    | deliver d w hevm hzero => exact deliver_clean hevm hzero ih
    | other w next hstorage => exact clean_of_storage ih hstorage

-- As long as no commit writes a zero, a slot is stored if and only if it is not zero, and
-- two states of a run in which the slots of an account read the same have the same bytes
-- in its storage.
theorem storage_holds_no_zeros {Node : Type} (trie : StackTrie Node) (htrie : trie.Lawful) (w : World R)
    (hgenesis : w.Clean) {last : World R} (hrun : Relation.ReflTransGen WritesStorage w last) :
    (∀ address, last.StorageLaw trie address) ∧
    ∀ earlier, Relation.ReflTransGen WritesStorage w earlier → ∀ address,
      (∀ key, last.getState address key = earlier.getState address key) →
        last.storage address = earlier.storage address := by
  have hlast := WritesStorage.clean hgenesis hrun
  refine ⟨hlast.storageLaw htrie, ?_⟩
  intro earlier hearlier address hreads
  exact hlast.storage_eq (WritesStorage.clean hgenesis hearlier) hreads

-- A call that sets a slot of an account, and one that sets it and clears it again.
section Examples

def slotKey : Hash :=
  hexToHash "0x01"

def slotValue : Hash :=
  hexToHash "0x02"

def writer (script : Script (World Unit) .evm) : Delivery Unit where
  block := { payerBlock with
    hooks := none
    chain := { payerBlock.chain with
      interpreter := ⟨fun _ _ _ gas _ => ⟨.done, gas, none⟩, fun _ _ _ _ gas _ => ⟨script, gas, none⟩⟩ } }
  options := delivering
  tx := payerTx
  txIndex := 0

def setsSlot : Delivery Unit :=
  writer (.op (.setState prefunded slotKey slotValue) .done)

def clearsSlot : Delivery Unit :=
  writer (.op (.setState prefunded slotKey slotValue) (.op (.setState prefunded slotKey zeroHash) .done))

theorem payerCtx_clean : payerCtx.world.Clean := by
  intro address key value hstored
  have hempty : payerCtx.world.storage address = ∅ := rfl
  rw [hempty] at hstored
  simp at hstored

-- The root of a trie with slots starts with a zero byte, which the root of the empty one does not.
def listTrie : StackTrie (List (Bytes × Bytes)) where
  new := []
  update slots key value := .ok (slots ++ [(key, value)])
  hash slots := if slots = [] then
      hexToHash "0x56e81f171bcc55a6ff8345e692c0f86e5b48e01b996cadc001622fb5e363b421"
    else ⟨0 :: (Bytes.sampleDigest (slots.flatMap fun slot => slot.1 ++ slot.2)).tail, by simp [Bytes.sampleDigest]⟩

theorem listTrie_update (slots : List (Hash × Hash)) (first : List (Bytes × Bytes)) :
    slots.foldlM (fun sr slot => listTrie.update sr slot.1.bytes slot.2.bytes) first =
      .ok (first ++ slots.map fun slot => (slot.1.bytes, slot.2.bytes)) := by
  induction slots generalizing first with
  | nil => simp; rfl
  | cons slot rest ih =>
    rw [List.foldlM_cons]
    change rest.foldlM _ (first ++ [(slot.1.bytes, slot.2.bytes)]) = _
    rw [ih]
    simp

theorem listTrie_lawful : listTrie.Lawful := by
  intro slots _
  refine ⟨_, listTrie_update slots [], ?_⟩
  cases slots with
  | nil => simp [listTrie]
  | cons slot rest =>
    simp only [listTrie, List.nil_append, List.map_cons, List.cons_ne_nil, if_false, if_true, iff_false]
    intro hroot
    exact absurd (congrArg (fun hash : Hash => hash.bytes.head?) hroot) (by rw [List.head?_cons]; decide)

def setsMessage : Message :=
  payerMsg.raw.messageFrom payer (some 1000000000)

def slotSet : Machine (World Unit) :=
  endState ((setsSlot.block.chain.runMessage setsSlot.block.env setsMessage false).run
    ⟨.new ⟨paidCtx.world, []⟩ 0, []⟩)

theorem returned_slotSet {paid : Ctx (World Unit)} {msg : MsgEthereumTx} {message : Message}
    {ran : Machine (World Unit)} (haccept : setsSlot.accept payerCtx.world = .ok () paid)
    (hreturned : setsSlot.Returned paid.world msg message ran) : ran = slotSet := by
  have hpaid : setsSlot.accept payerCtx.world = .ok () paidCtx := rfl
  obtain rfl : paidCtx = paid := (EStateM.Result.ok.inj (hpaid.symm.trans haccept)).2
  obtain ⟨cfg, out, hcfg, hmessage, hrun⟩ := hreturned.message
  obtain rfl : payerMsg = msg := by
    have hmsgs : [some payerMsg] = [some msg] := hreturned.msgs
    simpa using hmsgs
  have hfee : setsSlot.block.evmConfig.toOption.map EVMConfig.baseFee = some (some 1000000000) := rfl
  rw [hcfg] at hfee
  have hbase : cfg.baseFee = some 1000000000 := Option.some.inj hfee
  rw [hbase] at hmessage
  obtain rfl : setsMessage = message := Except.ok.inj hmessage
  rw [slotSet]
  exact (congrArg endState hrun).symm

def Step.isOp {W : Type} : Step W → Bool
  | .op _ _ => true
  | _ => false

theorem setsSlot_byEvm : setsSlot.StorageByEvm payerCtx.world where
  natives := by
    intro paid msg message ran haccept hreturned step hstep
    obtain rfl := returned_slotSet haccept hreturned
    have hops : slotSet.history.all Step.isOp = true := rfl
    have hop := List.all_eq_true.mp hops step hstep
    cases step with
    | op o db => trivial
    | native handled before after => cases hop
    | reenter db => trivial
  hooks := by
    intro hooks hhooks
    cases hhooks

theorem setsSlot_writesNoZero : setsSlot.WritesNoZero payerCtx.world := by
  intro paid msg message ran haccept hreturned address object hdirty hlive _ key hzero
  obtain rfl := returned_slotSet haccept hreturned
  have hdirties : slotSet.db.journal.sortedDirties = [prefunded] := by decide +kernel
  have hmem := (dirty_iff address).mpr hdirty
  rw [hdirties] at hmem
  obtain rfl := List.mem_singleton.mp hmem
  have hslots : (slotSet.db.stateObjects prefunded).map (fun object => object.dirtyStorage.toList) =
      some [(slotKey, slotValue)] := by decide +kernel
  rw [hlive, Option.map_some, Option.some_inj] at hslots
  have hfound := Std.ExtTreeMap.mem_toList_iff_getElem?_eq_some.mpr hzero
  rw [hslots, List.mem_singleton] at hfound
  have hne : zeroHash ≠ slotValue := by decide
  exact hne (Prod.ext_iff.mp hfound).2

theorem set_slot_is_stored :
    slotKey ∈ (setsSlot.deliver payerCtx.world).1.storage prefunded ∧
    (StateDB.new ⟨(setsSlot.deliver payerCtx.world).1, []⟩ 0).isStorageEmpty prefunded = false ∧
    (StateDB.new ⟨(setsSlot.deliver payerCtx.world).1, []⟩ 0).getStorageRoot listTrie prefunded ≠
      listTrie.hash listTrie.new := by
  have hstep : WritesStorage payerCtx.world (setsSlot.deliver payerCtx.world).1 :=
    .deliver setsSlot payerCtx.world setsSlot_byEvm setsSlot_writesNoZero
  have hlaw := (storage_holds_no_zeros listTrie listTrie_lawful payerCtx.world payerCtx_clean (.single hstep)).1
    prefunded
  have hvalue : (setsSlot.deliver payerCtx.world).1.getState prefunded slotKey ≠ zeroHash := by decide +kernel
  have hsome : ¬ ∀ key, (setsSlot.deliver payerCtx.world).1.getState prefunded key = zeroHash :=
    fun hall => hvalue (hall slotKey)
  refine ⟨(hlaw.stored slotKey).mpr hvalue, ?_, fun hroot => hsome ((hlaw.root _ rfl).mp hroot)⟩
  rw [← Bool.not_eq_true]
  exact fun hempty => hsome ((hlaw.empty _ rfl).mp hempty)

theorem cleared_slot_stays :
    payerCtx.world.Clean ∧
    (clearsSlot.deliver payerCtx.world).1.getState prefunded slotKey = zeroHash ∧
    ((clearsSlot.deliver payerCtx.world).1.storage prefunded)[slotKey]? = some zeroHash.bytes ∧
    (StateDB.new ⟨(clearsSlot.deliver payerCtx.world).1, []⟩ 0).isStorageEmpty prefunded = false := by
  refine ⟨payerCtx_clean, ?_, ?_, ?_⟩
  · decide +kernel
  · decide +kernel
  · decide +kernel

end Examples

end PosChain.Ante
