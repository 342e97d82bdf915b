import PosChain.Base.Action
import PosChain.Ethereum.Common

namespace PosChain.Evm

-- The addresses and slots that the transaction has accessed. An address without
-- slots has no index; the others point to their set of slots, which is not empty.
structure AccessList where
  addresses : Address → Option (Option Nat)
  slots : List (Finset Hash)
  filled : ∀ set ∈ slots, set ≠ ∅

namespace AccessList

def new : AccessList :=
  ⟨fun _ => none, [], by simp⟩

def containsAddress (list : AccessList) (address : Address) : Bool :=
  (list.addresses address).isSome

def setAddress (list : AccessList) (address : Address) (entry : Option (Option Nat)) : AccessList :=
  { list with addresses := Function.update list.addresses address entry }

def addAddress (list : AccessList) (address : Address) : Bool × AccessList :=
  if list.containsAddress address then (false, list) else (true, list.setAddress address (some none))

-- A first slot opens a set at the end of the list.
def openSlots (list : AccessList) (address : Address) (slot : Hash) : AccessList where
  addresses := Function.update list.addresses address (some (some list.slots.length))
  slots := list.slots ++ [{slot}]
  filled := by
    intro set hset
    rcases List.mem_append.mp hset with hold | hnew
    · exact list.filled set hold
    · rw [List.mem_singleton.mp hnew]
      exact Finset.singleton_ne_empty slot

def setSlots (list : AccessList) (index : Nat) (slots : Finset Hash) (hslots : slots ≠ ∅) : AccessList :=
  { list with
    slots := list.slots.set index slots
    filled := by
      intro set hset
      rcases List.mem_or_eq_of_mem_set hset with hold | rfl
      · exact list.filled set hold
      · exact hslots }

-- A set without slots is removed with everything behind it.
def closeSlots (list : AccessList) (address : Address) (index : Nat) : AccessList where
  addresses := Function.update list.addresses address (some none)
  slots := list.slots.take index
  filled set hset := list.filled set (List.mem_of_mem_take hset)

def addSlot (list : AccessList) (address : Address) (slot : Hash) :
    Check (Bool × Bool × AccessList) :=
  match list.addresses address with
  | none => .ok (true, true, list.openSlots address slot)
  | some none => .ok (false, true, list.openSlots address slot)
  | some (some index) =>
    match list.slots[index]? with
    | none => .error (.panic s!"runtime error: index out of range [{index}]")
    | some set =>
      if slot ∈ set then .ok (false, false, list)
      else .ok (false, true, list.setSlots index (insert slot set) (Finset.insert_ne_empty slot set))

def deleteSlot (list : AccessList) (address : Address) (slot : Hash) : Check AccessList :=
  match list.addresses address with
  | none => .error (.panic "reverting slot change, address not present in list")
  | some none => .error (.panic "runtime error: index out of range [-1]")
  | some (some index) =>
    match list.slots[index]? with
    | none => .error (.panic s!"runtime error: index out of range [{index}]")
    | some set =>
      if h : set.erase slot = ∅ then .ok (list.closeSlots address index)
      else .ok (list.setSlots index (set.erase slot) h)

def deleteAddress (list : AccessList) (address : Address) : AccessList :=
  list.setAddress address none

theorem setAddress_setAddress (list : AccessList) (address : Address) (first second : Option (Option Nat)) :
    (list.setAddress address first).setAddress address second = list.setAddress address second := by
  simp [setAddress]

theorem setAddress_self {list : AccessList} {address : Address} {entry : Option (Option Nat)}
    (h : list.addresses address = entry) : list.setAddress address entry = list := by
  subst h
  simp [setAddress]

theorem deleteAddress_addAddress {list : AccessList} {address : Address}
    (h : list.containsAddress address = false) :
    (list.addAddress address).2.deleteAddress address = list := by
  have hnone : list.addresses address = none := by simpa [containsAddress] using h
  simp only [addAddress, h, Bool.false_eq_true, if_false, deleteAddress, setAddress_setAddress]
  exact setAddress_self hnone

theorem deleteSlot_openSlots (list : AccessList) (address : Address) (slot : Hash) :
    (list.openSlots address slot).deleteSlot address slot = .ok (list.setAddress address (some none)) := by
  simp [deleteSlot, openSlots, closeSlots, setAddress]

theorem deleteSlot_setSlots {list : AccessList} {address : Address} {slot : Hash} {index : Nat}
    {set : Finset Hash} (haddress : list.addresses address = some (some index))
    (hset : list.slots[index]? = some set) (hslot : slot ∉ set) :
    (list.setSlots index (insert slot set) (Finset.insert_ne_empty slot set)).deleteSlot address slot =
      .ok list := by
  obtain ⟨hindex, hget⟩ := List.getElem?_eq_some_iff.mp hset
  have hne : set ≠ ∅ := list.filled set (List.mem_of_getElem? hset)
  have hself : list.slots.set index set = list.slots := by
    rw [← hget]
    exact List.set_getElem_self hindex
  simp only [deleteSlot, setSlots, haddress, List.getElem?_set_self hindex, Finset.erase_insert hslot,
    dif_neg hne, List.set_set, hself]

end AccessList

end PosChain.Evm
