import PosChain.Erc20.Genesis
import PosChain.Ethereum.Common.Theorems

namespace PosChain.Erc20

open Evm (World)

theorem ends_wrap {σ α : Type} {description : String} {action : Action σ α} {s : σ}
    {succeeded : α → σ → Prop} {failed : σ → Prop} (h : Ends (action.run s) succeeded failed) :
    Ends ((wrapError description action).run s) succeeded failed := by
  rw [EStateM.run, wrapError, rewordError]
  rcases hrun : action.run s with _ | ⟨_ | _, _⟩
  · rwa [hrun] at h
  · rwa [hrun] at h
  · trivial

theorem ends_self {σ α : Type} {result : EStateM.Result Fault σ α} {succeeded : α → σ → Prop}
    {failed : σ → Prop} (h : Ends result succeeded failed) :
    Ends result (fun a t => result = .ok a t ∧ succeeded a t)
      (fun t => (∃ text, result = .error (.error text) t) ∧ failed t) := by
  match result with
  | .ok a t => exact ⟨rfl, h⟩
  | .error (.error text) t => exact ⟨⟨text, rfl⟩, h⟩
  | .error (.panic _) _ => trivial

section Errors

variable {σ α β : Type} {s t : σ} {fault : Fault}

theorem run_bind_of_ok {x : Action σ α} {f : α → Action σ β} {a : α} (h : x.run s = .ok a t) :
    (x >>= f).run s = (f a).run t := by
  rw [EStateM.run_bind, h]

theorem run_bind_of_error {x : Action σ α} {f : α → Action σ β} (h : x.run s = .error fault t) :
    (x >>= f).run s = .error fault t := by
  rw [EStateM.run_bind, h]

theorem run_lift_of_ok {check : Check α} {a : α} (h : check = .ok a) :
    EStateM.run (liftM check : Action σ α) s = .ok a s := by
  subst h
  rfl

theorem run_lift_of_error {check : Check α} (h : check = .error fault) :
    EStateM.run (liftM check : Action σ α) s = .error fault s := by
  subst h
  rfl

end Errors

theorem run_orPanic_eq_ok {σ : Type} (description : String) (action : Action σ Unit) (s t : σ) (u : Unit) :
    (orPanic description action).run s = .ok u t ↔ action.run s = .ok u t := by
  rw [EStateM.run, orPanic]
  rcases action.run s with _ | ⟨_ | _, _⟩ <;> simp

theorem forM_ok {σ ι : Type} {step : ι → Action σ Unit} (kept : σ → Prop) (items : List ι)
    (hstep : ∀ i ∈ items, ∀ s t, (step i).run s = .ok () t → kept s → kept t) {s t : σ}
    (h : (items.forM step).run s = .ok () t) (hs : kept s) : kept t := by
  induction items generalizing s with
  | nil =>
    obtain ⟨-, rfl⟩ := (run_pure_eq_ok () () s t).mp h
    exact hs
  | cons item rest ih =>
    change (step item >>= fun _ => rest.forM step).run s = .ok () t at h
    rw [run_bind_eq_ok] at h
    obtain ⟨_, middle, hitem, hrest⟩ := h
    exact ih (fun i hi => hstep i (List.mem_cons_of_mem item hi)) hrest
      (hstep item List.mem_cons_self s middle hitem hs)

section Parts

variable {R α : Type} {s t : State R} {a : α}

theorem run_onStore_eq_ok (action : Action Store α) :
    (onStore action : Action (State R) α).run s = .ok a t ↔
      ∃ store, action.run s.store = .ok a store ∧ t = { s with store := store } :=
  run_onPart_eq_ok _ _ _ _ _ _

theorem run_onWorld_eq_ok (action : Action (World R) α) :
    (onWorld action).run s = .ok a t ↔
      ∃ world, action.run s.world = .ok a world ∧ t = { s with world := world } :=
  run_onPart_eq_ok _ _ _ _ _ _

theorem run_onWorld_eq_error (action : Action (World R) α) (fault : Fault) :
    (onWorld action).run s = .error fault t ↔
      ∃ world, action.run s.world = .error fault world ∧ t = { s with world := world } := by
  cases haction : action s.world with
  | ok b part => simp [EStateM.run, onWorld, onPart, haction]
  | error e part =>
    simp only [EStateM.run, onWorld, onPart, haction, EStateM.Result.error.injEq]
    constructor
    · rintro ⟨rfl, rfl⟩
      exact ⟨part, ⟨rfl, rfl⟩, rfl⟩
    · rintro ⟨_, ⟨rfl, rfl⟩, rfl⟩
      exact ⟨rfl, rfl⟩

theorem store_onWorld {action : Action (World R) α} (h : (onWorld action).run s = .ok a t) :
    t.store = s.store := by
  obtain ⟨world, -, rfl⟩ := (run_onWorld_eq_ok action).mp h
  rfl

theorem store_attempt_onWorld {action : Action (World R) Unit} {succeeded : Bool}
    (h : (attempt (onWorld action)).run s = .ok succeeded t) : t.store = s.store := by
  have hends : Ends ((onWorld action).run s) (fun _ t => t.store = s.store) (fun t => t.store = s.store) := by
    apply ends_onPart
    cases action.run s.world with
    | ok a w => exact rfl
    | error fault w => cases fault with
      | error text => exact rfl
      | panic text => trivial
  rw [attempt_eq_ok] at h
  obtain ⟨-, h⟩ | ⟨-, text, h⟩ := h
  · exact hends.of_ok h
  · exact hends.of_error h

end Parts

theorem callEVMWithData_ends {R : Type} (k : Env R) (msg : Message) (w : World R) :
    Ends ((Keeper.callEVMWithData k msg true).run w)
      (fun res next => (w.accounts msg.sender).isNone = false ∧ (k.execute msg).run w = .ok res next ∧
        res.vmError = "")
      (fun next => next = w ∨ (∃ text, (k.execute msg).run w = .error (.error text) next) ∨
        ∃ res, (k.execute msg).run w = .ok res next ∧ res.vmError ≠ "") := by
  refine ends_get_bind (ends_bind (fun _ next => next = w ∧ (w.accounts msg.sender).isNone = false)
    (ends_lift (fun _ h => ⟨rfl, by simpa using h⟩) fun _ _ => .inl rfl) ?_)
  rintro _ next ⟨rfl, haccount⟩
  refine ends_bind (fun res t => (k.execute msg).run next = .ok res t) ?_ ?_
  · rw [EStateM.run, Keeper.applyMessage]
    rcases (k.execute msg).run next with ⟨res, t⟩ | ⟨text | text, t⟩
    · exact rfl
    · exact .inr (.inl ⟨text, rfl⟩)
    · trivial
  · intro res t hexecute
    refine ends_bind (fun _ u => u = t ∧ res.vmError = "")
      (ends_lift (fun _ h => ⟨rfl, by simpa using h⟩) fun _ h => .inr (.inr ⟨res, hexecute, ?_⟩)) ?_
    · rintro hvm
      simp [failIf, hvm] at h
    · rintro _ u ⟨rfl, hvm⟩
      exact ends_pure ⟨haccount, hexecute, hvm⟩

def TokenPair.idBytes (pair : TokenPair) : Bytes :=
  Bytes.utf8 pair.idText

-- What the operations of the module do to its store, and under which conditions. The
-- pairs that are registered have one of the texts.
inductive Change {R : Type} (k : Env R) (texts : Set Bytes) : Store → Store → Prop where
  | params (s : Store) (params : Params) : Change k texts s { s with params := params }
  | register (s : Store) (contract : Address) (denom : String) (owner : Owner)
      (hdenom : validateDenom denom = true) (hfresh : s.denomMap denom = none)
      (hfree : s.erc20Map contract = none)
      (htext : (newTokenPair k.evm.keccak256 contract denom owner).idBytes ∈ texts) :
      Change k texts s (s.addToken k.sum (newTokenPair k.evm.keccak256 contract denom owner))
  | enable (s : Store) (address : Address) (pair : TokenPair) (id : Bytes)
      (hstored : s.tokenPairs[id]? = some pair) (haddress : pair.getERC20Contract = address)
      (henabled : pair.enabled = true) : Change k texts s (s.setDynamicPrecompile k.evm.keccak256 address)
  | toggle (s : Store) (pair : TokenPair) (id : Bytes) (hstored : s.tokenPairs[id]? = some pair) :
      Change k texts s (s.setTokenPair k.sum { pair with enabled := !pair.enabled })
  | delete (s : Store) (pair : TokenPair) (id : Bytes) (hstored : s.tokenPairs[id]? = some pair) :
      Change k texts s (s.deleteTokenPair k.sum pair)
  | allow (s : Store) (erc20 owner spender : Address) (value : SdkInt) (pair : TokenPair)
      (hpair : s.getTokenPair (s.erc20Map erc20) = some pair) (howner : owner ≠ Ethereum.zeroAddress)
      (hspender : spender ≠ Ethereum.zeroAddress) (hvalue : 0 ≤ value.value) :
      Change k texts s (s.putAllowance k.evm.keccak256 erc20 owner spender value)

def Changes {R : Type} (k : Env R) (texts : Set Bytes) : Store → Store → Prop :=
  Relation.ReflTransGen (Change k texts)

def Keeper.MsgRegisterERC20.texts {R : Type} (k : Env R) (req : Keeper.MsgRegisterERC20) : Set Bytes :=
  {text | ∃ address ∈ req.erc20Addresses, text = (newTokenPair k.evm.keccak256 (Ethereum.hexToAddress address)
    (createDenom (Keeper.addressHex k (Ethereum.hexToAddress address))) .ownerExternal).idBytes}

def Keeper.Packet.texts {R : Type} (k : Env R) (packet : Keeper.Packet) : Set Bytes :=
  {text | ∃ data pair, packet.data = some data ∧ newTokenPairSTRv2 k.evm.keccak256
    (Keeper.getReceivedDenom k packet (k.extractDenomFromPath data.denom)) = .ok pair ∧ text = pair.idBytes}

section Store

variable {sum : Bytes → Bytes} {s t : Store}

theorem setToken_ok {pair : TokenPair} {u : Unit} (h : (Store.setToken sum pair).run s = .ok u t) :
    s.denomMap pair.denom = none ∧ s.erc20Map pair.getERC20Contract = none ∧ t = s.addToken sum pair := by
  simp only [Store.setToken, run_get_bind, run_lift_bind, failIf_eq_ok, run_modify_eq_ok] at h
  obtain ⟨-, hdenom, -, herc20, rfl⟩ := h
  exact ⟨by simpa [Store.isDenomRegistered] using hdenom,
    by simpa [Store.isERC20Registered] using herc20, rfl⟩

theorem setToken_of_fresh {pair : TokenPair} (hdenom : s.denomMap pair.denom = none)
    (herc20 : s.erc20Map pair.getERC20Contract = none) :
    (Store.setToken sum pair).run s = .ok () (s.addToken sum pair) := by
  simp only [Store.setToken, run_get_bind, run_lift_bind, failIf_eq_ok, run_modify_eq_ok]
  exact ⟨(), by simp [Store.isDenomRegistered, hdenom], (), by simp [Store.isERC20Registered, herc20],
    trivial⟩

theorem setToken_error {pair : TokenPair} {text : String}
    (h : (Store.setToken sum pair).run s = .error (.error text) t) :
    t = s ∧ ¬ (s.denomMap pair.denom = none ∧ s.erc20Map pair.getERC20Contract = none) := by
  constructor
  · have hends : Ends ((Store.setToken sum pair).run s) (fun _ _ => True) (fun t => t = s) := by
      refine ends_get_bind (ends_bind (fun _ t => t = s) (ends_lift (fun _ _ => rfl) fun _ _ => rfl) ?_)
      rintro - t rfl
      refine ends_bind (fun _ _ => True) (ends_lift (fun _ _ => trivial) fun _ _ => rfl) ?_
      exact fun _ _ _ => ends_modify trivial
    exact hends.of_error h
  · rintro ⟨hdenom, herc20⟩
    rw [setToken_of_fresh hdenom herc20] at h
    cases h

theorem toggleConversion_ok {token : String} {pair : TokenPair}
    (h : (Store.toggleConversion sum token).run s = .ok pair t) :
    ∃ (id : Bytes) (stored : TokenPair), s.getTokenPairID token = some id ∧ s.tokenPairs[id]? = some stored ∧
      t = s.setTokenPair sum { stored with enabled := !stored.enabled } := by
  simp only [Store.toggleConversion, run_get_bind, run_lift_bind, orFail_eq_ok, run_modify_bind,
    run_pure_eq_ok] at h
  obtain ⟨id, hid, stored, hstored, -, rfl⟩ := h
  exact ⟨id, stored, hid, hstored, rfl⟩

theorem writeAllowance_ok {keccak256 : Bytes → Hash} {erc20 owner spender : Address} {value : Int}
    {disabled : Bool} {u : Unit}
    (h : (Store.writeAllowance keccak256 erc20 owner spender value disabled).run s = .ok u t) :
    ∃ pair number, s.getTokenPair (s.erc20Map erc20) = some pair ∧
      (disabled = true ∨ pair.enabled = true) ∧ owner ≠ Ethereum.zeroAddress ∧
      spender ≠ Ethereum.zeroAddress ∧ number.value = value ∧ 0 ≤ value ∧
      t = s.putAllowance keccak256 erc20 owner spender number := by
  simp only [Store.writeAllowance, run_get_bind, run_lift_bind, orFail_eq_ok, failIf_eq_ok,
    run_modify_eq_ok, Store.allowanceValue, Check.bind_eq_ok, SdkInt.ofInt?_eq_some] at h
  obtain ⟨pair, hpair, -, henabled, -, howner, -, hspender, number, ⟨-, hsign, hnumber⟩, rfl⟩ := h
  refine ⟨pair, number, hpair, ?_, by simpa using howner, by simpa using hspender, hnumber,
    by simpa using hsign, rfl⟩
  cases disabled <;> simp_all

end Store

-- A denomination that the module makes up itself is a valid one.
section Denominations

theorem validateDenom_createDenom (keccak256 : Bytes → Hash) (contract : Address) :
    validateDenom (createDenom (Ethereum.addressHex keccak256 contract)) = true := by
  obtain ⟨digits, hdigits, hlength, hall⟩ := Ethereum.toList_addressHex keccak256 contract
  have hhead : ("erc20:" : String).toList = ['e', 'r', 'c', '2', '0', ':'] := by decide
  have htext : (createDenom (Ethereum.addressHex keccak256 contract)).toList =
      'e' :: 'r' :: 'c' :: '2' :: '0' :: ':' :: '0' :: 'x' :: digits := by
    simp [createDenom, hhead, hdigits]
  have hdigit : ∀ c ∈ digits, (c.isAlphanum || c == '/' || c == ':' || c == '.' || c == '_' || c == '-') = true := by
    intro c hc
    simp [hall c hc]
  simp only [validateDenom, htext, List.length_cons, hlength, List.all_cons]
  rw [List.all_eq_true.mpr hdigit]
  decide

theorem isAlphanum_of_isHex {byte : UInt8} (h : Bytes.isHex byte = true) :
    byte < 128 ∧ (Char.ofNat byte.toNat).isAlphanum = true := by
  obtain ⟨n, hn⟩ : ∃ n, byte.toNat = n := ⟨_, rfl⟩
  obtain rfl : byte = UInt8.ofNat n := by rw [← hn, UInt8.ofNat_toNat]
  have hlt : n < 256 := hn ▸ UInt8.toNat_lt _
  revert h
  clear hn
  interval_cases n <;> decide

theorem toList_of_ascii {text : String} {bytes : Bytes} (h : Bytes.utf8 text = bytes)
    (hascii : ∀ byte ∈ bytes, byte < 128) : text.toList = bytes.map fun byte => Char.ofNat byte.toNat := by
  have hfrom : ∀ (bytes : Bytes) (fuel : Nat), (∀ byte ∈ bytes, byte < 128) → bytes.length ≤ fuel →
      Text.runesFrom fuel bytes = bytes.map fun byte => Char.ofNat byte.toNat := by
    intro bytes
    induction bytes with
    | nil => intro fuel _ _; cases fuel <;> rfl
    | cons byte rest ih =>
      intro fuel hall hfuel
      obtain ⟨fuel, rfl⟩ : ∃ n, fuel = n + 1 := ⟨fuel - 1, by simp at hfuel; omega⟩
      rw [Text.runesFrom, if_pos (hall byte List.mem_cons_self),
        ih fuel (fun b hb => hall b (List.mem_cons_of_mem _ hb)) (by simpa using hfuel)]
      rfl
  rw [← Text.runes_eq_toList, Text.runes, h]
  exact hfrom bytes _ hascii le_rfl

theorem getIBCDenomAddress_ok {denom : String} {address : Address}
    (h : getIBCDenomAddress denom = .ok address) : validateDenom denom = true := by
  simp only [getIBCDenomAddress, Check.bind_eq_ok, failIf_eq_ok, passOn_eq_ok, mapError_eq_ok] at h
  obtain ⟨-, hhead, -, -, hash, hparse, -⟩ := h
  have hibc : ibcHead = [105, 98, 99, 47] := by decide
  obtain ⟨digits, hdenom⟩ : ∃ digits, Bytes.utf8 denom = ibcHead ++ digits := by
    have hpre : ibcHead <+: Bytes.utf8 denom := by simpa using hhead
    obtain ⟨digits, hdigits⟩ := hpre
    exact ⟨digits, hdigits.symm⟩
  have hdrop : (ibcHead ++ digits).drop 4 = digits := by simp [hibc]
  rw [hdenom, hdrop, parseHexHash] at hparse
  split at hparse
  · cases hparse
  rename_i hdecodable
  have hall : digits.all Bytes.isHex = true := by
    simp only [Bytes.hexDecodable, Bool.not_eq_true, Bool.not_eq_false', Bool.and_eq_true] at hdecodable
    exact hdecodable.2
  have hlength : digits.length / 2 ≤ 32 := by
    rw [← Ethereum.length_hexDecodePrefix _ (List.all_eq_true.mp hall)]
    simp only [] at hparse
    split at hparse
    · omega
    · cases hparse
  have hlow : ∀ byte ∈ ibcHead, byte < 128 := by
    simp [hibc]
  have hascii : ∀ byte ∈ ibcHead ++ digits, byte < 128 := by
    intro byte hbyte
    rcases List.mem_append.mp hbyte with hbyte | hbyte
    · exact hlow byte hbyte
    · exact (isAlphanum_of_isHex (List.all_eq_true.mp hall byte hbyte)).1
  have hchar : ∀ c ∈ digits.map fun byte => Char.ofNat byte.toNat,
      (c.isAlphanum || c == '/' || c == ':' || c == '.' || c == '_' || c == '-') = true := by
    intro c hc
    obtain ⟨byte, hbyte, rfl⟩ := List.mem_map.mp hc
    simp [(isAlphanum_of_isHex (List.all_eq_true.mp hall byte hbyte)).2]
  have htext : denom.toList = 'i' :: 'b' :: 'c' :: '/' :: digits.map fun byte => Char.ofNat byte.toNat := by
    rw [toList_of_ascii hdenom hascii, hibc]
    rfl
  have hbound : digits.length ≤ 65 := by omega
  simp only [validateDenom, htext, List.length_cons, List.length_map, List.all_cons]
  rw [List.all_eq_true.mpr hchar]
  have hupper : digits.length + 1 + 1 + 1 ≤ 127 := by omega
  have hlower : 2 ≤ digits.length + 1 + 1 + 1 := by omega
  simp only [hupper, hlower, decide_true]
  decide

end Denominations

-- Every operation that succeeds has made such changes.
section Operations

open Keeper

variable {R : Type} {k : Env R} {texts : Set Bytes} {s t : State R}

@[simp] theorem getERC20Contract_newTokenPair (keccak256 : Bytes → Hash) (contract : Address) (denom : String)
    (owner : Owner) : (newTokenPair keccak256 contract denom owner).getERC20Contract = contract :=
  Ethereum.hexToAddress_addressHex keccak256 contract

theorem addToken_stored (sum : Bytes → Bytes) (store : Store) (pair : TokenPair) :
    (store.addToken sum pair).tokenPairs[pair.getID sum]? = some pair := by
  simp [Store.addToken, Store.setTokenPair, Store.setDenomMap, Store.setERC20Map]

theorem createNewTokenPair_ok {denom : String} {pair : TokenPair}
    (h : (createNewTokenPair k denom).run s = .ok pair t) :
    ∃ contract, newTokenPairSTRv2 k.evm.keccak256 denom = .ok pair ∧
      pair = newTokenPair k.evm.keccak256 contract denom .ownerModule ∧
      validateDenom denom = true ∧ s.store.denomMap denom = none ∧ s.store.erc20Map contract = none ∧
      hasCodeHash k s.world contract = false ∧ t = { s with store := s.store.addToken k.sum pair } := by
  simp only [createNewTokenPair, run_lift_bind, run_get_bind, failIf_eq_ok] at h
  obtain ⟨pair, hpair, _, hcode, h⟩ := h
  have hmade := hpair
  simp only [newTokenPairSTRv2, Check.bind_eq_ok, Check.pure_eq_ok] at hmade
  obtain ⟨contract, hcontract, rfl⟩ := hmade
  simp only [run_bind_eq_ok, run_onStore_eq_ok, run_pure_eq_ok] at h
  obtain ⟨_, _, ⟨store, hset, rfl⟩, rfl, rfl⟩ := h
  obtain ⟨hdenom, hfree, rfl⟩ := setToken_ok hset
  exact ⟨contract, hpair, rfl, getIBCDenomAddress_ok hcontract, hdenom, by simpa using hfree, by simpa using hcode,
    rfl⟩

theorem enable_ok {address : Address} {available : Bool} {set : Store → Store} {u : Unit}
    (h : (do runIf (!available) (onWorld (registerERC20CodeHash k address)); onStore (modify set)
      : Action (State R) Unit).run s = .ok u t) :
    t.store = set s.store ∧
      (available = true ∧ t.world = s.world ∨ (registerERC20CodeHash k address).run s.world = .ok () t.world) := by
  simp only [run_bind_eq_ok, run_runIf_eq_ok, run_onStore_eq_ok, run_modify_eq_ok, run_onWorld_eq_ok] at h
  obtain ⟨_, r, hregister, _, rfl, rfl⟩ := h
  split at hregister
  · obtain ⟨world, hworld, rfl⟩ := hregister
    exact ⟨rfl, .inr hworld⟩
  · rename_i havailable
    subst hregister
    exact ⟨rfl, .inl ⟨by simpa using havailable, rfl⟩⟩

theorem enableNativePrecompile_ok {address : Address} {u : Unit}
    (h : (enableNativePrecompile k address).run s = .ok u t) :
    t.store = s.store.setNativePrecompile k.evm.keccak256 address ∧
      (s.store.isNativePrecompileAvailable k.evm.keccak256 address = true ∧ t.world = s.world ∨
        (registerERC20CodeHash k address).run s.world = .ok () t.world) := by
  rw [enableNativePrecompile, run_get_bind] at h
  exact enable_ok h

theorem enableDynamicPrecompile_ok {address : Address} {u : Unit}
    (h : (enableDynamicPrecompile k address).run s = .ok u t) :
    t.store = s.store.setDynamicPrecompile k.evm.keccak256 address ∧
      (s.store.isDynamicPrecompileAvailable k.evm.keccak256 address = true ∧ t.world = s.world ∨
        (registerERC20CodeHash k address).run s.world = .ok () t.world) := by
  rw [enableDynamicPrecompile, run_get_bind] at h
  exact enable_ok h

theorem registerERC20Extension_ok {denom : String} {pair : TokenPair}
    (h : (registerERC20Extension k denom).run s = .ok pair t) :
    ∃ contract, newTokenPairSTRv2 k.evm.keccak256 denom = .ok pair ∧
      pair = newTokenPair k.evm.keccak256 contract denom .ownerModule ∧
      validateDenom denom = true ∧ s.store.denomMap denom = none ∧ s.store.erc20Map contract = none ∧
      t.store = (s.store.addToken k.sum pair).setDynamicPrecompile k.evm.keccak256 contract ∧
      hasCodeHash k s.world contract = false ∧
      (t.world = s.world ∨ (registerERC20CodeHash k contract).run s.world = .ok () t.world) := by
  simp only [registerERC20Extension, run_bind_eq_ok, run_pure_eq_ok] at h
  obtain ⟨created, middle, hcreate, _, last, henable, rfl, rfl⟩ := h
  obtain ⟨contract, hpair, rfl, hdenom, hfresh, hfree, hcode, rfl⟩ := createNewTokenPair_ok hcreate
  rw [getERC20Contract_newTokenPair] at henable
  obtain ⟨hstore, hworld⟩ := enableDynamicPrecompile_ok henable
  exact ⟨contract, hpair, rfl, hdenom, hfresh, hfree, hstore, hcode, hworld.imp_left And.right⟩

theorem registerERC20Extension_changes {denom : String} {pair : TokenPair} (htext : pair.idBytes ∈ texts)
    (h : (registerERC20Extension k denom).run s = .ok pair t) : Changes k texts s.store t.store := by
  obtain ⟨contract, -, rfl, hdenom, hfresh, hfree, hstore, -⟩ := registerERC20Extension_ok h
  rw [hstore]
  exact .tail (.single (.register s.store contract denom .ownerModule hdenom hfresh hfree htext))
    (.enable _ contract _ _ (addToken_stored _ _ _) (getERC20Contract_newTokenPair _ _ _ _) rfl)

theorem createCoinMetadata_ok {contract : Address} {metadata : Metadata}
    (h : (createCoinMetadata k contract).run s = .ok metadata t) :
    metadata.name = createDenom (addressHex k contract) ∧ t.store = s.store := by
  simp only [createCoinMetadata, run_get_bind, run_lift_bind] at h
  obtain ⟨data, -, -, -, -, -, -, -, h⟩ := h
  simp only [run_bind_eq_ok, run_onWorld_eq_ok, run_pure_eq_ok] at h
  obtain ⟨_, _, ⟨_, -, rfl⟩, rfl, rfl⟩ := h
  exact ⟨rfl, rfl⟩

theorem registerERC20_changes {contract : Address} {pair : TokenPair}
    (htext : (newTokenPair k.evm.keccak256 contract (createDenom (addressHex k contract)) .ownerExternal).idBytes ∈
      texts)
    (h : (registerERC20 k contract).run s = .ok pair t) : Changes k texts s.store t.store := by
  simp only [registerERC20, run_get_bind, run_lift_bind] at h
  obtain ⟨-, -, h⟩ := h
  simp only [run_bind_eq_ok, wrapError_eq_ok, run_onStore_eq_ok, run_pure_eq_ok] at h
  obtain ⟨metadata, middle, hmetadata, _, last, ⟨store, hset, rfl⟩, -, rfl⟩ := h
  obtain ⟨hname, hstore⟩ := createCoinMetadata_ok hmetadata
  obtain ⟨hdenom, hfree, rfl⟩ := setToken_ok hset
  rw [hstore] at hdenom hfree ⊢
  rw [hname] at hdenom ⊢
  exact .single (.register s.store contract _ .ownerExternal (validateDenom_createDenom _ _) hdenom
    (by simpa using hfree) htext)

theorem registerERC20s_changes {req : MsgRegisterERC20} (htexts : req.texts k ⊆ texts)
    (h : (registerERC20s k req).run s = .ok () t) : Changes k texts s.store t.store := by
  rw [registerERC20s, run_get_bind, run_bind_eq_ok] at h
  obtain ⟨_, middle, hauthority, h⟩ := h
  rw [run_runIf_eq_ok, run_lift_eq_ok] at hauthority
  rw [run_lift_bind] at h
  obtain ⟨-, -, hloop⟩ := h
  have hsame : s = middle := by
    split at hauthority
    · exact hauthority.2
    · exact hauthority
  subst hsame
  refine forM_ok (fun t : State R => Changes k texts s.store t.store) req.erc20Addresses ?_ hloop .refl
  intro address haddress r t h hchanges
  rw [registerAddress, run_lift_bind] at h
  obtain ⟨-, -, h⟩ := h
  simp only [run_bind_eq_ok, run_pure_eq_ok] at h
  obtain ⟨pair, _, hregister, -, rfl⟩ := h
  exact hchanges.trans (registerERC20_changes (htexts ⟨address, haddress, rfl⟩) hregister)

theorem toggleConversion_changes {req : MsgToggleConversion} (h : (toggleConversion k req).run s = .ok () t) :
    Changes k texts s.store t.store := by
  simp only [toggleConversion, run_get_bind, run_lift_bind] at h
  obtain ⟨-, -, -, -, h⟩ := h
  simp only [run_bind_eq_ok, run_onStore_eq_ok, run_pure_eq_ok] at h
  obtain ⟨pair, _, ⟨store, htoggle, rfl⟩, -, rfl⟩ := h
  obtain ⟨id, stored, -, hstored, rfl⟩ := toggleConversion_ok htoggle
  exact .single (.toggle s.store stored id hstored)

theorem updateParams_changes {req : MsgUpdateParams} (h : (updateParams k req).run s = .ok () t) :
    Changes k texts s.store t.store := by
  simp only [updateParams, run_get_bind, run_lift_bind, run_onStore_eq_ok, run_modify_eq_ok] at h
  obtain ⟨-, -, _, rfl, rfl⟩ := h
  exact .single (.params s.store req.params)

theorem mintingEnabled_ok {receiver : AccAddress} {token : String} {pair : TokenPair}
    (h : mintingEnabled k s receiver token = .ok pair) :
    s.store.params.enableErc20 = true ∧ pair.enabled = true ∧
      ∃ id, s.store.getTokenPairID token = some id ∧ s.store.tokenPairs[id]? = some pair := by
  simp only [mintingEnabled, Check.bind_eq_ok, failIf_eq_ok, orFail_eq_ok, Check.pure_eq_ok] at h
  obtain ⟨-, henabled, id, hid, found, hfound, -, hactive, -, -, -, -, rfl⟩ := h
  exact ⟨by simpa using henabled, by simpa using hactive, id, hid, hfound⟩

theorem convertERC20IntoCoins_ok {contract sender : Address} {amount : SdkInt} {receiver : AccAddress}
    (h : (convertERC20IntoCoinsForNativeToken k contract amount receiver sender).run s = .ok () t) :
    ∃ (id : Bytes) (pair : TokenPair), s.store.erc20Map contract = some id ∧
      s.store.tokenPairs[id]? = some pair ∧ pair.isNativeERC20 = true ∧
      (hasCodeHash k s.world pair.getERC20Contract = false ∧
          t = { s with store := s.store.deleteTokenPair k.sum pair } ∨
        (onWorld (mintForTokens k pair amount receiver sender)).run s = .ok () t) := by
  simp only [convertERC20IntoCoinsForNativeToken, run_get_bind, run_lift_bind] at h
  obtain ⟨pair, hpair, h⟩ := h
  obtain ⟨-, -, id, hid, hstored⟩ := mintingEnabled_ok hpair
  split at h
  · cases h
  rename_i hnative
  refine ⟨id, pair, by simpa [Store.getTokenPairID, addressHex] using hid, hstored, by simpa using hnative, ?_⟩
  split at h
  · rename_i hcode
    simp only [run_onStore_eq_ok, run_modify_eq_ok] at h
    obtain ⟨_, rfl, rfl⟩ := h
    exact .inl ⟨by simpa using hcode, rfl⟩
  · exact .inr h

theorem convertCoin_ok {msg : MsgConvertCoin} (h : (convertCoin k msg).run s = .ok () t) :
    ∃ (id : Bytes) (pair : TokenPair) (sender : AccAddress), k.accAddressFromBech32 msg.sender = .ok sender ∧
      s.store.getTokenPairID msg.coin.denom = some id ∧ s.store.tokenPairs[id]? = some pair ∧
      pair.isNativeERC20 = true ∧
      (hasCodeHash k s.world pair.getERC20Contract = false ∧
          t = { s with store := s.store.deleteTokenPair k.sum pair } ∨
        (onWorld (convertCoinNativeERC20 k pair msg.coin.amount (Ethereum.hexToAddress msg.receiver)
          sender)).run s = .ok () t) := by
  simp only [convertCoin, run_get_bind, run_lift_bind, annotate_eq_ok, passOn_eq_ok] at h
  obtain ⟨-, -, -, -, sender, hsender, -, -, pair, hpair, h⟩ := h
  obtain ⟨-, -, id, hid, hstored⟩ := mintingEnabled_ok hpair
  split at h
  · cases h
  rename_i hnative
  refine ⟨id, pair, sender, hsender, hid, hstored, by simpa using hnative, ?_⟩
  split at h
  · rename_i hcode
    simp only [run_onStore_eq_ok, run_modify_eq_ok] at h
    obtain ⟨_, rfl, rfl⟩ := h
    exact .inl ⟨by simpa using hcode, rfl⟩
  · exact .inr h

theorem convertERC20_ok {msg : MsgConvertERC20} (h : (convertERC20 k msg).run s = .ok () t) :
    msg.amount.isPositive = true ∧ ∃ receiver, k.accAddressFromBech32 msg.receiver = .ok receiver ∧
      (convertERC20IntoCoinsForNativeToken k (Ethereum.hexToAddress msg.contractAddress) msg.amount receiver
        (Ethereum.hexToAddress msg.sender)).run s = .ok () t := by
  simp only [convertERC20, run_lift_bind, failIf_eq_ok, annotate_eq_ok, passOn_eq_ok] at h
  obtain ⟨-, -, -, hpositive, receiver, hreceiver, -, -, h⟩ := h
  exact ⟨by simpa using hpositive, receiver, hreceiver, h⟩

theorem convertERC20IntoCoins_changes {contract sender : Address} {amount : SdkInt} {receiver : AccAddress}
    (h : (convertERC20IntoCoinsForNativeToken k contract amount receiver sender).run s = .ok () t) :
    Changes k texts s.store t.store := by
  obtain ⟨id, pair, -, hstored, -, ⟨-, rfl⟩ | hconvert⟩ := convertERC20IntoCoins_ok h
  · exact .single (.delete s.store pair id hstored)
  · rw [store_onWorld hconvert]
    exact .refl

theorem convertERC20_changes {msg : MsgConvertERC20} (h : (convertERC20 k msg).run s = .ok () t) :
    Changes k texts s.store t.store := by
  obtain ⟨-, receiver, -, hconvert⟩ := convertERC20_ok h
  exact convertERC20IntoCoins_changes hconvert

theorem convertCoin_changes {msg : MsgConvertCoin} (h : (convertCoin k msg).run s = .ok () t) :
    Changes k texts s.store t.store := by
  obtain ⟨id, pair, sender, -, -, hstored, -, ⟨-, rfl⟩ | hconvert⟩ := convertCoin_ok h
  · exact .single (.delete s.store pair id hstored)
  · rw [store_onWorld hconvert]
    exact .refl

-- A received packet is left alone, gives its coin an extension or is converted.
theorem onRecvPacket_ok {packet : Packet} (h : (onRecvPacket k packet).run s = .ok () t) :
    t = s ∨ (∃ data pair, packet.data = some data ∧ (registerERC20Extension k
        (getReceivedDenom k packet (k.extractDenomFromPath data.denom))).run s = .ok pair t) ∨
      ∃ (id : Bytes) (pair : TokenPair) (amount : SdkInt) (recipient : AccAddress),
        s.store.tokenPairs[id]? = some pair ∧ pair.isNativeERC20 = true ∧
        (onWorld (convertCoinNativeERC20 k pair amount (Ethereum.bytesToAddress recipient) recipient)).run s =
          .ok () t := by
  have hsame : (pure () : Action (State R) Unit).run s = .ok () t → t = s := by
    intro h
    exact ((run_pure_eq_ok () () s t).mp h).2.symm
  simp only [onRecvPacket, run_get_bind] at h
  split at h
  · exact .inl (hsame h)
  simp only [run_lift_bind] at h
  obtain ⟨data, hdata, h⟩ := h
  rw [orFail_eq_ok] at hdata
  split at h
  · exact .inl (hsame h)
  simp only [run_lift_bind] at h
  obtain ⟨bondDenom, -, h⟩ := h
  split at h
  · exact .inl (hsame h)
  simp only [run_lift_bind] at h
  obtain ⟨recipient, -, h⟩ := h
  split at h
  · exact .inl (hsame h)
  unfold dispatchReceived at h
  split at h
  · split at h
    · simp only [run_bind_eq_ok, run_pure_eq_ok] at h
      obtain ⟨pair, _, hextend, -, rfl⟩ := h
      exact .inr (.inl ⟨data, pair, hdata, hextend⟩)
    · exact .inl (hsame h)
  · rename_i found hfound
    split at h
    · rename_i hnative
      simp only [convertReceived, run_lift_bind] at h
      obtain ⟨pair, hminting, amount, -, h⟩ := h
      obtain ⟨-, -, id, hid, hstored⟩ := mintingEnabled_ok hminting
      have hpair : found = pair := by
        rw [hid, Store.getTokenPair, Option.bind_some, hstored] at hfound
        exact (Option.some.inj hfound).symm
      subst hpair
      rw [Bool.and_eq_true] at hnative
      exact .inr (.inr ⟨id, found, amount, recipient, hstored, hnative.1, h⟩)
    · exact .inl (hsame h)

theorem onRecvPacket_changes {packet : Packet} (htexts : packet.texts k ⊆ texts)
    (h : (onRecvPacket k packet).run s = .ok () t) : Changes k texts s.store t.store := by
  rcases onRecvPacket_ok h with rfl | ⟨data, pair, hdata, hextend⟩ | ⟨id, pair, amount, recipient, -, -, hconvert⟩
  · exact .refl
  · obtain ⟨_, hpair, -⟩ := registerERC20Extension_ok hextend
    exact registerERC20Extension_changes (htexts ⟨data, pair, hdata, hpair, rfl⟩) hextend
  · rw [store_onWorld hconvert]
    exact .refl

theorem convertCoinToERC20FromPacket_store {data : FungibleTokenPacketData}
    (h : (convertCoinToERC20FromPacket k data).run s = .ok () t) : t.store = s.store := by
  simp only [convertCoinToERC20FromPacket, run_lift_bind, run_get_bind] at h
  obtain ⟨sender, -, h⟩ := h
  split at h
  · obtain ⟨-, rfl⟩ := (run_pure_eq_ok () () s t).mp h
    rfl
  · simp only [run_bind_eq_ok, run_pure_eq_ok] at h
    obtain ⟨succeeded, _, hattempt, -, rfl⟩ := h
    exact store_attempt_onWorld hattempt

end Operations

end PosChain.Erc20
