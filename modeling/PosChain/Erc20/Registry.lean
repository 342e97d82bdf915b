import PosChain.Base.IndexedTable
import PosChain.Base.Run
import PosChain.Erc20.Ledger

namespace PosChain.Erc20

open Evm (World)

-- The pair table and its two indexes describe one bijection between addresses
-- and denominations, and allowances belong to tokens with a pair.
structure Store.Bijective (s : Store) : Prop where
  byErc20 : ∀ address id, s.erc20Map address = some id ↔
    ∃ pair, s.tokenPairs[id]? = some pair ∧ pair.getERC20Contract = address
  byDenom : ∀ denom id, s.denomMap denom = some id ↔
    ∃ pair, s.tokenPairs[id]? = some pair ∧ pair.denom = denom
  unique : ∀ (first second : Bytes) (left right : TokenPair), s.tokenPairs[first]? = some left →
    s.tokenPairs[second]? = some right →
    left.getERC20Contract = right.getERC20Contract ∨ left.denom = right.denom → first = second
  allowed : ∀ (key : Bytes) (allowance : Allowance), s.allowances[key]? = some allowance →
    ∃ erc20 owner spender pair, key = allowanceKey erc20 owner spender ∧
      s.getTokenPair (s.erc20Map erc20) = some pair

def Store.pairAt (s : Store) (id : Bytes) : Option TokenPair :=
  s.tokenPairs[id]?

-- What is kept along a run: both indexes are exact, and every pair is stored under
-- its own identifier, which is the digest of one of the texts.
structure Store.Indexed (sum : Bytes → Bytes) (texts : Set Bytes) (s : Store) : Prop where
  id_eq : ∀ id pair, s.pairAt id = some pair → id = pair.getID sum
  known : ∀ id pair, s.pairAt id = some pair → pair.idBytes ∈ texts
  isHex : ∀ id pair, s.pairAt id = some pair → Ethereum.isHexAddress pair.erc20Address = true
  byErc20 : IndexesBy s.pairAt TokenPair.getERC20Contract s.erc20Map
  byDenom : IndexesBy s.pairAt TokenPair.denom s.denomMap
  allowed : ∀ (key : Bytes) (allowance : Allowance), s.allowances[key]? = some allowance →
    ∃ erc20 owner spender, key = allowanceKey erc20 owner spender ∧ (s.erc20Map erc20).isSome = true

theorem Store.Indexed.bijective {sum : Bytes → Bytes} {texts : Set Bytes} {s : Store} (h : s.Indexed sum texts) :
    s.Bijective where
  byErc20 := h.byErc20
  byDenom := h.byDenom
  unique first second left right hleft hright hsame := by
    rcases hsame with hsame | hsame
    · exact h.byErc20.unique hleft hright hsame
    · exact h.byDenom.unique hleft hright hsame
  allowed key allowance hkey := by
    obtain ⟨erc20, owner, spender, rfl, hsome⟩ := h.allowed key allowance hkey
    obtain ⟨id, hid⟩ := Option.isSome_iff_exists.mp hsome
    obtain ⟨pair, hpair, -⟩ := (h.byErc20 erc20 id).mp hid
    exact ⟨erc20, owner, spender, pair, rfl, by rw [Store.getTokenPair, hid]; exact hpair⟩

-- Neither an address nor a denomination contains the separator of an identifier.
section Identifiers

-- A list with a separator that its front does not contain is split in one way.
theorem append_separator_injective {α : Type} {separator : α} {front front' back back' : List α}
    (h : separator ∉ front) (h' : separator ∉ front')
    (heq : front ++ separator :: back = front' ++ separator :: back') : front = front' ∧ back = back' := by
  rcases List.append_eq_append_iff.mp heq with ⟨more, hfront, hback⟩ | ⟨more, hfront, hback⟩
  · cases more with
    | nil => exact ⟨by simpa using hfront.symm, by simpa using hback⟩
    | cons first rest =>
      obtain rfl : separator = first := by simpa using congrArg List.head? hback
      exact absurd (by simp [hfront]) h'
  · cases more with
    | nil => exact ⟨by simpa using hfront, by simpa using hback.symm⟩
    | cons first rest =>
      obtain rfl : separator = first := by simpa using congrArg List.head? hback
      exact absurd (by simp [hfront]) h

theorem idText_injective {left right : TokenPair} (hleft : Ethereum.isHexAddress left.erc20Address = true)
    (hright : Ethereum.isHexAddress right.erc20Address = true) (h : left.idText = right.idText) :
    left.erc20Address = right.erc20Address ∧ left.denom = right.denom := by
  have hbytes (pair : TokenPair) : Bytes.utf8 pair.idText =
      Bytes.utf8 pair.erc20Address ++ 124 :: Bytes.utf8 pair.denom := by
    have hbar : String.utf8EncodeChar '|' = [124] := by decide
    simp [Text.utf8_eq_flatMap, TokenPair.idText, hbar]
  have hfree {pair : TokenPair} (h : Ethereum.isHexAddress pair.erc20Address = true) :
      124 ∉ Bytes.utf8 pair.erc20Address := by
    intro hmem
    have hbar := Ethereum.isHex_or_of_isHexAddress h 124 hmem
    revert hbar
    decide
  have heq := congrArg Bytes.utf8 h
  rw [hbytes, hbytes] at heq
  obtain ⟨haddress, hdenom⟩ := append_separator_injective (hfree hleft) (hfree hright) heq
  exact ⟨Bytes.utf8_injective haddress, Bytes.utf8_injective hdenom⟩

theorem isPrefixOf_allowanceKey (address erc20 owner spender : Address) :
    address.bytes.isPrefixOf (allowanceKey erc20 owner spender) = true ↔ address = erc20 := by
  rw [List.isPrefixOf_iff_prefix]
  constructor
  · rintro ⟨rest, hrest⟩
    simp only [allowanceKey, List.append_assoc] at hrest
    have h := List.append_inj hrest (by rw [address.length_eq, erc20.length_eq])
    exact Address.eq_of_bytes h.1
  · rintro rfl
    exact ⟨owner.bytes ++ spender.bytes, by simp [allowanceKey]⟩

end Identifiers

section Tables

variable (sum : Bytes → Bytes) (s : Store) (pair : TokenPair)

theorem pairAt_setTokenPair :
    (s.setTokenPair sum pair).pairAt = Function.update s.pairAt (pair.getID sum) (some pair) := by
  funext id
  simp only [Store.pairAt, Store.setTokenPair, Std.ExtTreeMap.getElem?_insert, Function.update_apply,
    Std.LawfulEqCmp.compare_eq_iff_eq, eq_comm (a := id)]

theorem pairAt_addToken :
    (s.addToken sum pair).pairAt = Function.update s.pairAt (pair.getID sum) (some pair) :=
  pairAt_setTokenPair sum s pair

theorem pairAt_deleteTokenPair :
    (s.deleteTokenPair sum pair).pairAt = Function.update s.pairAt (pair.getID sum) none := by
  funext id
  simp only [Store.pairAt, Store.deleteTokenPair, Store.deleteAllowances, Store.setDenomMap,
    Store.setERC20Map, Std.ExtTreeMap.getElem?_erase, Function.update_apply,
    Std.LawfulEqCmp.compare_eq_iff_eq, eq_comm (a := id)]

theorem allowances_deleteTokenPair {key : Bytes} {allowance : Allowance}
    (h : (s.deleteTokenPair sum pair).allowances[key]? = some allowance) :
    s.allowances[key]? = some allowance ∧ pair.getERC20Contract.bytes.isPrefixOf key = false := by
  change (s.allowances.filter fun key _ => !pair.getERC20Contract.bytes.isPrefixOf key)[key]? = _ at h
  rw [Std.ExtTreeMap.getElem?_filter] at h
  obtain ⟨hfound, hkept⟩ := Option.pfilter_eq_some_iff.mp h
  exact ⟨hfound, by simpa using hkept⟩

theorem isSome_of_getTokenPair {s : Store} {erc20 : Address} {pair : TokenPair}
    (h : s.getTokenPair (s.erc20Map erc20) = some pair) : (s.erc20Map erc20).isSome = true := by
  cases hmap : s.erc20Map erc20 with
  | none => simp [Store.getTokenPair, hmap] at h
  | some id => rfl

theorem putAllowance_eq (keccak256 : Bytes → Hash) (erc20 owner spender : Address) (value : SdkInt) :
    ∃ allowances, s.putAllowance keccak256 erc20 owner spender value = { s with allowances := allowances } := by
  by_cases h : value.isZero = true
  · exact ⟨_, if_pos h⟩
  · exact ⟨_, if_neg h⟩

theorem allowances_putAllowance (keccak256 : Bytes → Hash) (erc20 owner spender : Address) (value : SdkInt)
    (key : Bytes) : (s.putAllowance keccak256 erc20 owner spender value).allowances[key]? =
      if allowanceKey erc20 owner spender = key then
        if value.isZero then none else some (newAllowance keccak256 erc20 owner spender value)
      else s.allowances[key]? := by
  unfold Store.putAllowance
  by_cases hzero : value.isZero = true
  · simp [hzero, Std.ExtTreeMap.getElem?_erase]
  · simp [hzero, Std.ExtTreeMap.getElem?_insert]

end Tables

namespace Store.Indexed

variable {sum : Bytes → Bytes} {texts : Set Bytes} {s t : Store}

theorem empty : Store.empty.Indexed sum texts where
  id_eq := by simp [Store.empty, Store.pairAt]
  known := by simp [Store.empty, Store.pairAt]
  isHex := by simp [Store.empty, Store.pairAt]
  byErc20 := by
    intro address id
    simp [Store.empty, Store.pairAt]
  byDenom := by
    intro denom id
    simp [Store.empty, Store.pairAt]
  allowed := by simp [Store.empty]

theorem congr (h : s.Indexed sum texts) (hpairs : t.tokenPairs = s.tokenPairs) (herc20 : t.erc20Map = s.erc20Map)
    (hdenom : t.denomMap = s.denomMap) (hallowances : t.allowances = s.allowances) : t.Indexed sum texts := by
  obtain ⟨params, pairs, erc20Map, denomMap, allowances, native, dynamic⟩ := t
  dsimp only at hpairs herc20 hdenom hallowances
  subst hpairs herc20 hdenom hallowances
  exact ⟨h.id_eq, h.known, h.isHex, h.byErc20, h.byDenom, h.allowed⟩

-- A stored pair under the identifier of another one would have the same denomination.
theorem fresh_id (hsum : Set.InjOn sum texts) (h : s.Indexed sum texts) {pair : TokenPair}
    (htext : pair.idBytes ∈ texts) (hhex : Ethereum.isHexAddress pair.erc20Address = true)
    (hdenom : s.denomMap pair.denom = none) : s.pairAt (pair.getID sum) = none := by
  by_contra hne
  obtain ⟨stored, hstored⟩ := Option.ne_none_iff_exists'.mp hne
  have hbytes : pair.idBytes = stored.idBytes :=
    hsum htext (h.known _ stored hstored) (h.id_eq _ stored hstored)
  obtain ⟨-, hsame⟩ := idText_injective hhex (h.isHex _ stored hstored) (Bytes.utf8_injective hbytes)
  have hmap := h.byDenom.index_row hstored
  rw [← hsame, hdenom] at hmap
  cases hmap

theorem addToken (hsum : Set.InjOn sum texts) (h : s.Indexed sum texts) {pair : TokenPair}
    (htext : pair.idBytes ∈ texts) (hhex : Ethereum.isHexAddress pair.erc20Address = true)
    (hdenom : s.denomMap pair.denom = none) (herc20 : s.erc20Map pair.getERC20Contract = none) :
    (s.addToken sum pair).Indexed sum texts := by
  have hfresh := h.fresh_id hsum htext hhex hdenom
  have hcases {id : Bytes} {found : TokenPair} (hfound : (s.addToken sum pair).pairAt id = some found) :
      id = pair.getID sum ∧ found = pair ∨ s.pairAt id = some found := by
    rw [pairAt_addToken, Function.update_apply] at hfound
    split at hfound
    · rename_i heq
      exact .inl ⟨heq, (Option.some.inj hfound).symm⟩
    · exact .inr hfound
  constructor
  · intro id found hfound
    rcases hcases hfound with ⟨rfl, rfl⟩ | hstored
    · rfl
    · exact h.id_eq id found hstored
  · intro id found hfound
    rcases hcases hfound with ⟨rfl, rfl⟩ | hstored
    · exact htext
    · exact h.known id found hstored
  · intro id found hfound
    rcases hcases hfound with ⟨rfl, rfl⟩ | hstored
    · exact hhex
    · exact h.isHex id found hstored
  · rw [pairAt_addToken]
    exact h.byErc20.insert hfresh herc20
  · rw [pairAt_addToken]
    exact h.byDenom.insert hfresh hdenom
  · intro key allowance hkey
    obtain ⟨erc20, owner, spender, rfl, hsome⟩ := h.allowed key allowance hkey
    refine ⟨erc20, owner, spender, rfl, ?_⟩
    change (Function.update s.erc20Map pair.getERC20Contract (some (pair.getID sum)) erc20).isSome = true
    rw [Function.update_apply]
    split
    · rfl
    · exact hsome

theorem replace (h : s.Indexed sum texts) {id : Bytes} {stored pair : TokenPair}
    (hstored : s.pairAt id = some stored) (haddress : pair.erc20Address = stored.erc20Address)
    (hdenom : pair.denom = stored.denom) : (s.setTokenPair sum pair).Indexed sum texts := by
  have htext : pair.idBytes = stored.idBytes := by
    rw [TokenPair.idBytes, TokenPair.idBytes, TokenPair.idText, TokenPair.idText, haddress, hdenom]
  have hid : pair.getID sum = id := by
    rw [h.id_eq id stored hstored]
    exact congrArg sum htext
  have hcontract : pair.getERC20Contract = stored.getERC20Contract := by
    rw [TokenPair.getERC20Contract, TokenPair.getERC20Contract, haddress]
  have hcases {other : Bytes} {found : TokenPair} (hfound : (s.setTokenPair sum pair).pairAt other = some found) :
      other = id ∧ found = pair ∨ s.pairAt other = some found := by
    rw [pairAt_setTokenPair, hid, Function.update_apply] at hfound
    split at hfound
    · rename_i heq
      exact .inl ⟨heq, (Option.some.inj hfound).symm⟩
    · exact .inr hfound
  constructor
  · intro other found hfound
    rcases hcases hfound with ⟨rfl, rfl⟩ | hfound
    · exact hid.symm
    · exact h.id_eq other found hfound
  · intro other found hfound
    rcases hcases hfound with ⟨rfl, rfl⟩ | hfound
    · rw [htext]
      exact h.known other stored hstored
    · exact h.known other found hfound
  · intro other found hfound
    rcases hcases hfound with ⟨rfl, rfl⟩ | hfound
    · rw [haddress]
      exact h.isHex other stored hstored
    · exact h.isHex other found hfound
  · rw [pairAt_setTokenPair, hid]
    exact h.byErc20.replace hstored hcontract
  · rw [pairAt_setTokenPair, hid]
    exact h.byDenom.replace hstored hdenom
  · exact h.allowed

theorem deleteTokenPair (h : s.Indexed sum texts) {id : Bytes} {pair : TokenPair}
    (hstored : s.pairAt id = some pair) : (s.deleteTokenPair sum pair).Indexed sum texts := by
  obtain rfl := h.id_eq id pair hstored
  have hkept {other : Bytes} {found : TokenPair}
      (hfound : (s.deleteTokenPair sum pair).pairAt other = some found) : s.pairAt other = some found := by
    rw [pairAt_deleteTokenPair, Function.update_apply] at hfound
    split at hfound
    · cases hfound
    · exact hfound
  constructor
  · intro other found hfound
    exact h.id_eq other found (hkept hfound)
  · intro other found hfound
    exact h.known other found (hkept hfound)
  · intro other found hfound
    exact h.isHex other found (hkept hfound)
  · rw [pairAt_deleteTokenPair]
    exact h.byErc20.erase hstored
  · rw [pairAt_deleteTokenPair]
    exact h.byDenom.erase hstored
  · intro key allowance hkey
    obtain ⟨hkey, hpre⟩ := allowances_deleteTokenPair sum s pair hkey
    obtain ⟨erc20, owner, spender, rfl, hsome⟩ := h.allowed key allowance hkey
    refine ⟨erc20, owner, spender, rfl, ?_⟩
    change (Function.update s.erc20Map pair.getERC20Contract none erc20).isSome = true
    rw [Function.update_of_ne, hsome]
    rintro rfl
    rw [(isPrefixOf_allowanceKey _ _ owner spender).mpr rfl] at hpre
    cases hpre

theorem putAllowance (h : s.Indexed sum texts) (keccak256 : Bytes → Hash) {erc20 : Address} (owner spender : Address)
    (value : SdkInt) (hsome : (s.erc20Map erc20).isSome = true) :
    (s.putAllowance keccak256 erc20 owner spender value).Indexed sum texts := by
  have hallowances := allowances_putAllowance s keccak256 erc20 owner spender value
  obtain ⟨allowances, heq⟩ := putAllowance_eq s keccak256 erc20 owner spender value
  rw [heq] at hallowances ⊢
  refine ⟨h.id_eq, h.known, h.isHex, h.byErc20, h.byDenom, ?_⟩
  intro key allowance hkey
  rw [hallowances] at hkey
  split at hkey
  · rename_i heq
    exact ⟨erc20, owner, spender, heq.symm, hsome⟩
  · exact h.allowed key allowance hkey

theorem change {R : Type} {k : Env R} (hsum : Set.InjOn k.sum texts) (h : s.Indexed k.sum texts)
    (hchange : Change k texts s t) : t.Indexed k.sum texts := by
  cases hchange with
  | params params => exact h.congr rfl rfl rfl rfl
  | register contract denom owner hdenom hfresh hfree htext =>
    exact h.addToken hsum htext (Ethereum.isHexAddress_addressHex _ _) hfresh (by simpa using hfree)
  | enable address pair id hstored haddress henabled => exact h.congr rfl rfl rfl rfl
  | toggle pair id hstored => exact h.replace hstored rfl rfl
  | delete pair id hstored => exact h.deleteTokenPair hstored
  | allow erc20 owner spender value pair hpair howner hspender hvalue =>
    exact h.putAllowance _ owner spender value (isSome_of_getTokenPair hpair)

theorem changes {R : Type} {k : Env R} (hsum : Set.InjOn k.sum texts) (h : s.Indexed k.sum texts)
    (hchanges : Changes k texts s t) : t.Indexed k.sum texts := by
  induction hchanges with
  | refl => exact h
  | tail _ hchange ih => exact ih.change hsum hchange

end Store.Indexed

section Genesis

variable {R : Type} {k : Env R} {s t : State R}

theorem validateTokenPairs_isHex {seenErc20 seenDenom seen : List String} {pairs : List TokenPair}
    (h : validateTokenPairs seenErc20 seenDenom pairs = .ok seen) :
    ∀ pair ∈ pairs, Ethereum.isHexAddress pair.erc20Address = true := by
  induction pairs generalizing seenErc20 seenDenom with
  | nil => simp
  | cons pair rest ih =>
    simp only [validateTokenPairs, TokenPair.validate, validateAddress, Check.bind_eq_ok,
      failIf_eq_ok] at h
    obtain ⟨-, -, -, -, -, ⟨-, -, hhex⟩, hrest⟩ := h
    rintro other hother
    rcases List.mem_cons.mp hother with rfl | hother
    · simpa using hhex
    · exact ih hrest other hother

theorem importTokenPairs_kept (kept : Store → Prop) {pairs : List TokenPair} {imported : Bool}
    (hadd : ∀ pair ∈ pairs, ∀ store, store.denomMap pair.denom = none →
      store.erc20Map pair.getERC20Contract = none → kept store → kept (store.addToken k.sum pair))
    {store next : Store} (h : (importTokenPairs k pairs).run store = .ok imported next) (hs : kept store) :
    kept next := by
  induction pairs generalizing store with
  | nil =>
    obtain ⟨-, rfl⟩ := (run_pure_eq_ok _ _ _ _).mp h
    exact hs
  | cons pair rest ih =>
    rw [importTokenPairs, run_bind_eq_ok] at h
    obtain ⟨stored, middle, hattempt, hrest⟩ := h
    rw [attempt_eq_ok] at hattempt
    obtain ⟨rfl, hset⟩ | ⟨rfl, text, herror⟩ := hattempt
    · obtain ⟨hdenom, herc20, rfl⟩ := setToken_ok hset
      exact ih (fun other hother => hadd other (List.mem_cons_of_mem pair hother)) hrest
        (hadd pair List.mem_cons_self store hdenom herc20 hs)
    · obtain ⟨rfl, -⟩ := setToken_error herror
      obtain ⟨-, rfl⟩ := (run_pure_eq_ok _ _ _ _).mp hrest
      exact hs

theorem initGenesis_kept (kept : Store → Prop) {g : GenesisState}
    (hparams : ∀ store params, kept store → kept { store with params := params })
    (hadd : ∀ pair ∈ g.tokenPairs, ∀ store, store.denomMap pair.denom = none →
      store.erc20Map pair.getERC20Contract = none → kept store → kept (store.addToken k.sum pair))
    (hlist : ∀ store native dynamic, kept store →
      kept { store with nativePrecompiles := native, dynamicPrecompiles := dynamic })
    (hallow : ∀ store erc20 owner spender value, (store.erc20Map erc20).isSome = true → 0 ≤ value.value →
      kept store → kept (store.putAllowance k.evm.keccak256 erc20 owner spender value))
    (h : (initGenesis k g).run s = .ok () t) (hs : kept s.store) : kept t.store := by
  simp only [initGenesis, run_bind_eq_ok, run_onStore_eq_ok, run_modify_eq_ok, run_onWorld_eq_ok,
    run_runIf_eq_ok] at h
  obtain ⟨_, _, ⟨_, rfl, rfl⟩, _, _, ⟨world, -, rfl⟩, imported, _, ⟨store, himport, rfl⟩, hrest⟩ := h
  have hstore : kept store := importTokenPairs_kept kept hadd himport (hparams _ _ hs)
  split at hrest
  · simp only [importRest, run_bind_eq_ok, run_onStore_eq_ok] at hrest
    obtain ⟨_, native, hnative, _, dynamic, hdynamic, _, hallowances, rfl⟩ := hrest
    have hnative' : kept native.store := by
      refine forM_ok (fun t : State R => kept t.store) _ ?_ hnative hstore
      intro precompile _ r t hrun hr
      rw [run_orPanic_eq_ok] at hrun
      rw [(enableNativePrecompile_ok hrun).1]
      exact hlist _ _ _ hr
    have hdynamic' : kept dynamic.store := by
      refine forM_ok (fun t : State R => kept t.store) _ ?_ hdynamic hnative'
      intro precompile _ r t hrun hr
      rw [run_orPanic_eq_ok] at hrun
      rw [(enableDynamicPrecompile_ok hrun).1]
      exact hlist _ _ _ hr
    refine forM_ok kept _ ?_ hallowances hdynamic'
    intro allowance _ r t hrun hr
    rw [importAllowance, run_orPanic_eq_ok] at hrun
    obtain ⟨pair, number, hpair, -, -, -, hnumber, hvalue, rfl⟩ := writeAllowance_ok hrun
    exact hallow _ _ _ _ _ (isSome_of_getTokenPair hpair) (hnumber ▸ hvalue) hr
  · rw [← hrest]
    exact hstore

theorem initGenesis_indexed {texts : Set Bytes} (hsum : Set.InjOn k.sum texts) {g : GenesisState}
    (hvalid : g.validate = .ok ()) (htexts : ∀ pair ∈ g.tokenPairs, pair.idBytes ∈ texts)
    (h : (initGenesis k g).run s = .ok () t) (hs : s.store.Indexed k.sum texts) : t.store.Indexed k.sum texts := by
  simp only [GenesisState.validate, Check.bind_eq_ok] at hvalid
  obtain ⟨seen, hpairs, -⟩ := hvalid
  refine initGenesis_kept (Store.Indexed k.sum texts) ?_ ?_ ?_ ?_ h hs
  · intro store params hstore
    exact hstore.congr rfl rfl rfl rfl
  · intro pair hpair store hdenom herc20 hstore
    exact hstore.addToken hsum (htexts pair hpair) (validateTokenPairs_isHex hpairs pair hpair) hdenom herc20
  · intro store native dynamic hstore
    exact hstore.congr rfl rfl rfl rfl
  · intro store erc20 owner spender value hmap _ hstore
    exact hstore.putAllowance _ owner spender value hmap

end Genesis

-- The calls that reach the module. Between them the other stores may change in any
-- way; a packet whose receipt ends in an error acknowledgement is rolled back.
inductive Call (R : Type) where
  | convertERC20 (msg : Keeper.MsgConvertERC20)
  | convertCoin (msg : Keeper.MsgConvertCoin)
  | updateParams (req : Keeper.MsgUpdateParams)
  | registerERC20 (req : Keeper.MsgRegisterERC20)
  | toggleConversion (req : Keeper.MsgToggleConversion)
  | setAllowance (erc20 owner spender : Address) (value : Int)
  | recvPacket (packet : Keeper.Packet)
  | acknowledgePacket (data : Keeper.FungibleTokenPacketData) (ack : Keeper.Acknowledgement)
  | timeoutPacket (data : Keeper.FungibleTokenPacketData)
  | transferERC20 (contract : Address) (amount : SdkInt) (receiver : AccAddress) (sender : Address)
  | elsewhere (world : World R)

section Runs

variable {R : Type} (k : Env R)

def perform : Call R → Action (State R) Unit
  | .convertERC20 msg => Keeper.convertERC20 k msg
  | .convertCoin msg => Keeper.convertCoin k msg
  | .updateParams req => Keeper.updateParams k req
  | .registerERC20 req => Keeper.registerERC20s k req
  | .toggleConversion req => Keeper.toggleConversion k req
  | .setAllowance erc20 owner spender value =>
    onStore (Store.setAllowance k.evm.keccak256 erc20 owner spender value)
  | .recvPacket packet => Keeper.onRecvPacket k packet
  | .acknowledgePacket data ack => Keeper.onAcknowledgementPacket k data ack
  | .timeoutPacket data => Keeper.onTimeoutPacket k data
  | .transferERC20 contract amount receiver sender =>
    Keeper.convertERC20IntoCoinsForNativeToken k contract amount receiver sender
  | .elsewhere world => onWorld (set world)

def step (s : State R) (call : Call R) : Option (Unit × State R) :=
  kept ((perform k call).run s)

def Call.texts : Call R → Set Bytes
  | .registerERC20 req => req.texts k
  | .recvPacket packet => packet.texts k
  | _ => ∅

-- What is hashed to identifiers of pairs in a run: the pairs of the genesis document
-- and those of the calls that are accepted.
def occurring (g : GenesisState) (start : State R) (calls : List (Call R)) : Set Bytes :=
  {text | (∃ pair ∈ g.tokenPairs, text = pair.idBytes) ∨
    ∃ entry ∈ Run.accepted (step k) start calls, text ∈ entry.1.texts k}

-- A run from a state that a valid genesis document is imported into, with the other
-- modules in any state.
structure Imported (g : GenesisState) (start : State R) : Prop where
  valid : g.validate = .ok ()
  imported : ∃ world, (initGenesis k g).run ⟨Store.empty, world⟩ = .ok () start

variable {k} {s t : State R}

theorem perform_changes {texts : Set Bytes} {call : Call R} (htexts : call.texts k ⊆ texts)
    (h : (perform k call).run s = .ok () t) : Changes k texts s.store t.store := by
  cases call with
  | convertERC20 msg => exact convertERC20_changes h
  | convertCoin msg => exact convertCoin_changes h
  | updateParams req => exact updateParams_changes h
  | registerERC20 req => exact registerERC20s_changes htexts h
  | toggleConversion req => exact toggleConversion_changes h
  | setAllowance erc20 owner spender value =>
    obtain ⟨store, hset, rfl⟩ := (run_onStore_eq_ok _).mp h
    obtain ⟨pair, number, hpair, -, howner, hspender, hnumber, hsign, rfl⟩ := writeAllowance_ok hset
    exact .single (.allow s.store erc20 owner spender number pair hpair howner hspender (hnumber ▸ hsign))
  | recvPacket packet => exact onRecvPacket_changes htexts h
  | acknowledgePacket data ack =>
    cases ack with
    | result =>
      obtain ⟨-, rfl⟩ := (run_pure_eq_ok () () s t).mp h
      exact .refl
    | error =>
      rw [convertCoinToERC20FromPacket_store h]
      exact .refl
  | timeoutPacket data =>
    rw [convertCoinToERC20FromPacket_store h]
    exact .refl
  | transferERC20 contract amount receiver sender => exact convertERC20IntoCoins_changes h
  | elsewhere world =>
    rw [store_onWorld h]
    exact .refl

theorem run_indexed {texts : Set Bytes} {g : GenesisState} {calls : List (Call R)} (hsum : Set.InjOn k.sum texts)
    (himported : Imported k g s) (htexts : occurring k g s calls ⊆ texts) :
    (Run.run (step k) s calls).store.Indexed k.sum texts := by
  have hstart : s.store.Indexed k.sum texts := by
    obtain ⟨hvalid, world, himport⟩ := himported
    exact initGenesis_indexed hsum hvalid (fun pair hpair => htexts (.inl ⟨pair, hpair, rfl⟩)) himport
      Store.Indexed.empty
  have halong := Run.along_of_accepted (fun call : Call R => call.texts k ⊆ texts) s calls
    fun entry hentry text htext => htexts (.inr ⟨entry, hentry, htext⟩)
  refine halong.invariant (fun s => s.store.Indexed k.sum texts) ?_ hstart
  intro s call result next hstep hcall hs
  exact hs.changes hsum (perform_changes hcall ((kept_eq_some _ _ _).mp hstep))

theorem registry_bijective {g : GenesisState} (himported : Imported k g s) (calls : List (Call R))
    (hsum : Set.InjOn k.sum (occurring k g s calls)) : (Run.run (step k) s calls).store.Bijective :=
  (run_indexed hsum himported subset_rfl).bijective

end Runs

-- A pair of the genesis document, an extension for a voucher and an allowance.
section Ledger

def ledgerPacket : Keeper.Packet :=
  ⟨"transfer", "channel-9", "transfer", "channel-0", some ⟨"uatom", "5", "", holderText⟩⟩

def ledgerCalls : List (Call Book) :=
  [.recvPacket ledgerPacket, .setAllowance ledgerToken holder erc20Module 7]

def voucherPair : TokenPair :=
  match newTokenPairSTRv2 ledgerConfig.keccak256 (receivedDenom ⟨"uatom", [("transfer", "channel-0")]⟩) with
  | .ok pair => pair
  | .error _ => ledgerPair

theorem ledgerPacket_texts {honest : Bool} {token : Address} {text : Bytes}
    (h : text ∈ ledgerPacket.texts (ledgerEnv honest token)) : text = voucherPair.idBytes := by
  obtain ⟨data, pair, hdata, hpair, rfl⟩ := h
  cases hdata
  have hvoucher : newTokenPairSTRv2 ledgerConfig.keccak256
      (receivedDenom ⟨"uatom", [("transfer", "channel-0")]⟩) = .ok pair := hpair
  rw [voucherPair, hvoucher]

theorem ledger_occurring :
    occurring (ledgerEnv true ledgerToken) ledgerGenesis (ledgerState true) ledgerCalls ⊆
      {ledgerPair.idBytes, voucherPair.idBytes} := by
  rintro text (⟨pair, hpair, rfl⟩ | ⟨entry, hentry, htext⟩)
  · obtain rfl := List.mem_singleton.mp hpair
    exact .inl rfl
  · have hcall := Run.mem_of_mem_accepted _ _ entry hentry
    rcases List.mem_cons.mp hcall with hcall | hcall
    · rw [hcall] at htext
      exact .inr (ledgerPacket_texts htext)
    · rw [List.mem_singleton.mp hcall] at htext
      cases htext

theorem ledger_imported (honest : Bool) :
    Imported (ledgerEnv honest ledgerToken) ledgerGenesis (ledgerState honest) :=
  ⟨by decide +kernel, ledgerWorld, rfl⟩

theorem ledger_injOn : Set.InjOn Bytes.sampleDigest {ledgerPair.idBytes, voucherPair.idBytes} := by
  refine Set.injOn_pair.mpr fun hsum => ?_
  revert hsum
  decide +kernel

theorem ledger_registry_bijective :
    let last := Run.run (step (ledgerEnv true ledgerToken)) (ledgerState true) ledgerCalls
    last.store.Bijective ∧ last.store.pairAt (voucherPair.getID Bytes.sampleDigest) = some voucherPair := by
  refine ⟨registry_bijective (ledger_imported true) ledgerCalls ?_, by decide +kernel⟩
  exact ledger_injOn.mono ledger_occurring

end Ledger

end PosChain.Erc20
