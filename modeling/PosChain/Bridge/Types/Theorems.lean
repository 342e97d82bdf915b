import PosChain.Base.Json.Theorems
import PosChain.Bridge.Types

namespace PosChain.Bridge

section Signers

theorem configuredSignersFrom_ok (allowed : List Address) (signers : List String)
    (result : List Address) (hn : allowed.Nodup) (h : configuredSignersFrom allowed signers = .ok result) :
    result = allowed ++ signers.map Ethereum.hexToAddress ∧ result.Nodup := by
  induction signers generalizing allowed with
  | nil =>
    simp only [configuredSignersFrom, Check.pure_eq_ok] at h
    subst h
    exact ⟨by simp, hn⟩
  | cons signer rest ih =>
    simp only [configuredSignersFrom, Check.bind_eq_ok, failIf_eq_ok, exists_const] at h
    obtain ⟨-, hnew, hrest⟩ := h
    have hnotMem : Ethereum.hexToAddress signer ∉ allowed := by simpa using hnew
    have hnext : (allowed ++ [Ethereum.hexToAddress signer]).Nodup :=
      (List.perm_append_singleton _ _).nodup_iff.mpr (List.nodup_cons.mpr ⟨hnotMem, hn⟩)
    obtain ⟨hresult, hnodup⟩ := ih _ hnext hrest
    exact ⟨by simp [hresult], hnodup⟩

theorem configuredSigners_ok (signers : List String) (result : List Address)
    (h : configuredSigners signers = .ok result) :
    result = signers.map Ethereum.hexToAddress ∧ result.Nodup ∧
      signers.length = maxBridgeSigners := by
  simp only [configuredSigners, Check.bind_eq_ok, failIf_eq_ok, exists_const] at h
  obtain ⟨hlength, hfrom⟩ := h
  obtain ⟨hresult, hnodup⟩ := configuredSignersFrom_ok [] signers result List.nodup_nil hfrom
  exact ⟨by simpa using hresult, hnodup, by simpa using hlength⟩

end Signers

section Quorum

variable {Bank : Type} (env : Env Bank)

-- Two or three signatures over a digest that recover to different signers out
-- of a list.
def Quorum (digest : Hash) (signers : List String) (signatures : List Bytes) : Prop :=
  ∃ approvers : List Address, signatures.mapM (recoverSigner env digest) = .ok approvers ∧
    approvers.Nodup ∧ (∀ a ∈ approvers, a ∈ signers.map Ethereum.hexToAddress) ∧
    requiredApprovals ≤ approvers.length ∧ approvers.length ≤ maxBridgeSigners

theorem recoverApprovals_ok (digest : Hash) (allowed seen result : List Address)
    (signatures : List Bytes) (hn : seen.Nodup)
    (h : recoverApprovals env digest allowed seen signatures = .ok result) :
    ∃ fresh, result = seen ++ fresh ∧ result.Nodup ∧ (∀ a ∈ fresh, a ∈ allowed) ∧
      signatures.mapM (recoverSigner env digest) = .ok fresh ∧
      fresh.length = signatures.length := by
  induction signatures generalizing seen with
  | nil =>
    simp only [recoverApprovals, Check.pure_eq_ok] at h
    subst h
    exact ⟨[], by simp, hn, by simp, rfl, rfl⟩
  | cons signature rest ih =>
    simp only [recoverApprovals, Check.bind_eq_ok, failIf_eq_ok, exists_const] at h
    obtain ⟨address, hrecover, hallowed, hfresh, hrest⟩ := h
    have hnotMem : address ∉ seen := by simpa using hfresh
    have hnext : (seen ++ [address]).Nodup :=
      (List.perm_append_singleton _ _).nodup_iff.mpr (List.nodup_cons.mpr ⟨hnotMem, hn⟩)
    obtain ⟨fresh, hresult, hnodup, hmem, hmap, hlength⟩ := ih _ hnext hrest
    refine ⟨address :: fresh, by simp [hresult], hnodup, ?_, ?_, by simp [hlength]⟩
    · intro a ha
      rcases List.mem_cons.mp ha with rfl | ha
      · simpa using hallowed
      · exact hmem a ha
    · simp only [List.mapM_cons, Check.bind_eq_ok, Check.pure_eq_ok]
      exact ⟨address, hrecover, fresh, hmap, rfl⟩

theorem verifyQuorum_ok (digest : Check Hash) (signers : List String) (signatures : List Bytes)
    (approvers : List Address) (h : verifyQuorum env digest signers signatures = .ok approvers) :
    ∃ value, digest = .ok value ∧ Quorum env value signers signatures := by
  simp only [verifyQuorum, Check.bind_eq_ok, failIf_eq_ok, exists_const] at h
  obtain ⟨allowed, hsigners, hcount, value, hdigest, hloop⟩ := h
  obtain ⟨hallowed, -, -⟩ := configuredSigners_ok signers allowed hsigners
  obtain ⟨fresh, hresult, hnodup, hmem, hmap, hlength⟩ :=
    recoverApprovals_ok env value allowed [] approvers signatures List.nodup_nil hloop
  rw [List.nil_append] at hresult
  simp only [Bool.or_eq_false_iff, decide_eq_false_iff_not, not_lt] at hcount
  refine ⟨value, hdigest, fresh, hmap, hresult ▸ hnodup, ?_, ?_, ?_⟩
  · intro a ha
    rw [← hallowed]
    exact hmem a ha
  · rw [hlength]
    exact hcount.1
  · rw [hlength]
    exact hcount.2

end Quorum

section Json

theorem RouteConfig.toJson_proper (c : RouteConfig) : Json.Proper c.toJson := by
  have hitems (texts : List String) : Json.ProperItems (texts.map .str) := by
    induction texts with
    | nil => simp [Json.ProperItems]
    | cons text rest ih => simp [Json.ProperItems, Json.Proper, ih]
  simp [RouteConfig.toJson, Json.Proper, Json.ProperMembers, hitems]

theorem mapM_stringItem (texts : List String) :
    texts.mapM (Json.stringItem ∘ Json.Value.str) = some texts := by
  induction texts with
  | nil => rfl
  | cons text rest ih => simp [Json.stringItem, ih]

def routeConfigKeys : List String :=
  ["route_id", "bridge_signers", "guardian", "max_transfer_amount", "daily_limit",
    "max_outstanding_amount", "enabled"]

theorem routeConfigKeys_index :
    routeConfigKeys.map (Json.keyIndex routeConfigKeys) = (List.range 7).map some := by
  decide

theorem RouteConfig.ofJson_toJson (c : RouteConfig) : RouteConfig.ofJson c.toJson = some c := by
  have hindex := routeConfigKeys_index
  simp only [routeConfigKeys, List.map_cons, List.map_nil, List.range_succ, List.range_zero,
    List.nil_append, List.cons_append, List.cons.injEq, and_true] at hindex
  obtain ⟨h0, h1, h2, h3, h4, h5, h6⟩ := hindex
  simp [RouteConfig.ofJson, RouteConfig.toJson, Json.isStruct, Json.stringField, Json.boolField,
    Json.stringListField, Json.member?_eq, h0, h1, h2, h3, h4, h5, h6, mapM_stringItem]

theorem RouteConfig.decode_encode (c : RouteConfig) :
    (Json.unmarshal c.encode).bind RouteConfig.ofJson = some c := by
  rw [RouteConfig.encode, Json.unmarshal_marshal c.toJson c.toJson_proper, Option.bind_some,
    RouteConfig.ofJson_toJson]

theorem RouteConfig.encode_ne_nil (c : RouteConfig) : c.encode ≠ [] :=
  Json.marshal_ne_nil c.toJson c.toJson_proper

end Json

end PosChain.Bridge
