import PosChain.Evm.Sound.Flush

namespace PosChain.Evm

def defaultHistoryServeWindow : UInt64 := 8192

-- The contract of EIP-2935, whose storage is a ring of header hashes.
def historyStorageAddress : Address :=
  Ethereum.hexToAddress "0x0000F90827F1C53a10cb7A02335B175320002935"

-- The heights of a block context are positive int64 values. The hash of its own
-- header is recomputed where the context does not carry it.
structure BlockContext where
  blockHeight : Nat
  headerHash : Bytes
  blockHeaderHash : Except String Bytes

-- Writer and reader take the parameter each on their own.
def historyWindow (historyServeWindow : UInt64) : UInt64 :=
  if 0 < historyServeWindow then historyServeWindow else defaultHistoryServeWindow

def ringKey (ringIndex : UInt64) : Hash :=
  ⟨List.replicate 24 0 ++ Bytes.putUint64 ringIndex, by simp⟩

section Keeper

variable {R : Type} (config : Config) (ctx : BlockContext) (historyServeWindow : UInt64) (w : World R)

def setHeaderHash : World R :=
  let window := historyWindow historyServeWindow
  if (w.getAccount config historyStorageAddress).isSome && w.isContract config historyStorageAddress then
    let ringIndex := UInt64.ofNat ctx.blockHeight % window
    w.setState historyStorageAddress (ringKey ringIndex) ctx.headerHash
  else w

def getHeaderHash (height : UInt64) : Hash :=
  let window := historyWindow historyServeWindow
  let ringIndex := height % window
  w.getState historyStorageAddress (ringKey ringIndex)

def getHashFn (height : UInt64) : Hash :=
  if 2 ^ 63 ≤ height.toNat then Ethereum.zeroHash
  else if ctx.blockHeight = height.toNat then
    if ctx.headerHash.length ≠ 0 then Ethereum.bytesToHash ctx.headerHash
    else
      match ctx.blockHeaderHash with
      | .ok headerHash => Ethereum.bytesToHash headerHash
      | .error _ => Ethereum.zeroHash
  else if height.toNat < ctx.blockHeight then getHeaderHash historyServeWindow w height
  else Ethereum.zeroHash

end Keeper

variable {R : Type}

theorem ringKey_injective : Function.Injective ringKey := by
  intro left right h
  have hbytes : Bytes.putUint64 left = Bytes.putUint64 right :=
    List.append_cancel_left (congrArg Hash.bytes h)
  rw [← Bytes.uint64_putUint64 left, hbytes, Bytes.uint64_putUint64]

theorem toNat_ofNat_height {height : Nat} (h : height < 2 ^ 63) : (UInt64.ofNat height).toNat = height :=
  UInt64.toNat_ofNat_of_lt' (h.trans (by decide))

-- A chain from its first block on: the parameter at the beginning of each block,
-- the hash of its header, and what its transactions and its end change. The
-- history contract lets only the beginning of a block write to its storage, which
-- may come with the genesis of an exported chain.
structure ChainHistory (R : Type) where
  genesis : World R
  initialHeight : Nat
  historyServeWindow : Nat → UInt64
  headerHash : Nat → Hash
  deliver : Nat → World R → World R
  deliver_kept : ∀ height w,
    (deliver height w).storage historyStorageAddress = w.storage historyStorageAddress

namespace ChainHistory

variable (config : Config) (chain : ChainHistory R)

def context (height : Nat) : BlockContext :=
  ⟨height, (chain.headerHash height).bytes, .ok (chain.headerHash height).bytes⟩

def begun (height : Nat) (w : World R) : World R :=
  setHeaderHash config (chain.context height) (chain.historyServeWindow height) w

def before : Nat → World R
  | 0 => chain.genesis
  | height + 1 =>
    if height < chain.initialHeight then chain.genesis
    else chain.deliver height (chain.begun config height (before height))

def hasHistory (height : Nat) : Prop :=
  ((chain.before config height).getAccount config historyStorageAddress).isSome = true ∧
    (chain.before config height).isContract config historyStorageAddress = true

def ringIndex (window height : Nat) : UInt64 :=
  UInt64.ofNat height % historyWindow (chain.historyServeWindow window)

-- The block that wrote an entry of the ring.
def Wrote (height : Nat) (index : UInt64) : Prop :=
  chain.initialHeight ≤ height ∧ chain.hasHistory config height ∧ chain.ringIndex height height = index

def LastWriter (bound : Nat) (index : UInt64) (height : Nat) : Prop :=
  height < bound ∧ chain.Wrote config height index ∧
    ∀ later, height < later → later < bound → ¬ chain.Wrote config later index

def genesisHash (index : UInt64) : Hash :=
  chain.genesis.getState historyStorageAddress (ringKey index)

variable {config chain} {bound current height other : Nat} {index : UInt64}

theorem LastWriter.unique (h : chain.LastWriter config bound index height)
    (h' : chain.LastWriter config bound index other) : height = other := by
  obtain ⟨hlt, hwrote, hlast⟩ := h
  obtain ⟨hlt', hwrote', hlast'⟩ := h'
  rcases Nat.lt_trichotomy height other with hbefore | heq | hbefore
  · exact absurd hwrote' (hlast other hbefore hlt')
  · exact heq
  · exact absurd hwrote (hlast' height hbefore hlt)

theorem lastWriter_succ :
    chain.LastWriter config (bound + 1) index height ↔
      chain.Wrote config bound index ∧ height = bound ∨
        ¬ chain.Wrote config bound index ∧ chain.LastWriter config bound index height := by
  constructor
  · rintro ⟨hle, hwrote, hlast⟩
    rcases Nat.lt_or_eq_of_le (Nat.le_of_lt_succ hle) with hlt | rfl
    · refine Or.inr ⟨hlast bound hlt (by omega), hlt, hwrote, ?_⟩
      exact fun later hafter hbefore => hlast later hafter (by omega)
    · exact Or.inl ⟨hwrote, rfl⟩
  · rintro (⟨hwrote, rfl⟩ | ⟨hnot, hlt, hwrote, hlast⟩)
    · exact ⟨by omega, hwrote, fun later hafter hbefore => absurd hbefore (by omega)⟩
    · refine ⟨by omega, hwrote, fun later hafter hbefore => ?_⟩
      rcases Nat.lt_or_eq_of_le (Nat.le_of_lt_succ hbefore) with hlt | rfl
      · exact hlast later hafter hlt
      · exact hnot

theorem not_lastWriter (h : bound ≤ chain.initialHeight) : ¬ chain.LastWriter config bound index height := by
  rintro ⟨hlt, ⟨hinitial, -⟩, -⟩
  omega

theorem begun_ring (config : Config) (hinitial : chain.initialHeight ≤ current) (index : UInt64) :
    (chain.Wrote config current index ∧
      ((chain.begun config current (chain.before config current)).storage
        historyStorageAddress)[ringKey index]? = some (chain.headerHash current).bytes) ∨
    (¬ chain.Wrote config current index ∧
      ((chain.begun config current (chain.before config current)).storage
        historyStorageAddress)[ringKey index]? =
          ((chain.before config current).storage historyStorageAddress)[ringKey index]?) := by
  by_cases hhistory : chain.hasHistory config current
  · have hbegun : (chain.begun config current (chain.before config current)).storage historyStorageAddress =
        ((chain.before config current).storage historyStorageAddress).insert
          (ringKey (chain.ringIndex current current)) (chain.headerHash current).bytes := by
      rw [begun, setHeaderHash, hhistory.1, hhistory.2]
      simp [World.setState, World.putStorage, ringIndex, context]
    rw [hbegun, Std.ExtTreeMap.getElem?_insert]
    by_cases hindex : chain.ringIndex current current = index
    · exact Or.inl ⟨⟨hinitial, hhistory, hindex⟩, by simp [hindex]⟩
    · have hkey : ringKey (chain.ringIndex current current) ≠ ringKey index :=
        fun heq => hindex (ringKey_injective heq)
      refine Or.inr ⟨fun hwrote => hindex hwrote.2.2, ?_⟩
      simp [hkey]
  · have hbegun : chain.begun config current (chain.before config current) = chain.before config current := by
      rw [begun, setHeaderHash, if_neg]
      simpa [hasHistory] using hhistory
    rw [hbegun]
    exact Or.inr ⟨fun hwrote => hhistory hwrote.2.1, rfl⟩

theorem before_succ_ring (hinitial : chain.initialHeight ≤ current) :
    (chain.before config (current + 1)).storage historyStorageAddress =
      (chain.begun config current (chain.before config current)).storage historyStorageAddress := by
  rw [before, if_neg (by omega), chain.deliver_kept]

theorem before_ring_of_le (h : current ≤ chain.initialHeight) :
    (chain.before config current).storage historyStorageAddress =
      chain.genesis.storage historyStorageAddress := by
  cases current with
  | zero => rfl
  | succ previous => rw [before, if_pos (by omega)]

-- The ring holds the hash of the block that wrote each entry last, and what it held at
-- genesis where no block did.
theorem ring_cases (config : Config) (bound : Nat) (index : UInt64) :
    (∃ height, chain.LastWriter config bound index height ∧
      ((chain.before config bound).storage historyStorageAddress)[ringKey index]? =
        some (chain.headerHash height).bytes) ∨
    ((∀ height, ¬ chain.LastWriter config bound index height) ∧
      ((chain.before config bound).storage historyStorageAddress)[ringKey index]? =
        (chain.genesis.storage historyStorageAddress)[ringKey index]?) := by
  induction bound with
  | zero =>
    rw [before_ring_of_le (Nat.zero_le _)]
    exact Or.inr ⟨fun height => not_lastWriter (Nat.zero_le _), rfl⟩
  | succ bound ih =>
    by_cases hinitial : chain.initialHeight ≤ bound
    · rw [before_succ_ring hinitial]
      rcases begun_ring config hinitial index with ⟨hwrote, hring⟩ | ⟨hnot, hring⟩
      · exact Or.inl ⟨bound, lastWriter_succ.mpr (Or.inl ⟨hwrote, rfl⟩), hring⟩
      · simpa only [hring, lastWriter_succ, hnot, false_and, false_or, not_false_eq_true, true_and] using ih
    · rw [before_ring_of_le (by omega)]
      exact Or.inr ⟨fun height => not_lastWriter (by omega), rfl⟩

theorem getHashFn_cases (hinitial : chain.initialHeight ≤ current) (hcurrent : current < 2 ^ 63)
    (hheight : height < current) {w : World R} (hw : w.storage historyStorageAddress =
      (chain.begun config current (chain.before config current)).storage historyStorageAddress) :
    (∃ writer, chain.LastWriter config (current + 1) (chain.ringIndex current height) writer ∧
      getHashFn (chain.context current) (chain.historyServeWindow current) w (UInt64.ofNat height) =
        chain.headerHash writer) ∨
    ((∀ writer, ¬ chain.LastWriter config (current + 1) (chain.ringIndex current height) writer) ∧
      getHashFn (chain.context current) (chain.historyServeWindow current) w (UInt64.ofNat height) =
        chain.genesisHash (chain.ringIndex current height)) := by
  have hnat : (UInt64.ofNat height).toNat = height := toNat_ofNat_height (by omega)
  have hblock : (chain.context current).blockHeight = current := rfl
  have hread : getHashFn (chain.context current) (chain.historyServeWindow current) w (UInt64.ofNat height) =
      w.getState historyStorageAddress (ringKey (chain.ringIndex current height)) := by
    rw [getHashFn, hnat, hblock, if_neg (by omega), if_neg (by omega), if_pos hheight]
    rfl
  rw [hread, World.getState, hw, ← before_succ_ring hinitial]
  rcases chain.ring_cases config (current + 1) (chain.ringIndex current height) with
    ⟨writer, hwriter, hring⟩ | ⟨hnone, hring⟩
  · refine Or.inl ⟨writer, hwriter, ?_⟩
    rw [hring]
    simp [(chain.headerHash writer).length_eq, bytesToHash_bytes]
  · rw [hring]
    exact Or.inr ⟨hnone, rfl⟩

-- Two blocks of one window, less than a window apart, have different entries.
theorem ringIndex_ne {window : Nat} {later : Nat} (hlater : height < later) (hbound : later < 2 ^ 63)
    (hapart : later < height + (historyWindow (chain.historyServeWindow window)).toNat) :
    chain.ringIndex window later ≠ chain.ringIndex window height := by
  intro heq
  have hmod := congrArg UInt64.toNat heq
  rw [ringIndex, ringIndex, UInt64.toNat_mod, UInt64.toNat_mod, toNat_ofNat_height hbound,
    toNat_ofNat_height (by omega)] at hmod
  have hdvd := (Nat.modEq_iff_dvd' hlater.le).mp hmod.symm
  have hle := Nat.le_of_dvd (by omega) hdvd
  omega

theorem blockHash_iff (config : Config) (chain : ChainHistory R) (current : Nat)
    (hinitial : chain.initialHeight ≤ current) (hcurrent : current < 2 ^ 63) (w : World R)
    (hw : w.storage historyStorageAddress =
      (chain.begun config current (chain.before config current)).storage historyStorageAddress)
    (hdistinct : ∀ g ≤ current, ∀ h ≤ current, chain.headerHash g = chain.headerHash h → g = h)
    (hnonzero : ∀ g ≤ current, chain.headerHash g ≠ Ethereum.zeroHash) :
    ((∀ h, h < current → current ≤ h + 256 →
        getHashFn (chain.context current) (chain.historyServeWindow current) w (UInt64.ofNat h) =
            chain.headerHash h ∨
          getHashFn (chain.context current) (chain.historyServeWindow current) w (UInt64.ofNat h) =
            Ethereum.zeroHash) ↔
      ∀ h, h < current → current ≤ h + 256 →
        (∀ writer, chain.LastWriter config (current + 1) (chain.ringIndex current h) writer → writer = h) ∧
        ((∀ writer, ¬ chain.LastWriter config (current + 1) (chain.ringIndex current h) writer) →
          chain.genesisHash (chain.ringIndex current h) = chain.headerHash h ∨
            chain.genesisHash (chain.ringIndex current h) = Ethereum.zeroHash)) ∧
    ∀ h, h < current → current ≤ h + 256 → chain.initialHeight ≤ h → chain.hasHistory config h →
      256 < (historyWindow (chain.historyServeWindow current)).toNat →
      (∀ g, h ≤ g → g ≤ current →
        historyWindow (chain.historyServeWindow g) = historyWindow (chain.historyServeWindow current)) →
      getHashFn (chain.context current) (chain.historyServeWindow current) w (UInt64.ofNat h) =
        chain.headerHash h := by
  refine ⟨⟨fun hsafe h hlt hnear => ?_, fun hown h hlt hnear => ?_⟩, ?_⟩
  · rcases getHashFn_cases hinitial hcurrent hlt hw with ⟨found, hfound, hread⟩ | ⟨hnone, hread⟩
    · refine ⟨fun writer hwriter => ?_, fun hnone => absurd hfound (hnone found)⟩
      obtain rfl := hfound.unique hwriter
      have hle : found ≤ current := Nat.le_of_lt_succ hfound.1
      rcases hsafe h hlt hnear with hhash | hzero
      · exact hdistinct found hle h hlt.le (hread.symm.trans hhash)
      · exact absurd (hread.symm.trans hzero) (hnonzero found hle)
    · exact ⟨fun writer hwriter => absurd hwriter (hnone writer), fun _ => hread ▸ hsafe h hlt hnear⟩
  · rcases getHashFn_cases hinitial hcurrent hlt hw with ⟨writer, hwriter, hread⟩ | ⟨hnone, hread⟩
    · obtain rfl := (hown h hlt hnear).1 writer hwriter
      exact Or.inl hread
    · exact hread ▸ (hown h hlt hnear).2 hnone
  · intro h hlt hnear hstart hhistory hwide hconstant
    have hindex : ∀ g, h ≤ g → g ≤ current → chain.ringIndex g g = chain.ringIndex current g := by
      intro g hafter hbefore
      rw [ringIndex, ringIndex, hconstant g hafter hbefore]
    have hlast : chain.LastWriter config (current + 1) (chain.ringIndex current h) h := by
      refine ⟨by omega, ⟨hstart, hhistory, hindex h le_rfl hlt.le⟩, fun later hafter hbefore hwrote => ?_⟩
      have hlater := hwrote.2.2
      rw [hindex later hafter.le (by omega)] at hlater
      exact ringIndex_ne hafter (by omega) (by omega) hlater
    rcases getHashFn_cases hinitial hcurrent hlt hw with ⟨writer, hwriter, hread⟩ | ⟨hnone, -⟩
    · rw [hread, hwriter.unique hlast]
    · exact absurd hlast (hnone h)

-- A chain that starts with the history contract, under one window.
section Examples

def historyCode : Bytes := [0x60]

def historyWorld : World Unit where
  accounts := Function.update (fun _ => none) historyStorageAddress (some ⟨.baseAccount, 0, 1⟩)
  nextNumber := 1
  balances _ := 0
  bounded := zero_bounded
  elsewhere := 0
  supply := 0
  codeHashes := (∅ : Std.ExtTreeMap Address Hash).insert historyStorageAddress
    (sampleConfig.keccak256 historyCode)
  codes := Function.update (fun _ => none) (sampleConfig.keccak256 historyCode) (some historyCode)
  storage _ := ∅
  rest := ()

def windowChain (window : UInt64) : ChainHistory Unit where
  genesis := historyWorld
  initialHeight := 1
  historyServeWindow _ := window
  headerHash height := ⟨List.replicate 31 2 ++ [UInt8.ofNat height], by simp⟩
  deliver _ w := w
  deliver_kept _ _ := rfl

def secondBlock (window : UInt64) : World Unit :=
  (windowChain window).begun sampleConfig 2 ((windowChain window).before sampleConfig 2)

theorem default_window_serves_parent :
    getHashFn ((windowChain 0).context 2) 0 (secondBlock 0) (UInt64.ofNat 1) =
      (windowChain 0).headerHash 1 :=
  (blockHash_iff sampleConfig (windowChain 0) 2 (by decide) (by decide) (secondBlock 0) rfl (by decide)
    (by decide)).2 1 (by decide) (by decide) (by decide) ⟨rfl, rfl⟩ (by decide) (fun _ _ _ => rfl)

-- A window of one block serves the hash of the current block for that of its parent.
theorem narrow_window_serves_another :
    getHashFn ((windowChain 1).context 2) 1 (secondBlock 1) (UInt64.ofNat 1) =
        (windowChain 1).headerHash 2 ∧
      (windowChain 1).headerHash 2 ≠ (windowChain 1).headerHash 1 ∧
      (windowChain 1).headerHash 2 ≠ Ethereum.zeroHash := by
  refine ⟨?_, by decide, by decide⟩
  rfl

end Examples

end ChainHistory

end PosChain.Evm
