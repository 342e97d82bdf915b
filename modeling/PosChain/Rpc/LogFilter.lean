import PosChain.Base.Action
import PosChain.Base.Bytes

namespace PosChain.Rpc.LogFilter

abbrev Bloom := Finset (Fin 2048)

structure Log where
  address : Bytes
  topics : List Bytes
  deriving DecidableEq

section Transactions

-- A message with what its execution returns, and what the hooks do, if any are set: fail, or
-- leave the receipt with these logs. It is settled if the refund and the gas count succeed.
structure Message where
  failed : Bool
  logs : List Log
  hooks : Option (Option (List Log))
  settled : Bool

-- A transaction is delivered unless it fails outside its messages.
structure Transaction where
  msgs : List Message
  delivered : Bool

-- The object store, by transaction and message.
abbrev ObjectStore := List ((Nat × Nat) × Bloom)

variable (bits : Bytes → Bloom)

def logsBloom (logs : List Log) : Bloom :=
  logs.foldl (fun bin log => log.topics.foldl (fun bin topic => bin ∪ bits topic) (bin ∪ bits log.address)) ∅

def bloomLookup (bloom : Bloom) (value : Bytes) : Bool :=
  bits value ⊆ bloom

def setTxBloom (store : ObjectStore) (key : Nat × Nat) (bloom : Bloom) : ObjectStore :=
  store.filter (fun entry => entry.1 ≠ key) ++ [(key, bloom)]

def collectTxBloom (store : ObjectStore) : Bloom :=
  store.foldl (fun bloom entry => bloom ∪ entry.2) ∅

-- The bloom is of the logs before the hooks, and written with the context that they run in.
-- The logs that are stored are those after the hooks.
def applyTransaction (store : ObjectStore) (key : Nat × Nat) (m : Message) : Option (List Log × ObjectStore) :=
  let tmp := if 0 < m.logs.length then setTxBloom store key (logsBloom bits m.logs) else store
  let tmp := if m.failed then store else tmp
  let (logs, store) :=
    match m.hooks with
    | none => (m.logs, if m.failed then store else tmp)
    | some none => ([], store)
    | some (some logs) => (if m.failed then [] else logs, tmp)
  if m.settled then some (logs, store) else none

def applyMsgs (txIndex : Nat) : List Message → ObjectStore → Nat → Option (List Log × ObjectStore)
  | [], store, _ => some ([], store)
  | m :: rest, store, msgIndex =>
    (applyTransaction bits store (txIndex, msgIndex) m).bind fun (logs, store) =>
      (applyMsgs txIndex rest store (msgIndex + 1)).map fun (others, store) => (logs ++ others, store)

-- A transaction that fails has no data, and its writes are dropped.
def deliverTx (txIndex : Nat) (tx : Transaction) (store : ObjectStore) : List Log × ObjectStore :=
  ((if tx.delivered then applyMsgs bits txIndex tx.msgs store 0 else none)).getD ([], store)

def deliverTxs : List Transaction → Nat → ObjectStore → List (List Log) × ObjectStore
  | [], _, store => ([], store)
  | tx :: rest, txIndex, store =>
    let (logs, store) := deliverTx bits txIndex tx store
    let (others, store) := deliverTxs rest (txIndex + 1) store
    (logs :: others, store)

-- The results of a block: the bloom of its event, and the logs of its transactions.
structure BlockResults where
  bloom : Option Bloom
  logs : List (List Log)

def finalizeBlock (txs : List Transaction) : BlockResults :=
  ⟨some (collectTxBloom (deliverTxs bits txs 0 []).2), (deliverTxs bits txs 0 []).1⟩

end Transactions

section Filter

structure FilterCriteria where
  blockHash : Option Bytes
  fromBlock : Int
  toBlock : Int
  addresses : List Bytes
  topics : List (List Bytes)

def matchesTopics (topics : List (List Bytes)) (log : Log) : Bool :=
  topics.length ≤ log.topics.length ∧
    (topics.zip log.topics).all fun (sub, topic) => sub.isEmpty || sub.contains topic

def filterLogs (logs : List Log) (addresses : List Bytes) (topics : List (List Bytes)) : List Log :=
  logs.filter fun log => (addresses.isEmpty || addresses.contains log.address) && matchesTopics topics log

variable (bits : Bytes → Bloom)

def bloomFilter (bloom : Bloom) (addresses : List Bytes) (topics : List (List Bytes)) : Bool :=
  (addresses.isEmpty || addresses.any (bloomLookup bits bloom)) &&
    topics.all fun sub => sub.isEmpty || sub.any (bloomLookup bits bloom)

def blockLogs (c : FilterCriteria) (res : BlockResults) : Check (List Log) :=
  match res.bloom with
  | none => .error (.error "block bloom event is not found")
  | some bloom =>
    if bloomFilter bits bloom c.addresses c.topics then .ok (filterLogs res.logs.flatten c.addresses c.topics)
    else .ok []

-- Height zero is the latest.
def blockResultByNumber (chain : List BlockResults) (height : Nat) : Check BlockResults :=
  orFail (if height = 0 then chain.getLast? else chain[height - 1]?)
    (.error "failed to fetch block result from CometBFT")

def resolveSpecial (head : Nat) (number : Int) : Check Nat :=
  if number = -2 ∨ number = -3 ∨ number = -4 then .ok head
  else if number = -5 then .ok 1
  else if number < 0 then .error (.error "negative block number")
  else .ok number.toNat

def collectLogs (chain : List BlockResults) (c : FilterCriteria) (logLimit : Int) (logs : List Log)
    (height : Nat) : Check (List Log) := do
  let res ← blockResultByNumber chain height
  let filtered ← blockLogs bits c res
  if logLimit < (logs.length + filtered.length : Nat) then
    .error (.error ("query returned more than " ++ toString logLimit ++ " results"))
  else .ok (logs ++ filtered)

def logs (heightOf : Bytes → Option Nat) (chain : List BlockResults) (c : FilterCriteria)
    (logLimit blockLimit : Int) : Check (List Log) :=
  if blockLimit = 0 then .ok []
  else
    match c.blockHash.filter (· ≠ List.replicate 32 0) with
    | some hash => do
      let height ← orFail (heightOf hash) (.error "failed to fetch header by hash")
      let res ← blockResultByNumber chain height
      blockLogs bits c res
    | none =>
      if c.fromBlock = -1 ∨ c.toBlock = -1 then .error (.error "pending logs are not supported")
      else do
        let first ← resolveSpecial chain.length c.fromBlock
        let last ← resolveSpecial chain.length c.toBlock
        if chain.length < first ∨ last < first then .error (.error "invalid block range params")
        else if chain.length < last then .error (.error "invalid block range params")
        else if 0 < blockLimit ∧ blockLimit < (last - first : Nat) then
          .error (.error ("maximum [from, to] blocks distance: " ++ toString blockLimit))
        else (List.range' first (last + 1 - first)).foldlM (collectLogs bits chain c logLimit) []

end Filter

section Blooms

variable (bits : Bytes → Bloom)

def items (log : Log) : List Bytes :=
  log.address :: log.topics

theorem foldl_union {α : Type} (f : α → Bloom) (l : List α) (start : Bloom) :
    l.foldl (fun bloom x => bloom ∪ f x) start = start ∪ l.foldl (fun bloom x => bloom ∪ f x) ∅ := by
  induction l generalizing start with
  | nil => simp
  | cons x rest ih =>
    rw [List.foldl_cons, List.foldl_cons, ih (start ∪ f x), ih (∅ ∪ f x), Finset.empty_union,
      Finset.union_assoc]

theorem logsBloom_eq (logs : List Log) :
    logsBloom bits logs = (logs.flatMap items).foldl (fun bloom x => bloom ∪ bits x) ∅ := by
  rw [List.foldl_flatMap]
  rfl

theorem logsBloom_append (left right : List Log) :
    logsBloom bits (left ++ right) = logsBloom bits left ∪ logsBloom bits right := by
  simp only [logsBloom_eq, List.flatMap_append, List.foldl_append]
  rw [foldl_union]

theorem mem_logsBloom {logs : List Log} {bit : Fin 2048} :
    bit ∈ logsBloom bits logs ↔ ∃ x ∈ logs.flatMap items, bit ∈ bits x := by
  rw [logsBloom_eq]
  induction logs.flatMap items with
  | nil => simp
  | cons x rest ih =>
    rw [List.foldl_cons, foldl_union, Finset.mem_union, ih]
    simp

theorem collect_setTxBloom {store : ObjectStore} {key : Nat × Nat} (h : ∀ entry ∈ store, entry.1 ≠ key)
    (bloom : Bloom) : collectTxBloom (setTxBloom store key bloom) = collectTxBloom store ∪ bloom := by
  rw [setTxBloom, List.filter_eq_self.mpr (by simpa using h), collectTxBloom, List.foldl_append]
  rfl

-- The logs before the hooks of a message whose context is written, and those it stores.
def emitted (m : Message) : List Log :=
  if m.failed ∨ m.hooks = some none then [] else m.logs

def final (m : Message) : List Log :=
  match m.hooks with
  | none => m.logs
  | some none => []
  | some (some logs) => if m.failed then [] else logs

theorem applyTransaction_spec {store : ObjectStore} {key : Nat × Nat} (h : ∀ entry ∈ store, entry.1 ≠ key)
    {m : Message} (hsettled : m.settled = true) :
    ∃ store', applyTransaction bits store key m = some (final m, store') ∧
      collectTxBloom store' = collectTxBloom store ∪ logsBloom bits (emitted m) ∧
      ∀ entry ∈ store', entry ∈ store ∨ entry.1 = key := by
  have hkept : collectTxBloom store = collectTxBloom store ∪ logsBloom bits [] := (Finset.union_empty _).symm
  have hset : collectTxBloom (if 0 < m.logs.length then setTxBloom store key (logsBloom bits m.logs) else store) =
      collectTxBloom store ∪ logsBloom bits m.logs := by
    split
    · exact collect_setTxBloom h _
    · rename_i hnone
      rw [List.eq_nil_of_length_eq_zero (Nat.eq_zero_of_not_pos hnone)]
      exact hkept
  have hmem : ∀ entry ∈ (if 0 < m.logs.length then setTxBloom store key (logsBloom bits m.logs) else store),
      entry ∈ store ∨ entry.1 = key := by
    intro entry hentry
    split at hentry
    · rcases List.mem_append.mp hentry with hentry | hentry
      · exact .inl (List.mem_filter.mp hentry).1
      · exact .inr (by rw [List.mem_singleton.mp hentry])
    · exact .inl hentry
  obtain ⟨failed, logs, hooks, settled⟩ := m
  obtain rfl : settled = true := hsettled
  cases failed with
  | true =>
    rcases hooks with - | - | after <;> exact ⟨store, rfl, by simpa [emitted] using hkept, fun _ => .inl⟩
  | false =>
    rcases hooks with - | - | after
    · exact ⟨_, rfl, by simpa [emitted] using hset, hmem⟩
    · exact ⟨store, rfl, by simpa [emitted] using hkept, fun _ => .inl⟩
    · exact ⟨_, rfl, by simpa [emitted] using hset, hmem⟩

theorem applyMsgs_spec (txIndex : Nat) (msgs : List Message) (store : ObjectStore) (msgIndex : Nat)
    (h : ∀ entry ∈ store, entry.1.1 < txIndex ∨ entry.1.1 = txIndex ∧ entry.1.2 < msgIndex) :
    if msgs.all Message.settled then
      ∃ store', applyMsgs bits txIndex msgs store msgIndex = some (msgs.flatMap final, store') ∧
        collectTxBloom store' = collectTxBloom store ∪ logsBloom bits (msgs.flatMap emitted) ∧
        ∀ entry ∈ store', entry.1.1 ≤ txIndex
    else applyMsgs bits txIndex msgs store msgIndex = none := by
  induction msgs generalizing store msgIndex with
  | nil =>
    refine ⟨store, rfl, (Finset.union_empty _).symm, fun entry hentry => ?_⟩
    have hlt := h entry hentry
    omega
  | cons m rest ih =>
    by_cases hm : m.settled = true
    · have hfresh : ∀ entry ∈ store, entry.1 ≠ (txIndex, msgIndex) := by
        rintro ⟨key, bloom⟩ hentry rfl
        have hlt := h _ hentry
        dsimp only at hlt
        omega
      obtain ⟨store₁, hone, hbloom, hkeys⟩ := applyTransaction_spec bits hfresh hm
      have hrest := ih store₁ (msgIndex + 1) fun entry hentry => by
        rcases hkeys entry hentry with hold | hnew
        · have hlt := h entry hold
          omega
        · rw [hnew]
          exact .inr ⟨rfl, Nat.lt_succ_self _⟩
      rw [List.all_cons, hm, Bool.true_and, applyMsgs, hone, Option.bind_some]
      dsimp only
      split
      · rename_i hall
        rw [if_pos hall] at hrest
        obtain ⟨store', hrun, hblooms, hbelow⟩ := hrest
        refine ⟨store', by rw [hrun]; rfl, ?_, hbelow⟩
        rw [hblooms, hbloom, List.flatMap_cons, logsBloom_append bits, Finset.union_assoc]
      · rename_i hall
        rw [if_neg hall] at hrest
        rw [hrest]
        rfl
    · have hone : applyTransaction bits store (txIndex, msgIndex) m = none := by simp [applyTransaction, hm]
      rw [if_neg (by simp [hm]), applyMsgs, hone, Option.bind_none]

-- What a transaction emits into the bloom of its block, and what it stores, unless it is
-- dropped as a whole.
def keptMsgs (tx : Transaction) : List Message :=
  if tx.delivered ∧ tx.msgs.all Message.settled then tx.msgs else []

def emittedOf (tx : Transaction) : List Log :=
  (keptMsgs tx).flatMap emitted

def storedOf (tx : Transaction) : List Log :=
  (keptMsgs tx).flatMap final

theorem deliverTx_spec (txIndex : Nat) (tx : Transaction) (store : ObjectStore)
    (h : ∀ entry ∈ store, entry.1.1 < txIndex) :
    (deliverTx bits txIndex tx store).1 = storedOf tx ∧
      collectTxBloom (deliverTx bits txIndex tx store).2 = collectTxBloom store ∪ logsBloom bits (emittedOf tx) ∧
      ∀ entry ∈ (deliverTx bits txIndex tx store).2, entry.1.1 ≤ txIndex := by
  have hmsgs := applyMsgs_spec bits txIndex tx.msgs store 0 fun entry hentry => .inl (h entry hentry)
  unfold deliverTx storedOf emittedOf keptMsgs
  by_cases hdone : tx.delivered ∧ tx.msgs.all Message.settled
  · rw [if_pos hdone.2] at hmsgs
    obtain ⟨store', hrun, hbloom, hbelow⟩ := hmsgs
    rw [if_pos hdone.1, hrun, if_pos hdone]
    exact ⟨rfl, hbloom, hbelow⟩
  · have hnone : (if tx.delivered then applyMsgs bits txIndex tx.msgs store 0 else none) = none := by
      split
      · rename_i hdelivered
        rwa [if_neg fun hall => hdone ⟨hdelivered, hall⟩] at hmsgs
      · rfl
    rw [hnone, if_neg hdone]
    exact ⟨rfl, (Finset.union_empty _).symm, fun entry hentry => (h entry hentry).le⟩

theorem deliverTxs_spec (txs : List Transaction) (txIndex : Nat) (store : ObjectStore)
    (h : ∀ entry ∈ store, entry.1.1 < txIndex) :
    (deliverTxs bits txs txIndex store).1 = txs.map storedOf ∧
      collectTxBloom (deliverTxs bits txs txIndex store).2 =
        collectTxBloom store ∪ logsBloom bits (txs.flatMap emittedOf) := by
  induction txs generalizing txIndex store with
  | nil => exact ⟨rfl, (Finset.union_empty _).symm⟩
  | cons tx rest ih =>
    obtain ⟨hlogs, hbloom, hbelow⟩ := deliverTx_spec bits txIndex tx store h
    obtain ⟨hothers, hblooms⟩ := ih (txIndex + 1) (deliverTx bits txIndex tx store).2 fun entry hentry =>
      Nat.lt_succ_of_le (hbelow entry hentry)
    rw [deliverTxs]
    refine ⟨congrArg₂ List.cons hlogs hothers, hblooms.trans ?_⟩
    rw [hbloom, List.flatMap_cons, logsBloom_append bits, Finset.union_assoc]

theorem finalizeBlock_eq (txs : List Transaction) :
    finalizeBlock bits txs = ⟨some (logsBloom bits (txs.flatMap emittedOf)), txs.map storedOf⟩ := by
  obtain ⟨hlogs, hbloom⟩ := deliverTxs_spec bits txs 0 [] (by simp)
  rw [finalizeBlock, hlogs, hbloom, show collectTxBloom [] = ∅ from rfl, Finset.empty_union]

end Blooms

section Exact

variable (bits : Bytes → Bloom)

-- What a message stores without having emitted it: the logs that its hooks add, and those of
-- a failed execution that no hooks follow.
def added (m : Message) : List Log :=
  match m.hooks with
  | none => if m.failed then m.logs else []
  | some none => []
  | some (some after) => if m.failed then [] else after.filter (· ∉ m.logs)

def addedOf (tx : Transaction) : List Log :=
  (keptMsgs tx).flatMap added

-- Every bit of a value that is added is also a bit of a value that some execution of the
-- block has emitted.
def AddsNoBit (txs : List Transaction) : Prop :=
  ∀ log ∈ txs.flatMap addedOf, ∀ x ∈ items log, ∀ bit ∈ bits x,
    ∃ y ∈ (txs.flatMap emittedOf).flatMap items, bit ∈ bits y

-- Every address and topic of a stored log tests positive in the bloom of the block.
def Covered (txs : List Transaction) : Prop :=
  ∀ log ∈ txs.flatMap storedOf, ∀ x ∈ items log, bloomLookup bits (logsBloom bits (txs.flatMap emittedOf)) x

variable {bits}

theorem added_subset_final {m : Message} : added m ⊆ final m := by
  obtain ⟨failed, logs, hooks, settled⟩ := m
  rcases hooks with - | - | after <;> cases failed <;> simp [added, final]

theorem emitted_or_added {m : Message} {log : Log} (h : log ∈ final m) : log ∈ emitted m ∨ log ∈ added m := by
  obtain ⟨failed, logs, hooks, settled⟩ := m
  rcases hooks with - | - | after <;> cases failed <;>
    simp only [final, emitted, added] at h ⊢ <;> simp_all [em]

-- The logs that an execution has emitted are covered by their own bits, whatever becomes of
-- them, so that only what is added can be missed.
theorem covered_iff (txs : List Transaction) : Covered bits txs ↔ AddsNoBit bits txs := by
  have hlookup (x : Bytes) : bloomLookup bits (logsBloom bits (txs.flatMap emittedOf)) x ↔
      ∀ bit ∈ bits x, ∃ y ∈ (txs.flatMap emittedOf).flatMap items, bit ∈ bits y := by
    simp only [bloomLookup, decide_eq_true_eq, Finset.subset_iff, mem_logsBloom]
  simp only [Covered, AddsNoBit, hlookup]
  constructor
  · intro h log hlog
    obtain ⟨tx, htx, hlog⟩ := List.mem_flatMap.mp hlog
    obtain ⟨m, hm, hlog⟩ := List.mem_flatMap.mp hlog
    exact h log (List.mem_flatMap.mpr ⟨tx, htx, List.mem_flatMap.mpr ⟨m, hm, added_subset_final hlog⟩⟩)
  · intro h log hlog x hx bit hbit
    obtain ⟨tx, htx, hlog⟩ := List.mem_flatMap.mp hlog
    obtain ⟨m, hm, hlog⟩ := List.mem_flatMap.mp hlog
    rcases emitted_or_added hlog with hlog | hlog
    · have hemitted : log ∈ txs.flatMap emittedOf :=
        List.mem_flatMap.mpr ⟨tx, htx, List.mem_flatMap.mpr ⟨m, hm, hlog⟩⟩
      exact ⟨x, List.mem_flatMap.mpr ⟨log, hemitted, hx⟩, hbit⟩
    · exact h log (List.mem_flatMap.mpr ⟨tx, htx, List.mem_flatMap.mpr ⟨m, hm, hlog⟩⟩) x hx bit hbit

theorem bloomFilter_of_match {bloom : Bloom} {addresses : List Bytes} {topics : List (List Bytes)} {log : Log}
    (hitems : ∀ x ∈ items log, bloomLookup bits bloom x)
    (haddress : (addresses.isEmpty || addresses.contains log.address) = true)
    (htopics : matchesTopics topics log = true) : bloomFilter bits bloom addresses topics = true := by
  rw [bloomFilter, Bool.and_eq_true]
  constructor
  · rw [Bool.or_eq_true] at haddress ⊢
    refine haddress.imp_right fun hmem => List.any_eq_true.mpr ⟨log.address, by simpa using hmem, ?_⟩
    exact hitems _ (List.mem_cons_self ..)
  · simp only [matchesTopics, decide_eq_true_eq] at htopics
    rw [List.all_eq_true]
    intro sub hsub
    obtain ⟨i, hi, rfl⟩ := List.mem_iff_getElem.mp hsub
    have hpair := List.all_eq_true.mp htopics.2 (topics[i], log.topics[i]) (by
      rw [List.mem_iff_getElem]
      exact ⟨i, by simp; omega, by simp⟩)
    rw [Bool.or_eq_true] at hpair ⊢
    refine hpair.imp_right fun hmem => List.any_eq_true.mpr ⟨log.topics[i], by simpa using hmem, ?_⟩
    exact hitems _ (List.mem_cons_of_mem _ (List.getElem_mem _))

-- The shortcut of one block is right for every filter iff its bloom covers what it stores.
theorem blockLogs_exact {txs : List Transaction} (h : Covered bits txs) (c : FilterCriteria) :
    blockLogs bits c (finalizeBlock bits txs) =
      .ok (filterLogs (txs.flatMap storedOf) c.addresses c.topics) := by
  rw [finalizeBlock_eq, blockLogs]
  dsimp only
  rw [← List.flatMap_def]
  split
  · rfl
  · rename_i hskip
    have hnone : filterLogs (txs.flatMap storedOf) c.addresses c.topics = [] := by
      refine List.filter_eq_nil_iff.mpr fun log hlog hmatch => hskip ?_
      rw [Bool.and_eq_true] at hmatch
      exact bloomFilter_of_match (h log hlog) hmatch.1 hmatch.2
    rw [hnone]

def probe (height : Nat) (log : Log) : FilterCriteria :=
  ⟨none, height, height, [log.address], log.topics.map fun topic => [topic]⟩

theorem probe_matches (height : Nat) {log : Log} {logs : List Log} (h : log ∈ logs) :
    log ∈ filterLogs logs (probe height log).addresses (probe height log).topics := by
  have hzip (l : List Bytes) : ((l.map fun topic => [topic]).zip l).all
      (fun (sub, topic) => sub.isEmpty || sub.contains topic) = true := by
    induction l with
    | nil => rfl
    | cons topic rest ih => simpa using ih
  refine List.mem_filter.mpr ⟨h, ?_⟩
  simp only [probe, matchesTopics, hzip]
  simp

theorem probe_skips (height : Nat) {log : Log} {x : Bytes} (hx : x ∈ items log) {bloom : Bloom}
    (hnot : ¬ bloomLookup bits bloom x = true) :
    ¬ bloomFilter bits bloom (probe height log).addresses (probe height log).topics = true := by
  intro hpass
  simp only [bloomFilter, probe, List.isEmpty_cons, Bool.false_or, List.any_cons, List.any_nil, Bool.or_false,
    Bool.and_eq_true, List.all_map, List.all_eq_true, Function.comp_apply] at hpass
  rcases List.mem_cons.mp hx with rfl | hx
  · exact hnot hpass.1
  · exact hnot (hpass.2 x hx)

def expected (chain : List (List Transaction)) (c : FilterCriteria) (height : Nat) : List Log :=
  filterLogs ((chain.getD (height - 1) []).flatMap storedOf) c.addresses c.topics

theorem blockResult_at {chain : List (List Transaction)} {height : Nat} (hpos : 1 ≤ height)
    (hle : height ≤ chain.length) : blockResultByNumber (chain.map (finalizeBlock bits)) height =
      .ok (finalizeBlock bits (chain.getD (height - 1) [])) := by
  rw [blockResultByNumber, if_neg (by omega), List.getElem?_map, List.getD_eq_getElem?_getD,
    List.getElem?_eq_getElem (by omega)]
  rfl

theorem collectLogs_ok {chain : List BlockResults} {height : Nat} {res : BlockResults} {c : FilterCriteria}
    {filtered : List Log} (hres : blockResultByNumber chain height = .ok res)
    (hlogs : blockLogs bits c res = .ok filtered) {logLimit : Int} {acc : List Log}
    (hlimit : ((acc ++ filtered).length : Int) ≤ logLimit) :
    collectLogs bits chain c logLimit acc height = .ok (acc ++ filtered) := by
  rw [List.length_append] at hlimit
  rw [collectLogs, hres]
  change (blockLogs bits c res).bind _ = _
  rw [hlogs]
  dsimp only [Except.bind]
  rw [if_neg (Int.not_lt.mpr hlimit)]

theorem collect_heights {chain : List (List Transaction)} (h : ∀ txs ∈ chain, Covered bits txs)
    (c : FilterCriteria) (logLimit : Int) (heights : List Nat)
    (hin : ∀ k ∈ heights, 1 ≤ k ∧ k ≤ chain.length) (acc : List Log)
    (hlimit : ((acc ++ heights.flatMap (expected chain c)).length : Int) ≤ logLimit) :
    heights.foldlM (collectLogs bits (chain.map (finalizeBlock bits)) c logLimit) acc =
      .ok (acc ++ heights.flatMap (expected chain c)) := by
  induction heights generalizing acc with
  | nil => simp [pure, Except.pure]
  | cons k rest ih =>
    obtain ⟨hpos, hle⟩ := hin k (List.mem_cons_self ..)
    have hcovered : Covered bits (chain.getD (k - 1) []) := by
      rw [List.getD_eq_getElem _ _ (by omega)]
      exact h _ (List.getElem_mem _)
    rw [List.flatMap_cons, ← List.append_assoc] at hlimit ⊢
    have hone : collectLogs bits (chain.map (finalizeBlock bits)) c logLimit acc k =
        .ok (acc ++ expected chain c k) := by
      refine collectLogs_ok (blockResult_at hpos hle) (blockLogs_exact hcovered c) ?_
      rw [List.length_append] at hlimit
      exact (Int.ofNat_le.mpr (Nat.le_add_right ..)).trans hlimit
    rw [List.foldlM_cons, hone]
    exact ih (fun m hm => hin m (List.mem_cons_of_mem _ hm)) _ hlimit

structure InRange (chain : List (List Transaction)) (c : FilterCriteria) (blockLimit : Int) (first last : Nat) :
    Prop where
  noHash : c.blockHash = none
  notPending : c.fromBlock ≠ -1 ∧ c.toBlock ≠ -1
  resolvesFirst : resolveSpecial chain.length c.fromBlock = .ok first
  resolvesLast : resolveSpecial chain.length c.toBlock = .ok last
  bounds : 1 ≤ first ∧ first ≤ last ∧ last ≤ chain.length
  limit : blockLimit ≠ 0 ∧ (0 < blockLimit → ((last - first : Nat) : Int) ≤ blockLimit)

theorem logs_inRange {heightOf : Bytes → Option Nat} {chain : List (List Transaction)} {c : FilterCriteria}
    {blockLimit : Int} {first last : Nat} (h : InRange chain c blockLimit first last) (logLimit : Int) :
    logs bits heightOf (chain.map (finalizeBlock bits)) c logLimit blockLimit =
      (List.range' first (last + 1 - first)).foldlM
        (collectLogs bits (chain.map (finalizeBlock bits)) c logLimit) [] := by
  obtain ⟨hhash, hpending, hfirst, hlast, hbounds, hlimit⟩ := h
  have hfar : ¬ (0 < blockLimit ∧ blockLimit < ((last - first : Nat) : Int)) := fun hlt => by
    have hle := hlimit.2 hlt.1
    omega
  rw [logs, if_neg hlimit.1, hhash]
  dsimp only [Option.filter_none]
  rw [if_neg (by simpa using hpending), List.length_map, hfirst, hlast]
  change (if chain.length < first ∨ last < first then _ else _) = _
  rw [if_neg (by omega), if_neg (by omega), if_neg hfar]

-- Queries return the stored logs that match exactly in the chains whose blocks add no bit.
theorem logs_exact_iff (heightOf : Bytes → Option Nat) (chain : List (List Transaction)) :
    (∀ c blockLimit first last logLimit, InRange chain c blockLimit first last →
      (((List.range' first (last + 1 - first)).flatMap (expected chain c)).length : Int) ≤ logLimit →
      logs bits heightOf (chain.map (finalizeBlock bits)) c logLimit blockLimit =
        .ok ((List.range' first (last + 1 - first)).flatMap (expected chain c))) ↔
      ∀ txs ∈ chain, AddsNoBit bits txs := by
  simp only [← covered_iff]
  constructor
  · intro hexact txs htxs log hlog x hx
    obtain ⟨k, hk, rfl⟩ := List.mem_iff_getElem.mp htxs
    by_contra hnot
    have hone : List.range' (k + 1) (k + 1 + 1 - (k + 1)) = [k + 1] := by
      rw [Nat.add_sub_cancel_left]
      rfl
    have hblock : chain.getD (k + 1 - 1) [] = chain[k] := List.getD_eq_getElem _ _ hk
    have hrange : InRange chain (probe (k + 1) log) (-1) (k + 1) (k + 1) := by
      have hheight : resolveSpecial chain.length ((k + 1 : Nat) : Int) = .ok (k + 1) := by
        rw [resolveSpecial, if_neg (by omega), if_neg (by omega), if_neg (by omega), Int.toNat_natCast]
      refine ⟨rfl, ⟨?_, ?_⟩, hheight, hheight, by omega, by decide, by omega⟩ <;> (simp only [probe]; omega)
    have hmem : log ∈ [k + 1].flatMap (expected chain (probe (k + 1) log)) := by
      rw [List.flatMap_singleton, expected, hblock]
      exact probe_matches (k + 1) hlog
    have hround (logLimit : Nat) : collectLogs bits (chain.map (finalizeBlock bits)) (probe (k + 1) log)
        logLimit [] (k + 1) = .ok [] := by
      refine collectLogs_ok (blockResult_at (by omega) (by omega)) ?_ (Int.natCast_nonneg logLimit)
      rw [hblock, finalizeBlock_eq]
      exact if_neg (probe_skips (k + 1) hx hnot)
    have hquery := hexact _ (-1) (k + 1) (k + 1) _ hrange le_rfl
    rw [logs_inRange hrange, hone, List.foldlM_cons, hround] at hquery
    rw [← Except.ok.inj hquery] at hmem
    cases hmem
  · intro hcovered c blockLimit first last logLimit hrange hlimit
    rw [logs_inRange hrange]
    refine collect_heights hcovered c logLimit _ (fun k hk => ?_) [] hlimit
    have hbounds := hrange.bounds
    rw [List.mem_range'_1] at hk
    omega

end Exact

-- An execution without hooks, one whose hooks drop a log, one that fails and one whose hooks
-- fail. What they store is found.
def sampleBits (value : Bytes) : Bloom :=
  {Fin.ofNat 2048 (Bytes.toNat value)}

def quietChain : List (List Transaction) :=
  [[⟨[⟨false, [⟨[1], [[7]]⟩], none, true⟩,
      ⟨false, [⟨[2], [[7], [8]]⟩, ⟨[3], []⟩], some (some [⟨[2], [[7], [8]]⟩]), true⟩], true⟩],
    [⟨[⟨true, [], none, true⟩], true⟩, ⟨[⟨false, [⟨[1], [[7]]⟩], some none, true⟩], true⟩]]

theorem quiet_logs_found :
    logs sampleBits (fun _ => none) (quietChain.map (finalizeBlock sampleBits)) ⟨none, 1, -2, [], [[[7]]]⟩ 100 100 =
      .ok [⟨[1], [[7]]⟩, ⟨[2], [[7], [8]]⟩] := by
  have hquiet : ∀ txs ∈ quietChain, AddsNoBit sampleBits txs := by
    intro txs htxs log hlog
    have hnone : ∀ txs ∈ quietChain, txs.flatMap addedOf = [] := by decide
    rw [hnone txs htxs] at hlog
    cases hlog
  exact (logs_exact_iff (fun _ => none) quietChain).mpr hquiet ⟨none, 1, -2, [], [[[7]]]⟩ 100 1 2 100
    ⟨rfl, by decide, rfl, rfl, by decide, by decide⟩ (by decide)

-- A hook adds a log to a transaction without any. The log is stored, and a query for its
-- address does not find it.
def hookChain : List (List Transaction) :=
  [[⟨[⟨false, [], some (some [⟨[1], []⟩]), true⟩], true⟩]]

theorem hook_log_not_found :
    logs (fun _ => {1}) (fun _ => none) (hookChain.map (finalizeBlock fun _ => {1}))
        ⟨none, 1, 1, [[1]], []⟩ 100 100 = .ok [] ∧
      expected hookChain ⟨none, 1, 1, [[1]], []⟩ 1 = [⟨[1], []⟩] :=
  ⟨rfl, rfl⟩

end PosChain.Rpc.LogFilter
