import PosChain.Base.Action
import PosChain.Base.Text

namespace PosChain.Rpc.TxIndices

structure Attribute where
  key : String
  value : String

structure Event where
  type : String
  attributes : List Attribute

structure Log where
  txIndex : Nat
  index : Nat

structure EthereumTxResponse where
  logs : List Log

-- A message response by its type URL. One of an Ethereum message is nil where it cannot be
-- decoded.
inductive MsgResponse where
  | ethereum (value : Option EthereumTxResponse)
  | other

-- The data is nil where it cannot be decoded.
structure ExecTxResult where
  code : Nat
  log : String
  data : Option (List MsgResponse)
  events : List Event
  gasUsed : Nat

def txSucessOrExpectedFailure (res : ExecTxResult) : Bool :=
  res.code = 0 ∨ Text.contains res.log "out of gas in location: block gas meter; gasWanted:"

section Patch

-- The first attribute with the key of the index takes the value.
def rewriteAttributes (value : String) : List Attribute → Option (List Attribute)
  | [] => none
  | a :: rest =>
    if a.key = "txIndex" then some ({ a with value } :: rest)
    else (rewriteAttributes value rest).map (a :: ·)

def rewriteEthTxEventIndex : List Event → Nat → List Event × Nat
  | [], _ => ([], 0)
  | e :: rest, start =>
    match if e.type = "ethereum_tx" then rewriteAttributes (toString start) e.attributes else none with
    | none => (e :: (rewriteEthTxEventIndex rest start).1, (rewriteEthTxEventIndex rest start).2)
    | some attributes => ({ e with attributes } :: (rewriteEthTxEventIndex rest (start + 1)).1,
        (rewriteEthTxEventIndex rest (start + 1)).2 + 1)

def renumber (ethTxIndex : Nat) : List Log → Nat → List Log
  | [], _ => []
  | _ :: rest, logIndex => ⟨ethTxIndex, logIndex⟩ :: renumber ethTxIndex rest (logIndex + 1)

def patchResponses : List MsgResponse → Nat → Nat → Check (List MsgResponse × Nat × Nat)
  | [], ethTxIndex, logIndex => .ok ([], ethTxIndex, logIndex)
  | .other :: rest, ethTxIndex, logIndex =>
    (patchResponses rest ethTxIndex logIndex).map fun r => (.other :: r.1, r.2)
  | .ethereum none :: _, _, _ => .error (.error "proto: cannot parse MsgEthereumTxResponse")
  | .ethereum (some response) :: rest, ethTxIndex, logIndex =>
    (patchResponses rest (ethTxIndex + 1) (logIndex + response.logs.length)).map fun r =>
      (.ethereum (some ⟨renumber ethTxIndex response.logs logIndex⟩) :: r.1, r.2)

def patchFrom : List ExecTxResult → Nat → Nat → Check (List ExecTxResult)
  | [], _, _ => .ok []
  | res :: rest, ethTxIndex, logIndex =>
    if txSucessOrExpectedFailure res then
      let (events, rewritten) := rewriteEthTxEventIndex res.events ethTxIndex
      match if res.code = 0 then res.data else none with
      | none => (patchFrom rest (ethTxIndex + rewritten) logIndex).map ({ res with events } :: ·)
      | some responses => do
        let (responses, ethTxIndex, logIndex) ← patchResponses responses ethTxIndex logIndex
        let rest ← patchFrom rest ethTxIndex logIndex
        return { res with events, data := some responses } :: rest
    else (patchFrom rest ethTxIndex logIndex).map (res :: ·)

def patchTxResponses (input : List ExecTxResult) : Check (List ExecTxResult) :=
  patchFrom input 0 0

end Patch

structure EthereumMsg where
  hash : String
  gas : Nat

-- A transaction with the type URLs of its extension options. Those of Ethereum carry
-- Ethereum messages only.
structure Tx where
  extensionOptions : List String
  msgs : List EthereumMsg

def isEthTx (tx : Tx) : Bool :=
  tx.extensionOptions = ["/cosmos.evm.vm.v1.ExtensionOptionsEthereumTx"]

section Parse

structure ParsedTx where
  ethTxIndex : Option Nat
  gasUsed : Nat
  failed : Bool

-- The format that the first event has shown, and the number of events that update.
structure ParsedTxs where
  format1 : Option Bool
  updates : Nat
  txs : List ParsedTx

def parseUint (text : String) (bits : Nat) : Check Nat :=
  if text.toList ≠ [] ∧ text.toList.all Char.isDigit ∧ Nat.ofDigitChars 10 text.toList 0 < 2 ^ bits then
    .ok (Nat.ofDigitChars 10 text.toList 0)
  else .error (.error "strconv.ParseUint: invalid")

def fillTxAttribute (tx : ParsedTx) (attr : Attribute) : Check ParsedTx :=
  if attr.key = "txIndex" then (parseUint attr.value 31).map fun n => { tx with ethTxIndex := some n }
  else if attr.key = "txGasUsed" then (parseUint attr.value 64).map fun n => { tx with gasUsed := n }
  else if attr.key = "ethereumTxFailed" then .ok { tx with failed := attr.value ≠ "" }
  else .ok tx

def fillTxAttributes (attrs : List Attribute) : Check ParsedTx :=
  attrs.foldlM fillTxAttribute ⟨none, 0, false⟩

def parseEvent (p : ParsedTxs) (event : Event) : Check ParsedTxs :=
  if event.type ≠ "ethereum_tx" then .ok p
  else
    let format1 := p.format1.getD (2 < event.attributes.length)
    (fillTxAttributes event.attributes).bind fun tx =>
      if event.attributes.length = 2 then .ok ⟨some format1, p.updates, p.txs ++ [tx]⟩
      else if format1 then .ok ⟨some format1, p.updates + 1, p.txs ++ [tx]⟩
      else
        match p.txs[p.updates]? with
        | none => .error (.panic "runtime error: index out of range")
        | some old => .ok ⟨some format1, p.updates + 1,
            p.txs.set p.updates { tx with ethTxIndex := tx.ethTxIndex <|> old.ethTxIndex }⟩

def parseTxResult (res : ExecTxResult) (msgs : List EthereumMsg) : Check (List ParsedTx) :=
  (res.events.foldlM parseEvent ⟨none, 0, []⟩).bind fun p =>
    let txs := if p.txs.length = 1 then p.txs.map ({ · with gasUsed := res.gasUsed }) else p.txs
    if res.code = 0 then .ok txs
    else if msgs.length < txs.length then .error (.panic "runtime error: index out of range")
    else .ok (List.zipWith (fun tx msg => { tx with failed := true, gasUsed := msg.gas }) txs msgs)

end Parse

structure TxResult where
  hash : String
  height : Nat
  txIndex : Nat
  msgIndex : Nat
  ethTxIndex : Int32
  gasUsed : Nat
  failed : Bool
  cumulativeGasUsed : Nat

section Index

variable (height : Nat)

def gasAndFailed (res : ExecTxResult) (txs : List ParsedTx) (msg : EthereumMsg) (msgIndex : Nat) :
    Option (Nat × Bool) :=
  if res.code ≠ 0 then some (msg.gas, true) else txs[msgIndex]?.map fun tx => (tx.gasUsed, tx.failed)

-- The loop over the messages, with what it saves and the next index.
def indexMsgs (txIndex : Nat) (res : ExecTxResult) (txs : List ParsedTx) :
    List EthereumMsg → Nat → Int32 → Nat → List TxResult × Int32
  | [], _, ethTxIndex, _ => ([], ethTxIndex)
  | msg :: rest, msgIndex, ethTxIndex, cumulative =>
    match gasAndFailed res txs msg msgIndex with
    | none => indexMsgs txIndex res txs rest (msgIndex + 1) ethTxIndex cumulative
    | some (gasUsed, failed) =>
      let (saved, next) := indexMsgs txIndex res txs rest (msgIndex + 1) (ethTxIndex + 1)
        ((cumulative + gasUsed) % 2 ^ 64)
      (⟨msg.hash, height, txIndex, msgIndex, ethTxIndex, gasUsed, failed,
        (cumulative + gasUsed) % 2 ^ 64⟩ :: saved, next)

-- A transaction that cannot be decoded is nil.
def indexFrom : List (Option Tx) → List ExecTxResult → Nat → Int32 → Check (List TxResult)
  | [], _, _, _ => .ok []
  | _ :: _, [], _, _ => .error (.panic "runtime error: index out of range")
  | tx :: txs, res :: results, txIndex, ethTxIndex =>
    match if txSucessOrExpectedFailure res then tx.filter isEthTx else none with
    | none => indexFrom txs results (txIndex + 1) ethTxIndex
    | some tx =>
      match parseTxResult res tx.msgs with
      | .error (.panic text) => .error (.panic text)
      | .error (.error _) => indexFrom txs results (txIndex + 1) ethTxIndex
      | .ok parsed =>
        let (saved, next) := indexMsgs height txIndex res parsed tx.msgs 0 ethTxIndex 0
        (indexFrom txs results (txIndex + 1) next).map (saved ++ ·)

def indexBlock (txs : List (Option Tx)) (txResults : List ExecTxResult) : Check (List TxResult) :=
  indexFrom height txs txResults 0 0

end Index

def isEthEvent (e : Event) : Bool :=
  e.type = "ethereum_tx"

def indexOf (e : Event) : Option String :=
  (e.attributes.find? fun a => a.key = "txIndex").map fun a => a.value

def indicesOf (events : List Event) : List String :=
  (events.filter isEthEvent).filterMap indexOf

def ethResponses (responses : List MsgResponse) : List EthereumTxResponse :=
  responses.filterMap fun
    | .ethereum value => value
    | .other => none

def responsesOf (res : ExecTxResult) : List EthereumTxResponse :=
  ethResponses (res.data.getD [])

def Announces (e : Event) : Prop :=
  ∃ hash index, e.attributes = [⟨"ethereumTxHash", hash⟩, ⟨"txIndex", index⟩]

def Reports (e : Event) : Prop :=
  2 < e.attributes.length ∧ ∀ a ∈ e.attributes, a.key ≠ "txIndex" ∧
    (a.key = "txGasUsed" → ∃ gas, parseUint a.value 64 = .ok gas)

-- The result of an Ethereum transaction: a first event for each of its messages, later
-- ones of those that were executed, and a response for each message if it succeeds.
structure EthereumShape (msgs : List EthereumMsg) (res : ExecTxResult) : Prop where
  events : ∃ first later, res.events.filter isEthEvent = first ++ later ∧ first.length = msgs.length ∧
    later.length ≤ msgs.length ∧ (∀ e ∈ first, Announces e) ∧ ∀ e ∈ later, Reports e
  responses : res.code = 0 → ∃ responses, res.data = some responses ∧ .ethereum none ∉ responses ∧
    (ethResponses responses).length = msgs.length

def counted (tx : Option Tx) (res : ExecTxResult) : Option Tx :=
  if txSucessOrExpectedFailure res then tx.filter isEthTx else none

-- Failed transactions have no responses. Others than Ethereum's have neither its events
-- nor its responses.
structure WellFormed (tx : Option Tx) (res : ExecTxResult) : Prop where
  failed : res.code ≠ 0 → responsesOf res = []
  ethereum : ∀ t, counted tx res = some t → EthereumShape t.msgs res
  cosmos : tx.filter isEthTx = none → res.events.filter isEthEvent = [] ∧
    .ethereum none ∉ res.data.getD [] ∧ responsesOf res = []

section Numbers

theorem parseUint_toString (n bits : Nat) : parseUint (toString n) bits =
    if n < 2 ^ bits then .ok n else .error (.error "strconv.ParseUint: invalid") := by
  have hdigits : (toString n).toList = Nat.toDigits 10 n := Nat.toList_repr
  have hall : (Nat.toDigits 10 n).all Char.isDigit = true := by
    rw [List.all_eq_true]
    exact fun _ hc => Nat.isDigit_of_mem_toDigits (by omega) (by omega) hc
  rw [parseUint, hdigits, Nat.ofDigitChars_ten_toDigits]
  simp only [ne_eq, Nat.toDigits_ne_nil, not_false_eq_true, hall, true_and]

def Numbered (e : Event) (n : Nat) : Prop :=
  e.type = "ethereum_tx" ∧ ∃ hash, e.attributes = [⟨"ethereumTxHash", hash⟩, ⟨"txIndex", toString n⟩]

theorem rewriteAttributes_none (value : String) {attrs : List Attribute}
    (h : ∀ a ∈ attrs, a.key ≠ "txIndex") : rewriteAttributes value attrs = none := by
  induction attrs with
  | nil => rfl
  | cons a rest ih =>
    rw [rewriteAttributes, if_neg (h a (List.mem_cons_self ..)), ih fun b hb => h b (List.mem_cons_of_mem _ hb)]
    rfl

theorem rewrite_events (events first later : List Event) (start : Nat)
    (hfilter : events.filter isEthEvent = first ++ later) (hfirst : ∀ e ∈ first, Announces e)
    (hlater : ∀ e ∈ later, Reports e) :
    (rewriteEthTxEventIndex events start).2 = first.length ∧ ∃ first',
      (rewriteEthTxEventIndex events start).1.filter isEthEvent = first' ++ later ∧
        List.Forall₂ Numbered first' (List.range' start first.length) := by
  induction events generalizing first later start with
  | nil =>
    obtain ⟨rfl, rfl⟩ := List.append_eq_nil_iff.mp hfilter.symm
    exact ⟨rfl, [], rfl, .nil⟩
  | cons e rest ih =>
    by_cases he : isEthEvent e = true
    · have htype : e.type = "ethereum_tx" := by simpa [isEthEvent] using he
      rw [List.filter_cons_of_pos he] at hfilter
      cases first with
      | nil =>
        obtain rfl : e :: rest.filter isEthEvent = later := hfilter
        have hnone := rewriteAttributes_none (toString start) fun a ha =>
          ((hlater e (List.mem_cons_self ..)).2 a ha).1
        obtain ⟨hcount, first', hevents, hnumbered⟩ := ih [] _ start rfl (by simp) fun d hd =>
          hlater d (List.mem_cons_of_mem _ hd)
        cases hnumbered
        rw [rewriteEthTxEventIndex, if_pos htype, hnone]
        refine ⟨hcount, [], ?_, .nil⟩
        rw [List.filter_cons_of_pos he, hevents]
        rfl
      | cons f fs =>
        obtain ⟨rfl, hrest⟩ := List.cons.inj hfilter
        obtain ⟨hash, index, hattrs⟩ := hfirst e (List.mem_cons_self ..)
        obtain ⟨hcount, first', hevents, hnumbered⟩ := ih fs later (start + 1) hrest
          (fun d hd => hfirst d (List.mem_cons_of_mem _ hd)) hlater
        have hsome : rewriteAttributes (toString start) e.attributes =
            some [⟨"ethereumTxHash", hash⟩, ⟨"txIndex", toString start⟩] := by
          simp [hattrs, rewriteAttributes]
        rw [rewriteEthTxEventIndex, if_pos htype, hsome]
        refine ⟨congrArg (· + 1) hcount,
          ⟨e.type, [⟨"ethereumTxHash", hash⟩, ⟨"txIndex", toString start⟩]⟩ :: first', ?_,
          .cons ⟨htype, hash, rfl⟩ hnumbered⟩
        have hpos : isEthEvent ⟨e.type, [⟨"ethereumTxHash", hash⟩, ⟨"txIndex", toString start⟩]⟩ := he
        exact (List.filter_cons_of_pos hpos).trans (congrArg _ hevents)
    · have htype : e.type ≠ "ethereum_tx" := by simpa [isEthEvent] using he
      rw [List.filter_cons_of_neg he] at hfilter
      obtain ⟨hcount, first', hevents, hnumbered⟩ := ih first later start hfilter hfirst hlater
      rw [rewriteEthTxEventIndex, if_neg htype]
      exact ⟨hcount, first', by rw [List.filter_cons_of_neg he, hevents], hnumbered⟩

theorem parse_filter (events : List Event) (p : ParsedTxs) :
    events.foldlM parseEvent p = (events.filter isEthEvent).foldlM parseEvent p := by
  induction events generalizing p with
  | nil => rfl
  | cons e rest ih =>
    by_cases he : isEthEvent e = true
    · rw [List.filter_cons_of_pos he, List.foldlM_cons, List.foldlM_cons]
      exact congrArg _ (funext fun q => ih q)
    · have hskip : parseEvent p e = .ok p := if_pos (by simpa [isEthEvent] using he)
      rw [List.filter_cons_of_neg he, List.foldlM_cons, hskip]
      exact ih p

theorem fill_reports {attrs : List Attribute} (h : ∀ a ∈ attrs, a.key ≠ "txIndex" ∧
    (a.key = "txGasUsed" → ∃ gas, parseUint a.value 64 = .ok gas)) (tx : ParsedTx) :
    ∃ tx', attrs.foldlM fillTxAttribute tx = .ok tx' := by
  induction attrs generalizing tx with
  | nil => exact ⟨tx, rfl⟩
  | cons a rest ih =>
    obtain ⟨hindex, hgas⟩ := h a (List.mem_cons_self ..)
    have hone : ∃ tx', fillTxAttribute tx a = .ok tx' := by
      unfold fillTxAttribute
      rw [if_neg hindex]
      split
      · rename_i hkey
        obtain ⟨gas, hparse⟩ := hgas hkey
        exact ⟨_, by rw [hparse]; rfl⟩
      · split <;> exact ⟨_, rfl⟩
    obtain ⟨tx', hone⟩ := hone
    rw [List.foldlM_cons, hone]
    exact ih (fun b hb => h b (List.mem_cons_of_mem _ hb)) tx'

theorem parse_first {first : List Event} {ns : List Nat} (h : List.Forall₂ Numbered first ns)
    (hns : ∀ n ∈ ns, n < 2 ^ 31) (p : ParsedTxs) (hp : p.format1 = some false ∨ p.format1 = none ∧ p.txs = []) :
    ∃ p', first.foldlM parseEvent p = .ok p' ∧ p'.txs.length = p.txs.length + first.length ∧
      p'.updates = p.updates ∧ (p'.format1 = some false ∨ p'.format1 = none ∧ p'.txs = []) := by
  induction h generalizing p with
  | nil => exact ⟨p, rfl, rfl, rfl, hp⟩
  | @cons e n first ns hnumbered _ ih =>
    obtain ⟨htype, hash, hattrs⟩ := hnumbered
    have hformat : p.format1.getD (decide (2 < e.attributes.length)) = false := by
      rcases hp with hp | hp
      · rw [hp]
        rfl
      · rw [hp.1, hattrs]
        rfl
    have hstep : parseEvent p e = .ok ⟨some false, p.updates, p.txs ++ [⟨some n, 0, false⟩]⟩ := by
      have hparse : parseUint (toString n) 31 = .ok n :=
        (parseUint_toString n 31).trans (if_pos (hns n (List.mem_cons_self ..)))
      rw [parseEvent, if_neg (not_not.mpr htype), hformat, hattrs]
      simp only [fillTxAttributes, List.foldlM_cons, List.foldlM_nil, fillTxAttribute, hparse]
      rfl
    obtain ⟨p', hrun, hlength, hupdates, hp'⟩ := ih (fun m hm => hns m (List.mem_cons_of_mem _ hm))
      ⟨some false, p.updates, p.txs ++ [⟨some n, 0, false⟩]⟩ (.inl rfl)
    refine ⟨p', ?_, ?_, hupdates, hp'⟩
    · rw [List.foldlM_cons, hstep]
      exact hrun
    · rw [hlength]
      simp
      omega

theorem parse_later {later : List Event} (h : ∀ e ∈ later, Reports e ∧ e.type = "ethereum_tx")
    (p : ParsedTxs) (hp : p.format1 = some false ∨ later = []) (hroom : p.updates + later.length ≤ p.txs.length) :
    ∃ p', later.foldlM parseEvent p = .ok p' ∧ p'.txs.length = p.txs.length := by
  induction later generalizing p with
  | nil => exact ⟨p, rfl, rfl⟩
  | cons e rest ih =>
    obtain ⟨⟨hlong, hkeys⟩, htype⟩ := h e (List.mem_cons_self ..)
    obtain ⟨tx, hfill⟩ := fill_reports hkeys ⟨none, 0, false⟩
    rw [List.length_cons] at hroom
    have hformat := hp.resolve_right (by simp)
    obtain ⟨old, hold⟩ : ∃ old, p.txs[p.updates]? = some old :=
      ⟨_, List.getElem?_eq_getElem (show p.updates < p.txs.length by omega)⟩
    have hstep : parseEvent p e = .ok ⟨some false, p.updates + 1,
        p.txs.set p.updates { tx with ethTxIndex := tx.ethTxIndex <|> old.ethTxIndex }⟩ := by
      rw [parseEvent, if_neg (not_not.mpr htype), hformat, fillTxAttributes, hfill]
      simp only [Except.bind, if_neg (show e.attributes.length ≠ 2 by omega), hold]
      rfl
    obtain ⟨p', hrun, hlength⟩ := ih (fun d hd => h d (List.mem_cons_of_mem _ hd))
      ⟨some false, p.updates + 1,
        p.txs.set p.updates { tx with ethTxIndex := tx.ethTxIndex <|> old.ethTxIndex }⟩ (.inl rfl)
      (by simp only [List.length_set]; omega)
    refine ⟨p', ?_, hlength.trans (by simp)⟩
    rw [List.foldlM_cons, hstep]
    exact hrun

theorem parse_shape {res : ExecTxResult} {msgs : List EthereumMsg} {first later : List Event} {start : Nat}
    (hevents : res.events.filter isEthEvent = first ++ later)
    (hfirst : List.Forall₂ Numbered first (List.range' start msgs.length)) (hlater : ∀ e ∈ later, Reports e)
    (hlength : later.length ≤ msgs.length) (hbound : start + msgs.length ≤ 2 ^ 31) :
    ∃ txs, parseTxResult res msgs = .ok txs ∧ txs.length = msgs.length := by
  have hcount : first.length = msgs.length := by simpa using hfirst.length_eq
  obtain ⟨p, hrun, hsize, hupdates, hformat⟩ := parse_first hfirst
    (fun n hn => by rw [List.mem_range'_1] at hn; omega) ⟨none, 0, []⟩ (.inr ⟨rfl, rfl⟩)
  rw [List.length_nil, Nat.zero_add] at hsize
  have htypes : ∀ e ∈ later, Reports e ∧ e.type = "ethereum_tx" := by
    intro e he
    have hmem : e ∈ res.events.filter isEthEvent := hevents ▸ List.mem_append_right _ he
    exact ⟨hlater e he, by simpa [isEthEvent] using (List.mem_filter.mp hmem).2⟩
  obtain ⟨p', hrun', hsize'⟩ := parse_later htypes p (by
    rcases hformat with hformat | ⟨-, hnil⟩
    · exact .inl hformat
    · rw [hnil, List.length_nil] at hsize
      exact .inr (List.eq_nil_of_length_eq_zero (by omega))) (by rw [hupdates, Nat.zero_add]; omega)
  have hparse : res.events.foldlM parseEvent ⟨none, 0, []⟩ = .ok p' := by
    rw [parse_filter, hevents, List.foldlM_append, hrun]
    exact hrun'
  have hall (gas : Nat) : (if p'.txs.length = 1 then
      p'.txs.map fun tx => { tx with gasUsed := gas } else p'.txs).length = msgs.length := by
    split
    · rw [List.length_map]
      omega
    · omega
  rw [parseTxResult, hparse]
  dsimp only [Except.bind]
  split
  · exact ⟨_, rfl, hall _⟩
  · rw [if_neg (by rw [hall]; omega)]
    exact ⟨_, rfl, by rw [List.length_zipWith, hall, Nat.min_self]⟩

theorem renumber_spec (ethTxIndex : Nat) (logs : List Log) (logIndex : Nat) :
    (∀ log ∈ renumber ethTxIndex logs logIndex, log.txIndex = ethTxIndex) ∧
      (renumber ethTxIndex logs logIndex).map Log.index = List.range' logIndex logs.length := by
  induction logs generalizing logIndex with
  | nil => exact ⟨by simp [renumber], rfl⟩
  | cons log rest ih =>
    obtain ⟨htx, hindex⟩ := ih (logIndex + 1)
    refine ⟨?_, by rw [renumber, List.map_cons, hindex]; rfl⟩
    rintro x (_ | ⟨_, hx⟩)
    · rfl
    · exact htx x hx

def logsOf (responses : List EthereumTxResponse) : List Log :=
  responses.flatMap EthereumTxResponse.logs

theorem patchResponses_spec (responses : List MsgResponse) (h : .ethereum none ∉ responses) (eth log : Nat) :
    ∃ out, patchResponses responses eth log =
        .ok (out, eth + (ethResponses responses).length, log + (logsOf (ethResponses responses)).length) ∧
      (∀ (j : Nat) r, (ethResponses out)[j]? = some r → ∀ l ∈ r.logs, l.txIndex = eth + j) ∧
      (ethResponses out).length = (ethResponses responses).length ∧
      (logsOf (ethResponses out)).map Log.index = List.range' log (logsOf (ethResponses responses)).length := by
  induction responses generalizing eth log with
  | nil => exact ⟨[], rfl, by simp [ethResponses], rfl, rfl⟩
  | cons response rest ih =>
    have hrest : MsgResponse.ethereum none ∉ rest := fun hmem => h (List.mem_cons_of_mem _ hmem)
    match response with
    | .ethereum none => exact absurd (List.mem_cons_self ..) h
    | .other =>
      obtain ⟨out, hout, hspec⟩ := ih hrest eth log
      exact ⟨.other :: out, by rw [patchResponses, hout]; rfl, hspec⟩
    | .ethereum (some r) =>
      obtain ⟨out, hout, htx, hlength, hindex⟩ := ih hrest (eth + 1) (log + r.logs.length)
      obtain ⟨hrtx, hrindex⟩ := renumber_spec eth r.logs log
      refine ⟨.ethereum (some ⟨renumber eth r.logs log⟩) :: out, ?_, fun j r' hj => ?_,
        congrArg (· + 1) hlength, ?_⟩
      · rw [patchResponses, hout]
        simp [ethResponses, logsOf, Except.map]
        omega
      · cases j with
        | zero =>
          cases hj
          exact hrtx
        | succ j =>
          intro l hl
          rw [htx j r' hj l hl]
          omega
      · change (renumber eth r.logs log ++ logsOf (ethResponses out)).map Log.index =
          List.range' log (r.logs ++ logsOf (ethResponses rest)).length
        rw [List.map_append, hrindex, hindex, List.length_append, ← List.range'_append_1]

theorem indexMsgs_spec (height txIndex : Nat) (res : ExecTxResult) (txs : List ParsedTx) (msgs : List EthereumMsg)
    (msgIndex eth cumulative : Nat) (h : res.code ≠ 0 ∨ msgIndex + msgs.length ≤ txs.length)
    (hbound : eth + msgs.length ≤ 2 ^ 31) :
    (indexMsgs height txIndex res txs msgs msgIndex (.ofNat eth) cumulative).2 = .ofNat (eth + msgs.length) ∧
      (indexMsgs height txIndex res txs msgs msgIndex (.ofNat eth) cumulative).1.map
        (fun r => (r.txIndex, r.msgIndex, r.ethTxIndex.toInt)) =
        (List.range msgs.length).map fun j => (txIndex, msgIndex + j, ((eth + j : Nat) : Int)) := by
  induction msgs generalizing msgIndex eth cumulative with
  | nil => exact ⟨rfl, rfl⟩
  | cons msg rest ih =>
    rw [List.length_cons] at h hbound
    obtain ⟨found, hfound⟩ : ∃ found, gasAndFailed res txs msg msgIndex = some found := by
      unfold gasAndFailed
      by_cases hcode : res.code = 0
      · rw [if_neg (not_not.mpr hcode), List.getElem?_eq_getElem (by omega)]
        exact ⟨_, rfl⟩
      · exact ⟨_, if_pos hcode⟩
    obtain ⟨hnext, hsaved⟩ := ih (msgIndex + 1) (eth + 1) ((cumulative + found.1) % 2 ^ 64) (by omega) (by omega)
    rw [indexMsgs, hfound]
    rw [Int32.ofNat_add] at hnext hsaved
    refine ⟨hnext.trans (congrArg _ (by rw [List.length_cons]; omega)), ?_⟩
    rw [List.length_cons, List.range_succ_eq_map, List.map_cons, List.map_cons, List.map_map]
    refine List.cons_eq_cons.mpr ⟨?_, hsaved.trans (List.map_congr_left fun j _ => ?_)⟩
    · rw [Int32.toInt_ofNat_of_lt (by omega)]
      rfl
    · simp only [Function.comp_apply, Prod.mk.injEq, true_and]
      omega

end Numbers

-- The events, the logs and what is saved for a block, from a position and an index on.
def Agree : List (Option Tx × ExecTxResult) → Nat → Nat → List TxResult → Prop
  | [], _, _, saved => saved = []
  | (tx, res) :: rest, txIndex, eth, saved =>
    match counted tx res with
    | none => Agree rest (txIndex + 1) eth saved
    | some t => ∃ mine others, saved = mine ++ others ∧
        mine.map (fun r => (r.txIndex, r.msgIndex, r.ethTxIndex.toInt)) =
          (List.range t.msgs.length).map (fun j => (txIndex, j, ((eth + j : Nat) : Int))) ∧
        indicesOf res.events = (List.range' eth t.msgs.length).map toString ∧
        (∀ (j : Nat) r, (responsesOf res)[j]? = some r → ∀ log ∈ r.logs, log.txIndex = eth + j) ∧
        Agree rest (txIndex + 1) (eth + t.msgs.length) others

def countedMsgs (block : List (Option Tx × ExecTxResult)) : List EthereumMsg :=
  block.flatMap fun entry => ((counted entry.1 entry.2).map Tx.msgs).getD []

def blockLogs (results : List ExecTxResult) : List Log :=
  results.flatMap fun res => logsOf (responsesOf res)

theorem indicesOf_numbered {events first later : List Event} {ns : List Nat}
    (hevents : events.filter isEthEvent = first ++ later) (hfirst : List.Forall₂ Numbered first ns)
    (hlater : ∀ e ∈ later, Reports e) : indicesOf events = ns.map toString := by
  have hnone : later.filterMap indexOf = [] := by
    rw [List.filterMap_eq_nil_iff]
    intro e he
    have hfind : e.attributes.find? (fun a => a.key = "txIndex") = none := by
      rw [List.find?_eq_none]
      exact fun a ha => by simpa using ((hlater e he).2 a ha).1
    rw [indexOf, hfind]
    rfl
  rw [indicesOf, hevents, List.filterMap_append, hnone, List.append_nil]
  clear hevents
  induction hfirst with
  | nil => rfl
  | @cons e n first ns hnumbered _ ih =>
    obtain ⟨-, hash, hattrs⟩ := hnumbered
    have hindex : indexOf e = some (toString n) := by simp [indexOf, hattrs]
    rw [List.filterMap_cons_some hindex, ih, List.map_cons]

-- What the patch does to one result that passes the gate: its events are rewritten, and
-- the responses of one that succeeds.
theorem patchFrom_cons {res : ExecTxResult} (hgate : txSucessOrExpectedFailure res = true)
    (hresponses : res.code = 0 → .ethereum none ∉ res.data.getD [])
    (hfailed : res.code ≠ 0 → responsesOf res = []) {count : Nat} (eth log : Nat)
    (hcount : (rewriteEthTxEventIndex res.events eth).2 = count)
    (hsame : res.code = 0 → ∀ responses, res.data = some responses → (ethResponses responses).length = count)
    (results : List ExecTxResult) :
    ∃ data, responsesOf { res with events := (rewriteEthTxEventIndex res.events eth).1, data } =
        ethResponses (data.getD []) ∧
      patchFrom (res :: results) eth log =
        (patchFrom results (eth + count) (log + (logsOf (responsesOf res)).length)).map
          ({ res with events := (rewriteEthTxEventIndex res.events eth).1, data } :: ·) ∧
      (ethResponses (data.getD [])).length = (responsesOf res).length ∧
      (∀ (j : Nat) r, (ethResponses (data.getD []))[j]? = some r → ∀ l ∈ r.logs, l.txIndex = eth + j) ∧
      (logsOf (ethResponses (data.getD []))).map Log.index =
        List.range' log (logsOf (responsesOf res)).length := by
  by_cases hdata : res.code = 0 ∧ ∃ responses, res.data = some responses
  · obtain ⟨hcode, responses, hsome⟩ := hdata
    have hdecoded := hresponses hcode
    rw [hsome] at hdecoded
    obtain ⟨out, hout, htx, hlength, hindex⟩ := patchResponses_spec responses hdecoded eth log
    have hres : responsesOf res = ethResponses responses := by rw [responsesOf, hsome]; rfl
    rw [hsame hcode responses hsome] at hout
    refine ⟨some out, rfl, ?_, by rw [hres]; exact hlength, htx, by rw [hres]; exact hindex⟩
    rw [patchFrom, if_pos hgate, if_pos hcode, hsome, hres]
    dsimp only
    rw [hout]
    rfl
  · have hnone : (if res.code = 0 then res.data else none) = none := by
      split
      · rename_i hcode
        cases hd : res.data with
        | none => rfl
        | some responses => exact absurd ⟨hcode, responses, hd⟩ hdata
      · rfl
    have hempty : responsesOf res = [] := by
      by_cases hcode : res.code = 0
      · rw [if_pos hcode] at hnone
        rw [responsesOf, hnone]
        rfl
      · exact hfailed hcode
    have hempty' : ethResponses (res.data.getD []) = [] := hempty
    refine ⟨res.data, rfl, ?_, by rw [hempty', hempty], by rw [hempty']; simp, by rw [hempty', hempty]; rfl⟩
    rw [patchFrom, if_pos hgate, hnone, hempty]
    dsimp only
    rw [hcount]
    rfl

theorem patch_uncounted {tx : Option Tx} {res : ExecTxResult} (h : WellFormed tx res)
    (hnone : counted tx res = none) (results : List ExecTxResult) (eth log : Nat) :
    ∃ res', counted tx res' = none ∧ responsesOf res' = [] ∧
      patchFrom (res :: results) eth log = (patchFrom results eth log).map (res' :: ·) := by
  by_cases hgate : txSucessOrExpectedFailure res = true
  · have hcosmos : tx.filter isEthTx = none := by rwa [counted, if_pos hgate] at hnone
    obtain ⟨hevents, hdecoded, hempty⟩ := h.cosmos hcosmos
    have hcount := (rewrite_events res.events [] [] eth hevents (by simp) (by simp)).1
    obtain ⟨data, hres, hpatch, hlength, -⟩ := patchFrom_cons hgate (fun _ => hdecoded) h.failed eth log hcount
      (fun _ responses hsome => by
        rw [responsesOf, hsome] at hempty
        exact congrArg _ hempty) results
    rw [hempty] at hpatch hlength
    refine ⟨_, ?_, hres.trans (List.eq_nil_of_length_eq_zero hlength), hpatch⟩
    rw [counted, hcosmos, ite_self]
  · have hcode : res.code ≠ 0 := fun hcode => hgate (by simp [txSucessOrExpectedFailure, hcode])
    exact ⟨res, hnone, h.failed hcode, by rw [patchFrom, if_neg hgate]⟩

theorem patch_counted {tx : Option Tx} {res : ExecTxResult} {t : Tx} (h : WellFormed tx res)
    (hsome : counted tx res = some t) (results : List ExecTxResult) (eth log : Nat) :
    ∃ res', counted tx res' = some t ∧
      patchFrom (res :: results) eth log =
        (patchFrom results (eth + t.msgs.length) (log + (logsOf (responsesOf res)).length)).map (res' :: ·) ∧
      (∃ first later, res'.events.filter isEthEvent = first ++ later ∧
        List.Forall₂ Numbered first (List.range' eth t.msgs.length) ∧ (∀ e ∈ later, Reports e) ∧
        later.length ≤ t.msgs.length) ∧
      (∀ (j : Nat) r, (responsesOf res')[j]? = some r → ∀ l ∈ r.logs, l.txIndex = eth + j) ∧
      (logsOf (responsesOf res')).map Log.index = List.range' log (logsOf (responsesOf res)).length := by
  have hshape := h.ethereum t hsome
  have hgate : txSucessOrExpectedFailure res = true := by
    by_contra hgate
    rw [counted, if_neg hgate] at hsome
    cases hsome
  obtain ⟨first, later, hevents, hcount, hfew, hfirst, hlater⟩ := hshape.events
  obtain ⟨hrewritten, first', hevents', hnumbered⟩ :=
    rewrite_events res.events first later eth hevents hfirst hlater
  rw [hcount] at hrewritten hnumbered
  obtain ⟨data, hres, hpatch, -, htx, hindex⟩ := patchFrom_cons hgate
    (fun hcode => by
      obtain ⟨responses, hdata, hdecoded, -⟩ := hshape.responses hcode
      rwa [hdata])
    h.failed eth log hrewritten
    (fun hcode responses hdata => by
      obtain ⟨responses', hdata', -, hlength⟩ := hshape.responses hcode
      obtain rfl := Option.some.inj (hdata.symm.trans hdata')
      exact hlength) results
  exact ⟨{ res with events := (rewriteEthTxEventIndex res.events eth).1, data }, hsome, hpatch,
    ⟨first', later, hevents', hnumbered, hlater, hfew⟩, htx, hindex⟩

theorem patch_then_index (height : Nat) (block : List (Option Tx × ExecTxResult))
    (hblock : ∀ entry ∈ block, WellFormed entry.1 entry.2) (txIndex eth log : Nat)
    (hbound : eth + (countedMsgs block).length ≤ 2 ^ 31) :
    ∃ results saved, patchFrom (block.map Prod.snd) eth log = .ok results ∧ results.length = block.length ∧
      indexFrom height (block.map Prod.fst) results txIndex (.ofNat eth) = .ok saved ∧
      Agree ((block.map Prod.fst).zip results) txIndex eth saved ∧
      saved.map (fun r => r.ethTxIndex.toInt) = (List.range' eth (countedMsgs block).length).map Nat.cast ∧
      (blockLogs results).map Log.index = List.range' log (blockLogs results).length := by
  induction block generalizing txIndex eth log with
  | nil => exact ⟨[], [], rfl, rfl, rfl, rfl, rfl, rfl⟩
  | cons entry rest ih =>
    obtain ⟨tx, res⟩ := entry
    have hentry := hblock (tx, res) (List.mem_cons_self ..)
    have hrest := fun e he => hblock e (List.mem_cons_of_mem (tx, res) he)
    cases hc : counted tx res with
    | none =>
      have hmsgs : countedMsgs ((tx, res) :: rest) = countedMsgs rest := by
        rw [countedMsgs, List.flatMap_cons, hc]
        rfl
      rw [hmsgs] at hbound ⊢
      obtain ⟨res', hc', hempty, hpatch⟩ := patch_uncounted hentry hc (rest.map Prod.snd) eth log
      obtain ⟨results, saved, hrun, hlength, hindex, hagree, hsaved, hlogs⟩ :=
        ih hrest (txIndex + 1) eth log hbound
      refine ⟨res' :: results, saved, ?_, congrArg (· + 1) hlength, ?_, ?_, hsaved, ?_⟩
      · rw [List.map_cons, hpatch, hrun]
        rfl
      · rw [List.map_cons, indexFrom, ← counted, hc']
        exact hindex
      · rw [List.map_cons, List.zip_cons_cons, Agree, hc']
        exact hagree
      · rw [blockLogs, List.flatMap_cons, hempty]
        exact hlogs
    | some t =>
      have hmsgs : countedMsgs ((tx, res) :: rest) = t.msgs ++ countedMsgs rest := by
        rw [countedMsgs, List.flatMap_cons, hc]
        rfl
      rw [hmsgs, List.length_append] at hbound ⊢
      obtain ⟨res', hc', hpatch, ⟨first, later, hevents, hnumbered, hlater, hfew⟩, htx, hown⟩ :=
        patch_counted hentry hc (rest.map Prod.snd) eth log
      obtain ⟨txs, hparse, hparsed⟩ := parse_shape hevents hnumbered hlater hfew (by omega)
      obtain ⟨results, saved, hrun, hlength, hindex, hagree, hsaved, hlogs⟩ :=
        ih hrest (txIndex + 1) (eth + t.msgs.length) (log + (logsOf (responsesOf res)).length) (by omega)
      obtain ⟨hnext, hmine⟩ := indexMsgs_spec height txIndex res' txs t.msgs 0 eth 0 (.inr (by omega))
        (by omega)
      simp only [Nat.zero_add] at hmine
      refine ⟨res' :: results, (indexMsgs height txIndex res' txs t.msgs 0 (.ofNat eth) 0).1 ++ saved, ?_,
        congrArg (· + 1) hlength, ?_, ?_, ?_, ?_⟩
      · rw [List.map_cons, hpatch, hrun]
        rfl
      · rw [List.map_cons, indexFrom, ← counted, hc']
        dsimp only
        rw [hparse]
        dsimp only
        rw [hnext, hindex]
        rfl
      · rw [List.map_cons, List.zip_cons_cons, Agree, hc']
        exact ⟨_, saved, rfl, hmine, indicesOf_numbered hevents hnumbered hlater, htx, hagree⟩
      · have hthird := congrArg (List.map fun r : Nat × Nat × Int => r.2.2) hmine
        rw [List.map_map, List.map_map] at hthird
        rw [List.map_append, hsaved, ← List.range'_append_1, List.map_append]
        refine congrArg (· ++ _) (hthird.trans ?_)
        rw [List.range'_eq_map_range, List.map_map]
        rfl
      · have hlogs' : blockLogs (res' :: results) = logsOf (responsesOf res') ++ blockLogs results :=
          List.flatMap_cons ..
        have hcount : (logsOf (responsesOf res')).length = (logsOf (responsesOf res)).length := by
          simpa using congrArg List.length hown
        rw [hlogs', List.map_append, hown, hlogs, List.length_append, hcount, ← List.range'_append_1]

-- A bank transfer, and an Ethereum transaction with a log at the next place of the block.
def mixedBlock : List (Option Tx × ExecTxResult) :=
  [(some ⟨[], []⟩, ⟨0, "", some [.other], [], 0⟩),
    (some ⟨["/cosmos.evm.vm.v1.ExtensionOptionsEthereumTx"], [⟨"0xa", 21000⟩]⟩,
      ⟨0, "", some [.ethereum (some ⟨[⟨1, 0⟩]⟩)],
        [⟨"ethereum_tx", [⟨"ethereumTxHash", "0xa"⟩, ⟨"txIndex", "1"⟩]⟩], 21000⟩)]

end PosChain.Rpc.TxIndices
