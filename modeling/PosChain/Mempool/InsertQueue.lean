import PosChain.Base.Run

namespace PosChain.Mempool

-- What arrives on the channel of a push. A result is what insert returned for the
-- transaction, nil included.
inductive Reply (E : Type) where
  | queueFull
  | result (err : E)
  deriving DecidableEq

-- The channel that a push returns: what was sent on it, and whether it is closed.
-- It has room for one value.
structure Subscription (E : Type) where
  sent : List (Reply E)
  closed : Bool
  deriving DecidableEq

structure InsertItem (Tx : Type) where
  tx : Option Tx
  sub : Nat
  deriving DecidableEq

-- Where the loop of the queue stands: before each of its critical sections and channel
-- operations.
inductive QueueLoop (Tx E : Type) where
  | looking
  | waiting
  | popping
  | inserting (batch : List (Nat × Tx))
  | sending (rest : List (Nat × E))
  | closing (sub : Nat) (rest : List (Nat × E))
  | returned
  | panicked (text : String)
  deriving DecidableEq

-- Channels are numbered in the order in which they were made. A push that has put
-- its transaction in the queue and not yet signalled is in signalling.
structure InsertQueue (Tx E : Type) where
  queue : List (InsertItem Tx)
  signal : Bool
  done : Bool
  maxSize : Int
  loop : QueueLoop Tx E
  subs : List (Subscription E)
  signalling : List Nat
  deriving DecidableEq

namespace InsertQueue

variable {Tx E : Type}

def new (maxSize : Int) : InsertQueue Tx E :=
  ⟨[], false, false, maxSize, .looking, [], []⟩

-- A section under the lock is one step. So is every operation on a channel.
inductive Event (Tx E : Type) where
  | push (tx : Option Tx)
  | signal (sub : Nat)
  | close
  | look
  | wake
  | quit
  | pop
  | insert (errs : List E)
  | send
  | closeSub
  | next

inductive Effect (Tx E : Type) where
  | none
  | ignored (sub : Nat)
  | rejected (sub : Nat)
  | entered (sub : Nat) (tx : Tx)
  | inserted (batch : List (Nat × Tx)) (errs : List E)

-- A nil transaction gets a closed channel, and one that finds the queue full an
-- error on a closed channel. The others go to the back of the queue.
def push (s : InsertQueue Tx E) : Option Tx → Effect Tx E × InsertQueue Tx E
  | none => (.ignored s.subs.length, { s with subs := s.subs ++ [⟨[], true⟩] })
  | some tx =>
    if s.maxSize ≤ s.queue.length then
      (.rejected s.subs.length, { s with subs := s.subs ++ [⟨[.queueFull], true⟩] })
    else
      (.entered s.subs.length tx,
        { s with
          queue := s.queue ++ [⟨some tx, s.subs.length⟩]
          subs := s.subs ++ [⟨[], false⟩]
          signalling := s.signalling ++ [s.subs.length] })

def closeAll (subs : List (Subscription E)) (items : List (InsertItem Tx)) : List (Subscription E) :=
  items.foldl (fun acc item => acc.modify item.sub fun sub => { sub with closed := true }) subs

def live (items : List (InsertItem Tx)) : List (Nat × Tx) :=
  items.filterMap fun item => item.tx.map fun tx => (item.sub, tx)

-- The loop pops everything, closes the channels of nil transactions and takes the
-- others as its batch.
def popAll (s : InsertQueue Tx E) : InsertQueue Tx E :=
  { s with
    queue := []
    subs := closeAll s.subs (s.queue.filter fun item => item.tx.isNone)
    loop := .inserting (live s.queue) }

-- A batch is answered by position. An answer of another length is a panic.
def insertTxs (s : InsertQueue Tx E) (batch : List (Nat × Tx)) (errs : List E) : InsertQueue Tx E :=
  if errs.length ≠ batch.length then
    { s with
      loop := .panicked s!"expected a {batch.length} errors from insert but instead got {errs.length}" }
  else { s with loop := .sending ((batch.map Prod.fst).zip errs) }

-- A send on a closed channel is a panic, and one on a full channel has to wait.
def send (s : InsertQueue Tx E) (sub : Nat) (err : E) (rest : List (Nat × E)) : Option (InsertQueue Tx E) :=
  match s.subs[sub]? with
  | none => none
  | some channel =>
    if channel.closed then some { s with loop := .panicked "send on closed channel" }
    else if channel.sent ≠ [] then none
    else
      some { s with
        subs := s.subs.modify sub fun channel => { channel with sent := [.result err] }
        loop := .closing sub rest }

def closeSub (s : InsertQueue Tx E) (sub : Nat) (rest : List (Nat × E)) : Option (InsertQueue Tx E) :=
  match s.subs[sub]? with
  | none => none
  | some channel =>
    if channel.closed then some { s with loop := .panicked "close of closed channel" }
    else
      some { s with
        subs := s.subs.modify sub fun channel => { channel with closed := true }
        loop := .sending rest }

def silently (s : InsertQueue Tx E) : Option (Effect Tx E × InsertQueue Tx E) :=
  some (.none, s)

-- A waiting loop takes a signal or leaves when the queue is closed, whichever it
-- sees. After a batch it leaves if the queue is closed and looks again otherwise.
def step (s : InsertQueue Tx E) : Event Tx E → Option (Effect Tx E × InsertQueue Tx E)
  | .push tx => some (s.push tx)
  | .signal sub =>
    if sub ∈ s.signalling then
      silently { s with signal := true, signalling := s.signalling.erase sub }
    else none
  | .close => if s.done then none else silently { s with done := true }
  | .look =>
    match s.loop with
    | .looking => silently { s with loop := if s.queue.length = 0 then .waiting else .popping }
    | _ => none
  | .wake =>
    match s.loop with
    | .waiting => if s.signal then silently { s with signal := false, loop := .looking } else none
    | _ => none
  | .quit =>
    match s.loop with
    | .waiting => if s.done then silently { s with loop := .returned } else none
    | _ => none
  | .pop =>
    match s.loop with
    | .popping => silently s.popAll
    | _ => none
  | .insert errs =>
    match s.loop with
    | .inserting batch => some (.inserted batch errs, s.insertTxs batch errs)
    | _ => none
  | .send =>
    match s.loop with
    | .sending ((sub, err) :: rest) => (s.send sub err rest).bind silently
    | _ => none
  | .closeSub =>
    match s.loop with
    | .closing sub rest => (s.closeSub sub rest).bind silently
    | _ => none
  | .next =>
    match s.loop with
    | .sending [] => silently { s with loop := if s.done then .returned else .looking }
    | _ => none

-- The record of a run, read for what entered the queue, what was handed to insert
-- and what insert answered.
section Record

abbrev Record (Tx E : Type) : Type := List (Event Tx E × Effect Tx E)

def enteredBy : Effect Tx E → List (Nat × Tx)
  | .entered sub tx => [(sub, tx)]
  | _ => []

def insertedBy : Effect Tx E → List (Nat × Tx)
  | .inserted batch _ => batch
  | _ => []

def answeredBy : Effect Tx E → List (Nat × E)
  | .inserted batch errs => if errs.length ≠ batch.length then [] else (batch.map Prod.fst).zip errs
  | _ => []

def entered (record : Record Tx E) : List (Nat × Tx) :=
  record.flatMap fun entry => enteredBy entry.2

def inserted (record : Record Tx E) : List (Nat × Tx) :=
  record.flatMap fun entry => insertedBy entry.2

def answered (record : Record Tx E) : List (Nat × E) :=
  record.flatMap fun entry => answeredBy entry.2

def rejected (record : Record Tx E) (sub : Nat) : Prop :=
  ∃ event, (event, .rejected sub) ∈ record

def ignored (record : Record Tx E) (sub : Nat) : Prop :=
  ∃ event, (event, .ignored sub) ∈ record

end Record

end InsertQueue

end PosChain.Mempool
