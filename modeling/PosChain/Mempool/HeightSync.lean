import PosChain.Base.Bytes
import PosChain.Base.Run

namespace PosChain.Mempool

-- A store for each height, which the work on the height fills between its start
-- and its end. Work that comes after the end still reaches the store.
structure HeightSync (Store : Type) where
  currentHeight : Nat
  store : Store
  ended : Bool

namespace HeightSync

variable {Store : Type}

-- The initial height is done at once.
def new (startHeight : Nat) (store : Store) : HeightSync Store :=
  ⟨startHeight, store, true⟩

def perform (sync : HeightSync Store) (work : Store → Store) : HeightSync Store :=
  { sync with store := work sync.store }

def startNewHeight (sync : HeightSync Store) (reset : Store) (height : Nat) :
    Except String (HeightSync Store) :=
  if sync.ended then .ok ⟨height, reset, false⟩
  else .error s!"height {sync.currentHeight} not ended before starting new height {height}"

def endCurrentHeight (sync : HeightSync Store) : Except String (HeightSync Store) :=
  if sync.ended then .error s!"height {sync.currentHeight} already ended"
  else .ok { sync with ended := true }

end HeightSync

-- Why a call of GetStore returned: the height is the genesis height, the height was
-- ended, or the context of the caller expired or was cancelled.
inductive GetEnding where
  | genesis
  | completed
  | expired
  deriving DecidableEq

-- Where a call of GetStore stands. It looks at the current height under the lock, and
-- waits for that height to be left or completed. A store is named by its number.
inductive GetPhase where
  | looking
  | behind (seen : Nat)
  | atHeight (store : Nat)
  | returned (store : Option Nat) (ending : GetEnding)
  | panicked (text : String)
  deriving DecidableEq

structure GetCaller where
  height : Nat
  phase : GetPhase
  deriving DecidableEq

-- The stores of the heights that were left, the current one, and the calls of
-- GetStore. A store's channels are closed when its height is left and when it is ended.
structure SharedSync (Store : Type) where
  past : List (HeightSync Store)
  current : HeightSync Store
  callers : List GetCaller

namespace SharedSync

variable {Store : Type}

def new (startHeight : Nat) (store : Store) : SharedSync Store :=
  ⟨[], .new startHeight store, []⟩

def stores (s : SharedSync Store) : List (HeightSync Store) :=
  s.past ++ [s.current]

-- Every section under the lock is one step. So is the receipt on a channel.
inductive Event (Store : Type) where
  | startNewHeight (height : Nat) (reset : Store)
  | endCurrentHeight
  | perform (work : Store → Store)
  | getStore (height : Nat)
  | look (caller : Nat)
  | heightChanged (caller : Nat)
  | done (caller : Nat)
  | expire (caller : Nat)

inductive Effect (Store : Type) where
  | none
  | started (store : Nat) (reset : Store)
  | ended (store : Nat)
  | performed (store : Nat) (work : Store → Store)
  | looked (caller : Nat) (currentHeight : Nat)

def setPhase (s : SharedSync Store) (caller : Nat) (phase : GetPhase) : SharedSync Store :=
  { s with callers := s.callers.modify caller fun found => { found with phase := phase } }

def phaseAtLook (s : SharedSync Store) (height : Nat) : GetPhase :=
  if height < s.current.currentHeight then
    .panicked (s!"HeightSync.Get called for height {height}, but current height is " ++
      s!"{s.current.currentHeight}; cannot serve requests in the past")
  else if s.current.currentHeight = height then
    if s.current.currentHeight = 0 then .returned (some s.past.length) .genesis
    else .atHeight s.past.length
  else .behind s.past.length

-- A height that cannot be started or ended is a panic of the one who tries, and
-- changes nothing.
def step (s : SharedSync Store) : Event Store → Option (Effect Store × SharedSync Store)
  | .startNewHeight height reset =>
    match s.current.startNewHeight reset height with
    | .error _ => none
    | .ok next =>
      some (.started (s.past.length + 1) reset, { s with past := s.past ++ [s.current], current := next })
  | .endCurrentHeight =>
    match s.current.endCurrentHeight with
    | .error _ => none
    | .ok next => some (.ended s.past.length, { s with current := next })
  | .perform work => some (.performed s.past.length work, { s with current := s.current.perform work })
  | .getStore height => some (.none, { s with callers := s.callers ++ [⟨height, .looking⟩] })
  | .look caller =>
    match s.callers[caller]? with
    | some ⟨height, .looking⟩ =>
      some (.looked caller s.current.currentHeight, s.setPhase caller (s.phaseAtLook height))
    | _ => none
  | .heightChanged caller =>
    match s.callers[caller]? with
    | some ⟨_, .behind seen⟩ =>
      if seen < s.past.length then some (.none, s.setPhase caller .looking) else none
    | _ => none
  | .done caller =>
    match s.callers[caller]? with
    | some ⟨_, .atHeight store⟩ =>
      match s.stores[store]? with
      | some found =>
        if found.ended then some (.none, s.setPhase caller (.returned (some store) .completed))
        else none
      | none => none
    | _ => none
  | .expire caller =>
    match s.callers[caller]? with
    | some ⟨_, .behind _⟩ => some (.none, s.setPhase caller (.returned none .expired))
    | some ⟨_, .atHeight store⟩ => some (.none, s.setPhase caller (.returned (some store) .expired))
    | _ => none

abbrev Record (Store : Type) : Type := List (Event Store × Effect Store)

def workOn (store : Nat) : Effect Store → List (Store → Store)
  | .performed target work => if target = store then [work] else []
  | _ => []

def worksOn (record : Record Store) (store : Nat) : List (Store → Store) :=
  record.flatMap fun entry => workOn store entry.2

def fill (reset : Store) (works : List (Store → Store)) : Store :=
  works.foldl (fun acc work => work acc) reset

-- The first store is the one that the HeightSync was made with.
def MadeFrom (first : Store) (record : Record Store) (store : Nat) (reset : Store) : Prop :=
  store = 0 ∧ reset = first ∨ ∃ event, (event, .started store reset) ∈ record

end SharedSync

end PosChain.Mempool
