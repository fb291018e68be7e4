import Polyquery.Session.ColumnCache
import Polyquery.Session.Event
import Polyquery.Session.Policy

/-! The state of a session and the computations on it. The outside world is a state of its own, changed only
through effects on it; everything else belongs to the handles that share the session. A computation that fails
keeps the state it has reached. -/

namespace Polyquery

/-- A context that is to run on a link in the given modes. -/
structure Submission where
  link : Link
  readonly : Bool := false
  testMode : Bool := false
  context : Context

/-- What a layer does with a context: it answers, or lets a context through and goes on from the outcome, as
often as it likes. On the way it may leave events, register further layers, submit contexts of its own, and go on from
all that has happened so far. -/
inductive Plan where
  | finish (outcome : Except Failure Result)
  | proceed (context : Context) (resume : Except Failure Result → Plan)
  | submit (submission : Submission) (resume : Except Failure Result → Plan)
  | tell (event : Event) (rest : Plan)
  | register (number : Nat) (layer : Context → Plan) (rest : Plan)
  | recollect (resume : List Event → Plan)

/-- A registered layer. Layers are told apart by their numbers. -/
structure Layer where
  number : Nat
  plan : Context → Plan

/-- What is known of one connection. -/
structure LinkState where
  inTransaction : Bool := false
  lastKey : Value := .null

/-- A prepared statement. -/
structure Prepared where
  sql : String
deriving DecidableEq

/-- Layers composed over the driver behind a link, as they stood when it was asked for last. -/
structure Chained where
  link : Link
  layers : List Layer

/-- The state of a session. -/
structure World (σ : Type) where
  outside : σ
  journal : List Event := []
  cache : StatementCache Prepared := {}
  primary : LinkState := {}
  replica : LinkState := {}
  further : Nat → LinkState := fun _ => {}
  depth : Nat := 0
  recorder : Recorder := {}
  columns : ColumnCache := {}
  layers : List Layer := []
  guards : List Guard := []
  reports : Bool := false
  measures : Bool := false
  chains : List Chained := []

/-- A computation on a session. -/
abbrev Session (σ : Type) := EStateM Failure (World σ)

/-- A computation on the outside world. -/
abbrev Effect (σ : Type) := EStateM Failure σ

namespace World

variable {σ : Type}

def link (w : World σ) : Link → LinkState
  | .primary => w.primary
  | .replica => w.replica
  | .further number => w.further number

def setLink (w : World σ) (link : Link) (state : LinkState) : World σ :=
  match link with
  | .primary => { w with primary := state }
  | .replica => { w with replica := state }
  | .further number => { w with further := fun other => if other = number then state else w.further other }

end World

namespace Session

variable {σ α : Type}

/-- The outcome of a computation, and the state it leaves. -/
def outcome (x : Session σ α) (w : World σ) : Except Failure α × World σ :=
  match x w with
  | .ok a w => (.ok a, w)
  | .error f w => (.error f, w)

/-- A computation that answers the outcome of another, and does not fail itself. -/
def attempt (x : Session σ α) : Session σ (Except Failure α) := fun w =>
  let (settled, w) := outcome x w
  .ok settled w

/-- A computation with a known outcome. -/
def settle : Except Failure α → Session σ α
  | .ok a => pure a
  | .error f => throw f

/-- A computation and what follows it on every way out; a failure of the latter takes the place of the
outcome. -/
def ensuring (x : Session σ α) (cleanup : Session σ Unit) : Session σ α := do
  let outcome ← attempt x
  cleanup
  settle outcome

/-- An effect on the outside world. -/
def outside (x : Effect σ α) : Session σ α := fun w =>
  match x w.outside with
  | .ok a s => .ok a { w with outside := s }
  | .error f s => .error f { w with outside := s }

/-- Adds an event to the journal. -/
def emit (event : Event) : Session σ Unit := modify fun w => { w with journal := w.journal ++ [event] }

/-- Adds a log record to the journal. -/
def log (level : LogLevel) (name : String) (about : Particulars) : Session σ Unit := emit (.logged level name about)

/-- Whether a connection has a transaction open. -/
def inTransaction (link : Link) : Session σ Bool := return ((← get).link link).inTransaction

def setInTransaction (link : Link) (on : Bool) : Session σ Unit :=
  modify fun w => w.setLink link { w.link link with inTransaction := on }

def setLastKey (link : Link) (key : Value) : Session σ Unit :=
  modify fun w => w.setLink link { w.link link with lastKey := key }

end Session

end Polyquery
