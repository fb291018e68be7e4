import Polyquery.Session.Database

/-! The stage of a rehearsal: an outside world in which everything that calls will find is written down before
they are made. Each call takes the next cue of its kind; behind the last cue all goes well, and comes back
empty. The caller's own names are kept here too, as no rollback touches them. -/

namespace Polyquery.Rehearsal

/-- A query under way, and the number of the handle it belongs to. -/
structure Draft where
  handle : Nat
  query : Query

/-- What the caller keeps: handles and queries by number, the names it gives them, and how often the work of
each transaction has been started. -/
structure Caller where
  handles : List Handle := []
  names : List (String × Nat) := []
  drafts : List Draft := []
  saved : List (String × Nat) := []
  starts : List (List Nat × Nat) := []

/-- Cues for calls that may fail. -/
abbrev Failures := List (Option Failure)

/-- What statements on the two links will find, how the other calls to the primary fail, and what remains to be
fetched. -/
structure Stage (α : Type) where
  primary : List (Except Failure α) := []
  replica : List (Except Failure α) := []
  cursors : Failures := []
  starts : Failures := []
  commits : Failures := []
  rollbacks : Failures := []
  nextKey : Value := .int 1
  columns : List (String × String) := []
  lookups : Failures := []
  unfetched : List (List Value) := []
  caller : Caller := {}

namespace Stage

variable {α : Type}

/-- The next cue of a row of failures. -/
def cue (get : Stage α → Failures) (set : Stage α → Failures → Stage α) : Effect (Stage α) Unit := do
  match get (← EStateM.get) with
  | [] => pure ()
  | failure :: rest => do
    modify fun s => set s rest
    match failure with
    | some f => throw f
    | none => pure ()

def cursor : Effect (Stage α) Unit := cue (·.cursors) fun s rest => { s with cursors := rest }

def start : Effect (Stage α) Unit := cue (·.starts) fun s rest => { s with starts := rest }

def commit : Effect (Stage α) Unit := cue (·.commits) fun s rest => { s with commits := rest }

def rollback : Effect (Stage α) Unit := cue (·.rollbacks) fun s rest => { s with rollbacks := rest }

/-- What the next statement on a link finds. -/
def turn (nothing : α) (link : Link) : Effect (Stage α) α := do
  let s ← EStateM.get
  let next (cues : List (Except Failure α)) (rest : List (Except Failure α) → Stage α) : Effect (Stage α) α :=
    match cues with
    | [] => pure nothing
    | outcome :: cues => do
      EStateM.set (rest cues)
      match outcome with
      | .ok a => pure a
      | .error f => throw f
  match link with
  | .primary => next s.primary fun rest => { s with primary := rest }
  | .replica => next s.replica fun rest => { s with replica := rest }
  | .further _ => pure nothing

/-- Whether the list of columns has one; the question may fail. -/
def hasColumn (table column : String) : Effect (Stage α) Bool := do
  cue (·.lookups) fun s rest => { s with lookups := rest }
  return (← EStateM.get).columns.contains (table, column)

/-- A call that only the primary has cues for. -/
def onPrimary (link : Link) (effect : Effect (Stage α) Unit) : Effect (Stage α) Unit :=
  match link with
  | .primary => effect
  | .replica | .further _ => pure ()

/-- The driver on a stage of results. -/
def port (link : Link) : Port (Stage Result) where
  prepare _ := pure ()
  execute _ _ := turn {} link
  lastKey := return (← EStateM.get).nextKey
  start := onPrimary link start
  commit := onPrimary link commit
  rollback := onPrimary link rollback

/-- The connection on a stage of replies, each with the rows that can be fetched after it. -/
def connection (link : Link) : Connection (Stage (Reply × List (List Value))) where
  cursor := onPrimary link cursor
  execute _ _ := do
    let (reply, rows) ← turn ({}, []) link
    modify fun s => { s with unfetched := rows }
    pure reply
  fetch := return (← EStateM.get).unfetched
  close := pure ()
  commit := onPrimary link commit
  rollback := onPrimary link rollback

end Stage

end Polyquery.Rehearsal
