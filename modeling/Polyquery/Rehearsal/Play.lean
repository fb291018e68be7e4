import Polyquery.Rehearsal.Stage
import Polyquery.Rehearsal.Step
import Polyquery.Session.Access
import Polyquery.Session.Opening

/-! Playing a rehearsal: the steps are taken one by one, and each leaves its outcome and the events on the way. -/

namespace Polyquery.Rehearsal

open Session

variable {α : Type}

/-- A computation on a session over a stage. -/
abbrev Playing (α : Type) := Session (Stage α)

/-- What the caller keeps. -/
def caller : Playing α Caller := return (← get).outside.caller

def modifyCaller (f : Caller → Caller) : Playing α Unit :=
  modify fun w => { w with outside := { w.outside with caller := f w.outside.caller } }

/-- The number under a name. -/
def numbered (name : String) (numbers : List (String × Nat)) : Playing α Nat :=
  match Association.find? name numbers with
  | some number => pure number
  | none => throw (.of (.missingKey (.text name)))

/-- The handle of a name, with its number. -/
def handleOf (name : String) : Playing α (Nat × Handle) := do
  let number ← numbered name (← caller).names
  pure (number, (← caller).handles.getD number {})

/-- Names a number. -/
def nameHandle (name : String) (number : Nat) : Playing α Unit :=
  modifyCaller fun c => { c with names := Association.assign name number c.names }

/-- A new handle under a name. -/
def addHandle (name : String) (h : Handle) : Playing α Unit := do
  let number := (← caller).handles.length
  modifyCaller fun c => { c with handles := c.handles ++ [h] }
  nameHandle name number

/-- A changed handle in its place. -/
def setHandle (number : Nat) (h : Handle) : Playing α Unit :=
  modifyCaller fun c => { c with handles := c.handles.set number h }

/-- A new query under way. -/
def addDraft (draft : Draft) : Playing α Nat := do
  let number := (← caller).drafts.length
  modifyCaller fun c => { c with drafts := c.drafts ++ [draft] }
  pure number

def draft (number : Nat) : Playing α Draft := return (← caller).drafts.getD number ⟨0, {}⟩

/-- The query with which a plan starts. A saved one belongs to the handle it was started on. -/
def startQuery (handle : Nat) : Start → Playing α Nat
  | .table name => do addDraft ⟨handle, ← settle (Query.onTable name)⟩
  | .saved name copied => do
    let number ← numbered name (← caller).saved
    if copied then addDraft (← draft number) else pure number

/-- Tells a query one more clause. -/
def tellClause (number : Nat) (clause : Clause) : Playing α Unit := do
  let current ← draft number
  let query ← Query.known (Query.add clause current.query)
  modifyCaller fun c => { c with drafts := c.drafts.set number { current with query } }

/-- Carries out the plan of a query. -/
def playQuery (db : Database (Stage α)) (handle : Nat) (plan : QueryPlan) : Playing α Answer := do
  let number ← startQuery handle plan.start
  match plan.save with
  | some name => modifyCaller fun c => { c with saved := Association.assign name number c.saved }
  | none => pure ()
  plan.clauses.forM (tellClause number)
  match ← settle plan.ending with
  | none => pure .nothing
  | some ending => do
    let current ← draft number
    let h := (← caller).handles.getD current.handle {}
    ending.answer (db.access h) current.query

/-- The state of the driver of the primary, and of its statement cache if the library is the driver. -/
def driverState (db : Database (Stage α)) : Playing α Answer := do
  let w ← get
  pure (.driverState w.primary.inTransaction (match db.primary with
    | .port _ => none
    | .connection _ => some (w.cache.hits, w.cache.misses, w.cache.size)))

/-- The answer of a handle to a request. -/
def respond (db : Database (Stage α)) (number : Nat) (h : Handle) : Request → Playing α Answer
  | .withScope scope name => do addHandle name (h.withScope scope); pure .nothing
  | .routed route name => do addHandle name (h.routed route); pure .nothing
  | .setReadonly on => do setHandle number { h with readonly := on }; pure .nothing
  | .setTestMode on => do setHandle number { h with testMode := on }; pure .nothing
  | .last => return .recorded (← get).recorder.last?
  | .history => return .history (← get).recorder.history
  | .clearHistory => do modify fun w => { w with recorder := w.recorder.clear }; pure .nothing
  | .addLayer part => do
    modify fun w => { w with layers := w.layers ++ [⟨w.layers.length, part.plan⟩] }
    pure .nothing
  | .addGuard guard => do modify fun w => { w with guards := w.guards ++ [guard] }; pure .nothing
  | .setReports on => do modify fun w => { w with reports := on }; pure .nothing
  | .setMeasures on => do modify fun w => { w with measures := on }; pure .nothing
  | .hasColumn table column => return .value (.bool (← db.hasColumn table column))
  | .forgetColumns table => do Database.forgetColumns table; pure .nothing
  | .overview => return .overview (← db.overview h)
  | .modes => pure (.modes db.dialect.name h.readonly h.testMode h.scope)
  | .settings => pure (.settings db.settings)
  | .driverState => driverState db
  | .raw sql params => do return .result (← db.raw h sql (← settle params.members))
  | .lastKey result => return .value (← db.lastKey h result)
  | .isRetryable f => pure (.value (.bool (db.isRetryable f)))
  | .fail f => throw f
  | .query plan => playQuery db number plan

/-- The name of the handle that is passed to the work of a transaction. -/
def workName : String := "tx"

/-- Counts one more start of the work at a place. -/
def countStart (place : List Nat) : Playing α Nat := do
  let counted := ((← caller).starts.find? fun entry => entry.1 = place).map (·.2)
  let number := counted.getD 0 + 1
  modifyCaller fun c => { c with
    starts := (place, number) :: c.starts.filter fun entry => entry.1 ≠ place }
  pure number

/-- Work with the name of the passed handle set for its time. -/
def withWorkName (number : Nat) (work : Playing α Unit) : Playing α Unit := do
  let before := Association.find? workName (← caller).names
  nameHandle workName number
  ensuring work do
    modifyCaller fun c => { c with
      names := match before with
        | some number => Association.assign workName number c.names
        | none => c.names.filter fun entry => entry.1 ≠ workName }

mutual

/-- The answer to a step at a place. -/
def playStep (db : Database (Stage α)) (place : List Nat) : Step → Playing α Answer
  | .request name _ request => do
    let (number, h) ← handleOf name
    respond db number h request
  | .transaction name _ attempts work failures answer => do
    let (number, h) ← handleOf name
    db.transaction h.testMode attempts do
      let started ← countStart place
      emit (.attempt started)
      withWorkName number (playWork db place 0 work)
      match failures[started - 1]? with
      | some (some f) => throw f
      | _ => pure (.value answer)

/-- The steps of a unit of work, each noted with its outcome. -/
def playWork (db : Database (Stage α)) (place : List Nat) (position : Nat) : List Step → Playing α Unit
  | [] => pure ()
  | step :: rest => do
    match ← attempt (playStep db (position :: place) step) with
    | .ok answer => emit (.answered (.ok answer))
    | .error f => if step.isCaught then emit (.answered (.error f)) else throw f
    playWork db place (position + 1) rest

end

/-- The outcome of a step and the events on the way. -/
structure Scene where
  outcome : Except Failure Answer
  events : List Event

/-- The scenes of steps, the first one at a position. -/
def scenes (db : Database (Stage α)) : Nat → List Step → World (Stage α) → List Scene
  | _, [], _ => []
  | position, step :: rest, w =>
    let (outcome, w) := outcome (playStep db [position] step) { w with journal := [] }
    ⟨outcome, w.journal⟩ :: scenes db (position + 1) rest w

/-- The name of the first handle. -/
def firstName : String := "db"

/-- The scenes of steps on a stage, with a first handle over the settings of the database. -/
def play (db : Database (Stage α)) (stage : Stage α) (steps : List Step) : List Scene :=
  let caller : Caller := { handles := [db.settings.handle], names := [(firstName, 0)] }
  scenes db 0 steps (db.settings.world { stage with caller })

end Polyquery.Rehearsal
