import Polyquery.Session.Database

/-! The way of a statement to its driver: it is recorded, policy may reject it, in test mode it ends there, the
layers pass it on, and the driver runs it between the statements that set its time limit and lift it. -/

namespace Polyquery

open Session

variable {σ : Type}

namespace Plan

/-- Carries out a plan; `next` runs the contexts that it lets through, and `own` those that it submits. -/
def run (own : Submission → Session σ Result) (next : Context → Session σ Result) : Plan → Session σ Result
  | finish outcome => settle outcome
  | proceed context resume => do
    let outcome ← attempt (next context)
    run own next (resume outcome)
  | submit submission resume => do
    let outcome ← attempt (own submission)
    run own next (resume outcome)
  | tell event rest => do
    emit event
    run own next rest
  | register number layer rest => do
    modify fun w => { w with layers := w.layers ++ [⟨number, layer⟩] }
    run own next rest
  | recollect resume => do
    run own next (resume (← get).journal)

end Plan

namespace Layer

/-- A context through layers, the first one outermost, with a core behind the last. -/
def through (own : Submission → Session σ Result) (core : Context → Session σ Result) :
    List Layer → Context → Session σ Result
  | [], context => core context
  | layer :: rest, context => (layer.plan context).run own (through own core rest)

end Layer

namespace Database

/-- Runs a statement that only tunes the connection. A failure of execution is logged, and the answer is whether
there was none. -/
def tune (db : Database σ) (link : Link) (sql : String) : Session σ Bool := do
  let attempted ← attempt do
    let statement ← db.prepare link sql
    discard (db.execute link statement [])
  match attempted with
  | .ok () => pure true
  | .error f =>
    if f.isExecution then do
      log .debug "timeout_tuning_failed" [("sql", .text sql), ("error", .text f.message)]
      pure false
    else throw f

/-- Sets the time limit of a statement; the answer is the statement that lifts it, if there is one to lift. -/
def applyTimeout (db : Database σ) (link : Link) (timeout : Option Int) : Session σ (Option String) := do
  match timeout with
  | none => pure none
  | some milliseconds =>
    if milliseconds = 0 then pure none
    else do
      let statements := (db.dialectOf link).timeout milliseconds
      match statements.apply with
      | none => pure statements.lift
      | some sql => if ← db.tune link sql then pure statements.lift else pure none

/-- Tells the hooks and the log of a statement that succeeded. -/
def report (c : Context) (r : Result) : Session σ Unit := do
  let w ← get
  if w.measures then emit (.measured c.operation c.table r.size)
  if w.reports then emit (.reported c.sql c.params)
  log .debug "statement_executed"
    [("operation", .text c.operation.name), ("table", .ofText? c.table), ("route", .ofText? c.route),
     ("row_count", r.size)]

/-- Logs a statement that the database refused. -/
def reportFailure (c : Context) (f : Failure) : Session σ Unit := do
  match f.severity? with
  | none => pure ()
  | some severity =>
    log .debug "statement_failed"
      [("operation", .text c.operation.name), ("table", .ofText? c.table),
       ("retryable", .bool (severity = .retryable)), ("error", .text f.message)]

/-- Runs a statement, logging when it is refused. -/
def perform (db : Database σ) (link : Link) (statement : Prepared) (c : Context) : Session σ Result := do
  match ← attempt (db.execute link statement c.params) with
  | .ok result => pure result
  | .error f => do
    reportFailure c f
    throw f

/-- The innermost step: the driver runs the statement within its time limit. -/
def core (db : Database σ) (link : Link) (c : Context) : Session σ Result := do
  let statement ← db.prepare link c.sql
  let lift ← db.applyTimeout link c.timeout
  let result ← ensuring (db.perform link statement c) do
    match lift with
    | some sql => discard (db.tune link sql)
    | none => pure ()
  report c result
  pure result

/-- Whether two rows of layers are the same. -/
def sameLayers (a b : List Layer) : Bool := a.map (·.number) = b.map (·.number)

/-- What is composed for a link: what it was last time, if the layers are still the registered ones. -/
def chainFor (link : Link) : Session σ Chained := do
  let w ← get
  match w.chains.find? fun chained => chained.link = link && sameLayers chained.layers w.layers with
  | some chained => pure chained
  | none => do
    let chained := ⟨link, w.layers⟩
    set { w with chains := chained :: w.chains.filter fun chained => chained.link ≠ link }
    pure chained

/-- A context through composed layers to the driver that they are composed over. -/
def follow (db : Database σ) (own : Submission → Session σ Result) (chained : Chained) : Context → Session σ Result :=
  Layer.through own (db.core chained.link) chained.layers

/-- Runs a submission through what `chain` answers for its link; what layers submit is run by `own`. -/
def submitThrough (db : Database σ) (chain : Link → Session σ Chained) (own : Submission → Session σ Result)
    (s : Submission) : Session σ Result := do
  modify fun w => { w with recorder := w.recorder.record s.context.sql s.context.params }
  let (asked, verdict) := Policy.check db.settings.rules (← get).guards s.readonly s.context
  asked.forM fun guard => emit (.guard guard.name)
  settle verdict
  if s.testMode then do
    log .debug "statement_dry_run"
      [("operation", .text s.context.operation.name), ("table", .ofText? s.context.table),
       ("sql", .text s.context.sql)]
    pure {}
  else do
    let chained ← chain s.link
    db.follow own chained s.context

/-- The failure of calls that lie too deep inside one another. -/
def tooDeep : Failure := .of (.foreign .runtime [.text "maximum recursion depth exceeded"])

/-- Runs a submission with room for so many more inside one another, which layers submit on the way. -/
def submitWithin (db : Database σ) (chain : Link → Session σ Chained) : Nat → Submission → Session σ Result
  | 0 => db.submitThrough chain fun _ => throw tooDeep
  | room + 1 => db.submitThrough chain (db.submitWithin chain room)

/-- Runs a context for a handle in the given modes. Its layers have no room to submit contexts of their own. -/
def runContext (db : Database σ) (link : Link) (readonly testMode : Bool) (c : Context) : Session σ Result :=
  db.submitWithin chainFor 0 ⟨link, readonly, testMode, c⟩

/-- The link of a statement: reads go to the replica if the handle sends them there, it exists, and no
transaction is open. -/
def linkFor (db : Database σ) (h : Handle) (operation : Operation) : Session σ Link := do
  let w ← get
  pure (if h.route = some "read" && db.replica.isSome && operation = .select && w.depth = 0 then .replica
    else .primary)

/-- Runs a text with its parameters for a handle. -/
def runText (db : Database σ) (h : Handle) (sql : String) (params : List Value) (operation : Operation)
    (table : Option String) (timeout : Option Int) : Session σ Result := do
  let link ← db.linkFor h operation
  db.runContext link h.readonly h.testMode { sql, params, operation, table, route := h.route, timeout }

/-- Runs a statement on a table for a handle. -/
def run (db : Database σ) (h : Handle) (s : Statement) (table : String) (timeout : Option Int) :
    Session σ Result :=
  db.runText h s.sql s.params s.operation (some table) timeout

/-- Runs a text of the caller's; neither scope nor soft deletion apply to it. -/
def raw (db : Database σ) (h : Handle) (sql : String) (params : List Value) : Session σ Result :=
  db.runText h sql params .raw none none

/-- The key of an inserted row: what its result says, unless the dialect has a query for it. There is none in
test mode. -/
def lastKey (db : Database σ) (h : Handle) (r : Result) : Session σ Value :=
  if h.testMode then pure .null
  else if !r.lastKey.isNull && db.dialect.keyQuery.isNone then pure r.lastKey
  else db.primary.lastKey db.dialect .primary

end Database

end Polyquery
