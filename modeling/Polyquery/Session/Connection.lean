import Polyquery.Session.World

/-! Statements on a connection. Outside transactions every statement is committed at once, or rolled back when
it fails; failures of the database become failures of execution, retryable when the dialect tells of a
conflict. -/

namespace Polyquery

/-- What a cursor reports of the statement it ran: the columns of a result, else the number of affected rows
and the generated key, as far as it knows them. -/
structure Reply where
  columns : List Value := []
  rowcount : Value := .null
  lastKey : Value := .null

/-- The number of affected rows: zero where none is told or it is below zero. -/
def Reply.affected (r : Reply) : Except Failure Value :=
  if !r.rowcount.isTruthy then .ok (.int 0)
  else match r.rowcount with
    | .bool b => .ok (.bool b)
    | .int n => .ok (.int (max n 0))
    | .real x => .ok (if x.less (.ofInt 0) then .int 0 else .real x)
    | v => .error (.illTyped ("'>' not supported between instances of 'int' and '" ++ v.kindName ++ "'"))

/-- A connection to a database, as effects on the outside world. -/
structure Connection (σ : Type) where
  cursor : Effect σ Unit
  execute : String → List Value → Effect σ Reply
  fetch : Effect σ (List (List Value))
  close : Effect σ Unit
  commit : Effect σ Unit
  rollback : Effect σ Unit

namespace Connection

open Session

variable {σ : Type}

/-- A failure of the database as a failure of execution. -/
def translated (d : Dialect) (sql : String) (f : Failure) : Failure :=
  .chained (.execution ⟨if d.isConflict f then .retryable else .fatal, f.message, some sql, f.databaseCode⟩) f

/-- The rows of a result, each cell under the name of its column. -/
def resultRows (columns : List Value) (data : List (List Value)) : Except Failure (List Row) :=
  data.mapM fun cells =>
    let entries := columns.zip cells
    match Value.firstKeyFault? (entries.map (·.1)) with
    | some kind => .error (.illTyped ("unhashable type: '" ++ kind ++ "'"))
    | none => .ok (Value.ofEntries entries)

/-- Runs a statement on an open cursor and commits it outside transactions. -/
def send (c : Connection σ) (link : Link) (sql : String) (params : List Value) : Session σ Result := do
  emit (.wire link (.execute sql params))
  let reply ← outside (c.execute sql params)
  let result ← if reply.columns.isEmpty then
      pure { rowcount := ← settle reply.affected : Result }
    else do
      let rows ← settle (resultRows reply.columns (← outside c.fetch))
      pure { rows, rowcount := .int rows.length : Result }
  let result := if reply.lastKey.isTruthy then { result with lastKey := reply.lastKey } else result
  if reply.lastKey.isTruthy then setLastKey link reply.lastKey
  unless ← inTransaction link do
    emit (.wire link .commit)
    outside c.commit
  pure result

/-- Rolls back after a failed statement; a failure to do so is only logged. -/
def undo (c : Connection σ) (link : Link) : Session σ Unit := do
  emit (.wire link .rollback)
  match ← attempt (outside c.rollback) with
  | .ok () => pure ()
  | .error f =>
    if f.isInterrupt then throw f
    else log .debug "autocommit_rollback_failed" [("error", .text f.message)]

/-- A statement on an open cursor, with its failures translated. -/
def run (d : Dialect) (c : Connection σ) (link : Link) (sql : String) (params : List Value) :
    Session σ Result := do
  match ← attempt (c.send link sql params) with
  | .ok result => pure result
  | .error f =>
    if f.isInterrupt then throw f
    else do
      unless ← inTransaction link do c.undo link
      throw (translated d sql f)

/-- A statement on a cursor of its own, which is closed in any case. -/
def runOnCursor (d : Dialect) (c : Connection σ) (link : Link) (sql : String) (params : List Value) :
    Session σ Result := do
  emit (.wire link .cursor)
  outside c.cursor
  ensuring (c.run d link sql params) do
    emit (.wire link .close)
    outside c.close

/-- The end of a transaction, after which none is open whatever happened. -/
def endTransaction (d : Dialect) (link : Link) (call : WireCall) (word : String) (effect : Effect σ Unit) :
    Session σ Unit := do
  emit (.wire link call)
  let outcome ← attempt (outside effect)
  setInTransaction link false
  match outcome with
  | .ok () => pure ()
  | .error f => throw (if f.isInterrupt then f else translated d word f)

end Connection

end Polyquery
