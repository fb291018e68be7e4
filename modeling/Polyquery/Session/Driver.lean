import Polyquery.Session.Connection

/-! Drivers. A handle reaches its database through a driver of the caller's, or through a connection for which
the library is the driver itself. -/

namespace Polyquery

/-- A driver of the caller's, as effects on the outside world. -/
structure Port (σ : Type) where
  prepare : String → Effect σ Unit
  execute : String → List Value → Effect σ Result
  lastKey : Effect σ Value
  start : Effect σ Unit
  commit : Effect σ Unit
  rollback : Effect σ Unit

/-- What a handle runs its statements through. -/
inductive Driver (σ : Type) where
  | port (port : Port σ)
  | connection (connection : Connection σ)

namespace Driver

open Session

variable {σ : Type}

/-- Prepares a statement; over a connection, prepared statements are kept in the cache. -/
def prepare (d : Dialect) (link : Link) (sql : String) : Driver σ → Session σ Prepared
  | port p => do
    emit (.driver link (.prepare sql))
    outside (p.prepare sql)
    pure ⟨sql⟩
  | connection _ => fun w =>
    let (outcome, cache) := w.cache.getOrCreate ⟨d.name, sql⟩ (.ok ⟨sql⟩)
    settle outcome { w with cache }

def execute (d : Dialect) (link : Link) (statement : Prepared) (params : List Value) :
    Driver σ → Session σ Result
  | port p => do
    emit (.driver link (.execute statement.sql params))
    outside (p.execute statement.sql params)
  | connection c => c.runOnCursor d link statement.sql params

/-- The first cell of a result, null when it has no rows. A row must have cells. -/
def firstCell (r : Result) : Except Failure Value :=
  match r.rows with
  | [] => .ok .null
  | [] :: _ => .error (.of .exhausted)
  | ((_, cell) :: _) :: _ => .ok cell

/-- The key generated last: what the connection remembers, or what the dialect's query for it returns. -/
def lastKey (d : Dialect) (link : Link) : Driver σ → Session σ Value
  | port p => do
    emit (.driver link .lastKey)
    outside p.lastKey
  | connection c => do
    match d.keyQuery with
    | none => return ((← get).link link).lastKey
    | some sql => do
      let statement ← prepare d link sql (connection c)
      settle (firstCell (← c.runOnCursor d link statement.sql []))

/-- Opens a transaction; over a connection it opens by itself with the next statement. -/
def start (link : Link) : Driver σ → Session σ Unit
  | port p => do
    emit (.driver link .start)
    outside p.start
    setInTransaction link true
  | connection _ => setInTransaction link true

def commit (d : Dialect) (link : Link) : Driver σ → Session σ Unit
  | port p => do
    emit (.driver link .commit)
    outside p.commit
    setInTransaction link false
  | connection c => Connection.endTransaction d link .commit "COMMIT" c.commit

def rollback (d : Dialect) (link : Link) : Driver σ → Session σ Unit
  | port p => do
    emit (.driver link .rollback)
    outside p.rollback
    setInTransaction link false
  | connection c => Connection.endTransaction d link .rollback "ROLLBACK" c.rollback

end Driver

end Polyquery
