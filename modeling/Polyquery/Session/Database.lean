import Polyquery.Moment
import Polyquery.Query.Compiler
import Polyquery.Session.Driver
import Polyquery.Value.Document

/-! Databases: settings, dialect and drivers, and what the handles on them ask about columns. -/

namespace Polyquery

/-- Where a database looks for the columns of its tables. -/
inductive Catalogue (σ : Type) where
  /-- In the catalogue of the primary, by a query. -/
  | queried
  /-- In a list of the caller's. -/
  | listed (has : String → String → Effect σ Bool)
  /-- In the reflected columns of each table, of one schema if given. -/
  | reflected (schema : Option String) (columns : String → Option (List String))

/-- The message when columns are to be reflected and nothing is installed to do so. -/
def noReflection : String :=
  "SQLAlchemy is required for SqlAlchemyIntrospector. Install it with: pip install \"weaveql[sqlalchemy]\""

/-- All that handles on one database share and that does not change. Further drivers, each with its dialect, are for
statements that go the same way without a handle. The moment is the clock's answer, the chance the draw that spreads the
waits between attempts, and `sleep` what a wait of so many microseconds does to the outside world. -/
structure Database (σ : Type) where
  settings : Settings
  dialect : Dialect
  primary : Driver σ
  replica : Option (Driver σ) := none
  further : Nat → Dialect × Driver σ := fun _ => (dialect, primary)
  catalogue : Catalogue σ := .queried
  moment : Moment
  chance : Double
  sleep : Int → Effect σ Unit := fun _ => pure ()

/-- A handle: what it adds to every query, where it sends them, and its modes. -/
structure Handle where
  scope : Row := []
  route : Option String := none
  readonly : Bool := false
  testMode : Bool := false

namespace Dialect

/-- The query that returns a row exactly when a table has a column; it binds the table and the column. -/
def columnQuery (d : Dialect) : String :=
  let p := d.placeholder
  let start := "SELECT 1 AS present FROM "
  let standard :=
    start ++ "information_schema.columns WHERE table_name = " ++ p ++ " AND column_name = " ++ p
  match d with
  | sqlite => start ++ "pragma_table_info(" ++ p ++ ") WHERE name = " ++ p
  | postgres => standard ++ " AND table_schema = ANY(current_schemas(false))"
  | mysql => standard ++ " AND table_schema = DATABASE()"
  | sqlserver => start ++ "sys.columns WHERE object_id = OBJECT_ID(" ++ p ++ ") AND name = " ++ p
  | ansi => standard

end Dialect

namespace Database

open Session

variable {σ : Type}

/-- The driver behind a link; without a replica all links lead to the primary. -/
def driver (db : Database σ) : Link → Driver σ
  | .primary => db.primary
  | .replica => db.replica.getD db.primary
  | .further number => (db.further number).2

/-- The dialect of the driver behind a link. -/
def dialectOf (db : Database σ) : Link → Dialect
  | .primary | .replica => db.dialect
  | .further number => (db.further number).1

def prepare (db : Database σ) (link : Link) (sql : String) : Session σ Prepared :=
  (db.driver link).prepare (db.dialectOf link) link sql

def execute (db : Database σ) (link : Link) (statement : Prepared) (params : List Value) : Session σ Result :=
  (db.driver link).execute (db.dialectOf link) link statement params

/-- Whether a table has a column, as the catalogue says now. -/
def lookUpColumn (db : Database σ) (table column : String) : Session σ Bool := do
  match db.catalogue with
  | .queried => do
    let statement ← db.prepare .primary db.dialect.columnQuery
    let result ← db.execute .primary statement [.text table, .text column]
    pure (!result.rows.isEmpty)
  | .listed has => do
    emit (.columnLookup table column)
    outside (has table column)
  | .reflected schema columns => do
    emit (.reflection table schema)
    pure ((columns table).any (·.contains column))

/-- Whether a table has a column; the catalogue is asked once for each pair. -/
def tableHasColumn (db : Database σ) (table column : String) : Session σ Bool := do
  match (← get).columns.get? table column with
  | some found => pure found
  | none => do
    let found ← db.lookUpColumn table column
    modify fun w => { w with columns := w.columns.put table column found }
    pure found

/-- Whether a table, named without its prefix, has a column. -/
def hasColumn (db : Database σ) (table column : String) : Session σ Bool :=
  db.tableHasColumn (db.settings.tableName table) column

/-- Forgets what is known of the columns of one table, named with its prefix, or of all. -/
def forgetColumns (table : Option String) : Session σ Unit :=
  modify fun w => { w with columns := w.columns.invalidate table }

/-- Whether soft deletion applies to a table. -/
def softDeleteFor? (db : Database σ) (table : String) : Session σ (Option SoftDelete) := do
  let s := db.settings.softDelete
  if s.enabled && table ≠ "" then
    if ← db.hasColumn table s.column then pure (some s) else pure none
  else pure none

/-- The compiler for a table under a handle. -/
def compiler (db : Database σ) (h : Handle) (table : String) : Session σ Compiler := do
  let softDelete ← db.softDeleteFor? table
  pure {
    dialect := db.dialect
    scope := h.scope
    softDelete
    maxInValues := db.settings.maxInValues
    tablePrefix := db.settings.tablePrefix.getD ""
    now := .text db.moment.text }

/-- A handle's settings and state in short. -/
def overview (db : Database σ) (h : Handle) : Session σ Overview := do
  let w ← get
  let s := db.settings.softDelete
  let deletedValue ← settle s.deletedValue.documentData
  let restoredValue ← settle s.restoredValue.documentData
  pure {
    dialect := db.dialect.name
    tablePrefix := db.settings.tablePrefix
    readonly := h.readonly
    testMode := h.testMode
    scope := h.scope
    route := h.route
    hasReplica := db.replica.isSome
    inTransaction := 0 < w.depth
    softDelete := { s with deletedValue, restoredValue }
    maxInValues := db.settings.maxInValues
    layers := w.layers.length
    guards := w.guards.length }

end Database

end Polyquery
