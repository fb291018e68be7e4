import Polyquery.Query.Builder
import Polyquery.Query.Compiler
import Polyquery.Query.ResultName
import Polyquery.Session.Event

/-! What a query can be asked to do. Each program compiles statements and runs them through some access to a
database; it never changes the query itself. -/

namespace Polyquery

/-- An access to a database, from some kind of computation. -/
structure Access (m : Type → Type) where
  dialect : Dialect
  compiler : String → m Compiler
  hasColumn : String → String → m Bool
  run : Statement → String → Option Int → m Result
  lastKey : Result → m Value
  transaction : m Value → m Value

namespace Query

variable {m : Type → Type} [Monad m] [MonadExceptOf Failure m]

/-- A computation with a known outcome. -/
def known {α : Type} : Except Failure α → m α
  | .ok a => pure a
  | .error f => throw f

/-- Compiles for the query's table and runs. -/
def perform (db : Access m) (q : Query) (compile : Compiler → Except Failure Statement) : m Result := do
  let compiler ← db.compiler q.table
  db.run (← known (compile compiler)) q.table q.timeout

/-- The statement that reads the rows of a query. -/
def toStatement (db : Access m) (q : Query) : m Statement := do
  let compiler ← db.compiler q.table
  known (compiler.select q)

/-- The rows of a query. -/
def get (db : Access m) (q : Query) : m (List Row) := return (← perform db q (·.select q)).rows

/-- The first row of a query, if it has rows. -/
def first (db : Access m) (q : Query) : m (Option Row) := return (← get db { q with limit := some 1 }).head?

/-- An aggregate over the rows of a query, null when no row comes back. -/
def aggregate (db : Access m) (q : Query) (expression label : String) : m Value := do
  let columns := [Value.text (expression ++ " AS " ++ label)]
  let rows ← get db { q with columns, orderBy := [], limit := none, offset := none }
  pure ((rows.head?.map (Row.get label)).getD .null)

/-- The number of rows of a query. -/
def count (db : Access m) (q : Query) : m Int := do
  let value ← aggregate db q "COUNT(1)" "c"
  known value.toCount

/-- Whether a query has rows. -/
def exists? (db : Access m) (q : Query) : m Bool := return 0 < (← count db q)

/-- An aggregate of one column. -/
def aggregateOf (db : Access m) (q : Query) (function : String) (column : Value) (label : String) : m Value := do
  let ref ← known column.name
  let argument := (Sql.Fragment.reference ref).text db.dialect
  aggregate db q (function ++ "(" ++ argument ++ ")") label

/-- The sum of a column, zero when there is none. -/
def sum (db : Access m) (q : Query) (column : Value) : m Value := do
  let value ← aggregateOf db q "SUM" column "s"
  pure (if value.isNull then .int 0 else value)

/-- The cells of one column. -/
def pluck (db : Access m) (q : Query) (column : Value) : m (List Value) := do
  let rows ← get db { q with columns := [column] }
  let name ← known (ResultName.ofValue column)
  pure (rows.map (Row.get name))

/-- One more entry of a mapping from one column to another. -/
def pluckRow (name keyName : String) (done : List (Value × Value)) (row : Row) :
    Except Failure (List (Value × Value)) :=
  match Value.field? keyName row with
  | none => .error (.of (.missingKey (.text keyName)))
  | some key => if key.isKey then .ok (Value.putEntry key (row.get name) done) else .error .wrongType

/-- The cells of one column under those of another. -/
def pluckBy (db : Access m) (q : Query) (column key : Value) : m (List (Value × Value)) := do
  let rows ← get db { q with columns := [column, key] }
  let name ← known (ResultName.ofValue column)
  let keyName ← known (ResultName.ofValue key)
  known (rows.foldlM (pluckRow name keyName) [])

/-- The query for the page after a cursor: ordered by the key, and bounded by the cursor in the direction of the
order. Several filters are put in parentheses, so that the bound holds beside all of them. -/
def keysetQuery (q : Query) (cursor : Value) (key : String) : Query :=
  let direction := q.directionOf key
  let ordered : Query :=
    if q.orderBy.any (·.column = key) then q else { q with orderBy := ⟨key, direction⟩ :: q.orderBy }
  if cursor.isNull then ordered
  else
    let filters := if q.filters.length > 1 then [Filter.grouped q.filters .and] else q.filters
    let op := if direction = .ascending then ">" else "<"
    { ordered with filters := filters ++ [.basic key op cursor .and] }

/-- The cursor behind a page: the key of its last row when the page is full. -/
def nextCursor (q : Query) (key : String) (rows : List Row) : Value :=
  match rows.getLast?, q.limit with
  | some last, some limit => if limit ≤ rows.length then last.get (ResultName.ofColumn key) else .null
  | _, _ => .null

/-- The page of a query after a cursor, in the order of a key that its rows carry. -/
def keysetPage (db : Access m) (q : Query) (cursor key : Value) : m Page := do
  let projected ← known (ResultName.projects (.list q.columns) key)
  let key ← known key.name
  if projected then
    let page := keysetQuery q cursor key
    let rows ← get db page
    pure ⟨rows, nextCursor page key rows⟩
  else throw (.invalid (.unselectedKey key q.columns))

/-- The name of the generated key, where none is given. -/
def defaultKey : String := "id"

/-- The key that an insertion asks back: the given one, else the usual one where columns can be returned and
the table has it. -/
def keyFor (db : Access m) (q : Query) (key : Value) : m Value := do
  if key.isNull && db.dialect.hasReturning then
    if ← db.hasColumn q.table defaultKey then pure (.text defaultKey) else pure .null
  else pure key

/-- Inserts a row; the answer is its generated key. A key that counts as false is none. -/
def insert (db : Access m) (q : Query) (row : Row) (key : Value) : m Value := do
  let key ← keyFor db q key
  let result ← perform db q fun c => c.insert q.table [row] (.tuple (if key.isTruthy then [key] else []))
  match key.isTruthy, result.rows with
  | true, row :: _ => if key.isKey then pure (row.cell key) else throw .wrongType
  | _, _ => db.lastKey result

/-- Inserts rows in one statement; the answer is their number. -/
def insertMany (db : Access m) (q : Query) (rows : List Row) : m Value := do
  if rows.isEmpty then pure (.int 0) else return (← perform db q (·.insert q.table rows)).rowcount

/-- The columns that are read back where none are given. -/
def everyColumn : Value := .tuple [.text "*"]

/-- Inserts a row and reads it back as it was stored. -/
def insertGet (db : Access m) (q : Query) (row : Row) (columns key : Value) : m (Option Row) := do
  if db.dialect.hasReturning then
    return (← perform db q (·.insert q.table [row] columns)).rows.head?
  else
    let id ← insert db q row key
    if id.isNull then pure none
    else
      let columns ← known columns.members
      let back ← known (addAll
        [.select columns, .see .withTrashed, .compare .and key (.text "=") (some id)] { table := q.table })
      first db back

/-- Updates the rows of a query; the answer is their number. -/
def update (db : Access m) (q : Query) (values : Row) : m Value :=
  return (← perform db q (·.update q values)).rowcount

/-- Deletes the rows of a query, softly where that applies and it is not forced. -/
def delete (db : Access m) (q : Query) (force : Bool) : m Value :=
  return (← perform db q (·.delete q force)).rowcount

/-- Takes back the soft deletion of the rows of a query. -/
def restore (db : Access m) (q : Query) : m Value := do
  let compiler ← db.compiler q.table
  match ← known (compiler.restore q) with
  | none => pure (.int 0)
  | some statement => return (← db.run statement q.table q.timeout).rowcount

/-- Writes values at paths of a document column. -/
def jsonUpdate (db : Access m) (q : Query) (column : Value) (values : Row) : m Value :=
  return (← perform db q (·.jsonUpdate q column values)).rowcount

/-- The query for the row that an upsert may find. -/
def conflictQuery (table : String) (row : Row) (conflict : List Value) : Except Failure Query := do
  let filters ← conflict.mapM fun column =>
    return Filter.basic (← textField "column" column) "=" (row.cell column) .and
  pure { table, filters, visibility := .withTrashed }

/-- Whether a counting query has counted a row. -/
def hasCounted (r : Result) : Except Failure Bool :=
  match r.rows with
  | [] => .ok false
  | row :: _ => (Row.get "c" row).toCount.map fun n => decide (0 < n)

/-- An upsert in two steps: a row that is there is updated, and inserted otherwise. -/
def upsertInSteps (db : Access m) (q : Query) (row : Row) (conflict columns : List Value) : m Value := do
  let compiler ← db.compiler q.table
  let found ← known (conflictQuery q.table row conflict)
  let counting ← known (compiler.select { found with columns := [.text "COUNT(1) AS c"] })
  let counted ← db.run counting q.table q.timeout
  let statement ← if ← known (hasCounted counted) then
      known (compiler.update found (Value.ofEntries (columns.map fun c => (c, row.cell c))) .upsert)
    else
      known ((compiler.insert q.table [row]).map fun s => { s with operation := .upsert })
  return (← db.run statement q.table q.timeout).rowcount

/-- Inserts a row, or updates the one that shares its conflict columns: in one statement where the dialect can,
else in steps inside a transaction. -/
def upsert (db : Access m) (q : Query) (row : Row) (conflict update : Value) : m Value := do
  let columns ← known (Compiler.upsertColumns row conflict update)
  if db.dialect.hasUpsert then
    return (← perform db q (·.upsert q.table row conflict update)).rowcount
  else
    let conflict ← known conflict.members
    db.transaction (upsertInSteps db q row conflict columns)

end Query

end Polyquery
