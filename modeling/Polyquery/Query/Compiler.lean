import Polyquery.Query.State
import Polyquery.Settings.Basic
import Polyquery.Sql.JsonPath
import Polyquery.Text.Search

/-! From queries to statements. A compiler belongs to one table of one handle: to every condition it adds the
equalities of the handle's scope and, on tables with soft deletion, the test for the rows that the query may
see; the filters of the caller stand in parentheses behind them, so that no `OR` leads around them. -/

namespace Polyquery

open Sql

/-- What the statements of one table depend on besides the query. -/
structure Compiler where
  dialect : Dialect
  scope : Row := []
  softDelete : Option SoftDelete := none
  maxInValues : Int := 1000
  tablePrefix : String := ""
  now : Value := .null

namespace Compiler

/-- A table with the prefix of the handle. -/
def table (c : Compiler) (name : String) : String := c.tablePrefix ++ name

mutual

/-- The condition of a filter; a group without conditions has none. -/
def condition? (c : Compiler) : Filter → Except Failure (Option Condition)
  | .basic column operator value _ => do
    let op ← Operator.ofValue (.text operator)
    pure (some (.ofComparison (Fragment.reference column) op value))
  | .isIn column values negated _ =>
    if c.maxInValues < values.length then
      .error (.invalid (.listTooLong column values.length c.maxInValues))
    else if values.isEmpty then pure (some (.constant negated))
    else pure (some (.isIn (Fragment.reference column) values negated))
  | .isNull column negated _ => pure (some (.isNull (Fragment.reference column) negated))
  | .between column low high negated _ => pure (some (.between (Fragment.reference column) low high negated))
  | .json path operator value _ => do
    let op ← Operator.ofValue (.text operator)
    let parts := Text.splitDots path
    let subject ← jsonExtract c.dialect (Fragment.reference (parts.headD "")) (JsonPath.validate parts.tail)
    pure (some (.ofComparison subject op value))
  | .group query _ => do
    let chain ← groupChain c query
    pure (if chain.isEmpty then none else some (.group chain))
  | .other value => .error (.uncompilable (.notAFilter value.kindName))

/-- The chain of the filters of a nested query. -/
def groupChain (c : Compiler) : QueryOf Filter → Except Failure Chain
  | ⟨_, _, filters, _, _, _, _, _, _, _, _⟩ => filterChain c filters

/-- The chain of filters, in which those without a condition leave no trace. -/
def filterChain (c : Compiler) : List Filter → Except Failure Chain
  | [] => pure []
  | filter :: rest => do
    let condition ← condition? c filter
    let chain ← filterChain c rest
    pure (match condition with
      | some condition => (filter.connective, condition) :: chain
      | none => chain)

end

/-- A column of an added condition; in a query with joins it is qualified unless it is already. -/
def addedColumn (qualifier : String) (column : String) : Fragment :=
  if qualifier ≠ "" && !column.toList.contains '.' then Fragment.reference (qualifier ++ "." ++ column)
  else Fragment.reference column

/-- A column of the scope. Behind a qualifier a tuple stands for its text, unless it has a dot as a member. -/
def scopeColumn (qualifier : String) (column : Value) : Except Failure Fragment :=
  match column with
  | .text name => .ok (addedColumn qualifier name)
  | .tuple members =>
    if qualifier = "" || members.any (·.same (.text ".")) then .error .noAttribute
    else .ok (Fragment.reference (qualifier ++ "." ++ column.plain))
  | v => if qualifier = "" then v.name.map Fragment.reference else .error .wrongType

/-- The equality of a column of the scope. -/
def scopeCondition (qualifier : String) : Value × Value → Except Failure Condition
  | (column, value) => (scopeColumn qualifier column).map fun subject => .ofComparison subject .equal value

/-- The test for the rows that a query may see. -/
def visibilityCondition? (s : SoftDelete) (visibility : Visibility) (qualifier : String) : Option Condition :=
  let column := addedColumn qualifier s.column
  match visibility, s.mode with
  | .withTrashed, _ => none
  | .onlyTrashed, .timestamp => some (.isNull column true)
  | .live, .timestamp => some (.isNull column false)
  | .onlyTrashed, .boolean => some (.compare column .equal s.deletedValue)
  | .live, .boolean =>
    some (.group [(.and, .isNull column false), (.or, .compare column .different s.deletedValue)])

/-- The conditions added to those of the caller. -/
def addedConditions (c : Compiler) (scope : Row) (visibility : Visibility) (qualifier : String) :
    Except Failure (List Condition) := do
  let equalities ← scope.mapM (scopeCondition qualifier)
  pure (equalities ++ (c.softDelete.bind fun s => visibilityCondition? s visibility qualifier).toList)

/-- The chain of added conditions and the caller's. More than one condition of the caller stands in
parentheses behind added ones. -/
def joinChains (added : List Condition) (own : Chain) : Chain :=
  match own with
  | [] => Chain.all added
  | [(_, condition)] => Chain.all added ++ [(.and, condition)]
  | own => if added.isEmpty then own else Chain.all added ++ [(.and, .group own)]

/-- The whole condition of a statement. -/
def whereChain (c : Compiler) (filters : List Filter) (visibility : Visibility) (scope : Row)
    (qualifier : String) : Except Failure Chain := do
  let added ← c.addedConditions scope visibility qualifier
  let own ← filterChain c filters
  pure (joinChains added own)

/-- The conditions on groups. -/
def havingClauses (clauses : List HavingTerm) : Except Failure (List Having) :=
  clauses.mapM fun clause => do
    let op ← Operator.ofValue (.text clause.operator)
    pure ⟨clause.expression, op, clause.value⟩

/-- A join with its tables prefixed and its operator read. -/
def joined (c : Compiler) (join : JoinTerm) : Except Failure Joined := do
  let op ← Operator.ofValue (.text join.operator)
  pure ⟨join.kind, c.table join.table, join.left, op, join.right⟩

/-- The projection of a list of columns; none at all means every column. -/
def projection (columns : List Value) : Except Failure (List Projected) :=
  if columns.isEmpty then pure [.everything] else columns.mapM Projected.ofValue

/-- The parts of a query, read in the order in which they are written. -/
def selection (c : Compiler) (q : Query) : Except Failure Selection := do
  let projection ← projection q.columns
  let joins ← q.joins.mapM c.joined
  let qualifier := if q.joins.isEmpty then "" else c.table q.table
  let condition ← c.whereChain q.filters q.visibility c.scope qualifier
  let groupBy ← q.groupBy.mapM Value.name
  let having ← havingClauses q.having
  pure {
    projection, joins, condition, groupBy, having
    table := c.table q.table
    orderBy := q.orderBy.map fun term => (term.column, term.direction)
    window := ⟨q.limit, q.offset⟩ }

/-- A query as a statement. -/
def select (c : Compiler) (q : Query) : Except Failure Statement := do
  pure ⟨c.dialect, .select, .select (← c.selection q)⟩

/-- Whether two rows have the same columns, in any order. -/
def sameColumns (a b : Row) : Bool := a.columns.all b.has && b.columns.all a.has

/-- The columns of rows to insert: those of the first row, which all others must share. -/
def insertColumns : List Row → Except Failure (List Value)
  | [] => .error (.invalid .noRows)
  | first :: rest =>
    if first.isEmpty then .error (.invalid .emptyRow)
    else match rest.zipIdx.find? fun (row, _) => !sameColumns first row with
      | some (row, index) => .error (.invalid (.rowShape (index + 1) first.columns row.columns))
      | none => .ok first.columns

/-- The columns to return, where the dialect can. -/
def returned (d : Dialect) (columns : Value) : Except Failure (List String) := do
  if d.hasReturning && columns.isTruthy then (← columns.members).mapM Value.name else pure []

/-- Rows to insert, each cell under its column. -/
def insertion (c : Compiler) (name : String) (rows : List Row) (returning : Value) :
    Except Failure Insertion := do
  let columns ← insertColumns rows
  let names ← columns.mapM Value.name
  let returning ← returned c.dialect returning
  pure {
    table := c.table name
    columns := names
    rows := rows.map fun row => columns.map fun column => row.cell column
    returning }

/-- An insertion as a statement; columns are returned where the dialect can. -/
def insert (c : Compiler) (name : String) (rows : List Row) (returning : Value := .tuple []) :
    Except Failure Statement := do
  pure ⟨c.dialect, .insert, .insert (← c.insertion name rows returning)⟩

/-- Whether a value is among those that a collection holds; a text holds the texts that occur in it, and a byte
string the byte strings and the bytes. -/
def isAmong (collection v : Value) : Except Failure Bool :=
  match collection, v with
  | .text whole, .text part => .ok (Text.contains whole.toList part.toList)
  | .bytes whole, .bytes part => .ok (Text.contains whole part)
  | .bytes whole, v => match v.integral? with
    | some n =>
      if 0 ≤ n && n < 256 then .ok (whole.any fun b => (b.toNat : Int) = n)
      else .error (.badValue "byte must be in range(0, 256)")
    | none => .error .wrongType
  | .text _, _ => .error .wrongType
  | collection, v => (collection.members).map fun members => members.any (·.same v)

/-- The members of a collection that are no columns of a row. -/
def missingFrom (row : Row) (columns : List Value) : Except Failure (List Value) :=
  if columns.all Value.isKey then .ok (columns.filter (!row.has ·)) else .error .wrongType

/-- The columns that are given to be updated, all of them columns of the row. -/
def givenColumns (row : Row) (update : Value) : Except Failure (List Value) := do
  let update ← update.members
  let unknown ← missingFrom row update
  if unknown.isEmpty then pure update else throw (.invalid (.missingUpdateColumns unknown))

/-- The columns that an upsert updates: the given ones, or all that are no conflict columns. -/
def upsertColumns (row : Row) (conflict update : Value) : Except Failure (List Value) := do
  if !conflict.isTruthy then throw (.invalid .noConflictColumns)
  let missing ← missingFrom row (← conflict.members)
  if !missing.isEmpty then throw (.invalid (.missingConflictColumns missing))
  let update ← if update.isNull then row.columns.filterM fun column => return !(← isAmong conflict column)
    else givenColumns row update
  if update.isEmpty then throw (.invalid .noUpdateColumns)
  pure update

/-- An upsert as one statement, in the dialects that have it. -/
def upsert (c : Compiler) (name : String) (row : Row) (conflict update : Value) : Except Failure Statement := do
  if c.dialect.hasUpsert then
    let update ← upsertColumns row conflict update
    let insertion ← c.insertion name [row] (.tuple [])
    let clause ← Conflict.ofValues c.dialect conflict (.list update)
    pure ⟨c.dialect, .upsert, .insert { insertion with conflict := some clause }⟩
  else .error (.unsupported "native upsert" c.dialect.name)

/-- The rows that a query reaches, as the condition of a change. -/
def reach (c : Compiler) (q : Query) (visibility : Visibility) : Except Failure Chain :=
  c.whereChain q.filters visibility c.scope ""

/-- New values for the rows that a query reaches. -/
def update (c : Compiler) (q : Query) (values : Row) (operation : Operation := .update) :
    Except Failure Statement :=
  if values.isEmpty then .error (.invalid .noAssignments)
  else do
    let assignments ← values.mapM fun (column, value) => return (← column.name, Assigned.value value)
    let condition ← c.reach q q.visibility
    pure ⟨c.dialect, operation, .update ⟨c.table q.table, assignments, condition⟩⟩

/-- The marker of a row deleted now. -/
def marker (c : Compiler) (s : SoftDelete) : Value :=
  match s.mode with
  | .timestamp => c.now
  | .boolean => s.deletedValue

/-- The removal of the rows that a query reaches, trashed ones among them unless it asks for fewer. -/
def remove (c : Compiler) (q : Query) (visibility : Visibility) : Except Failure Statement := do
  pure ⟨c.dialect, .delete, .delete ⟨c.table q.table, ← c.reach q visibility⟩⟩

/-- A deletion: with soft deletion the rows are marked, unless it is forced. -/
def delete (c : Compiler) (q : Query) (force : Bool) : Except Failure Statement :=
  match c.softDelete, force with
  | some s, false => c.update q [(.text s.column, c.marker s)] .delete
  | none, false => c.remove q q.visibility
  | _, true => c.remove q (if q.visibility = .live then .withTrashed else q.visibility)

/-- The return of deleted rows, on tables with soft deletion; only trashed rows unless the query says more. -/
def restore (c : Compiler) (q : Query) : Except Failure (Option Statement) :=
  match c.softDelete with
  | none => pure none
  | some s =>
    let visibility := if q.visibility = .live then .onlyTrashed else q.visibility
    (c.update { q with visibility } [(.text s.column, s.restoredValue)]).map some

/-- A document column with a value written at each path, one call around the other. -/
def documentExpression (c : Compiler) (column : String) (values : Row) : Except Failure Fragment :=
  let step (target : Fragment) (entry : Value × Value) : Except Failure Fragment := do
    let param ← jsonParam c.dialect entry.2
    let path ← entry.1.name
    jsonSet c.dialect target (JsonPath.validate (Text.splitDots path)) [.bind param]
  values.foldlM step [.name column]

/-- New values at paths of a document column. -/
def jsonUpdate (c : Compiler) (q : Query) (column : Value) (values : Row) : Except Failure Statement :=
  if values.isEmpty then .error (.invalid .noPaths)
  else do
    let column ← column.name
    let expression ← c.documentExpression column values
    let condition ← c.reach q q.visibility
    pure ⟨c.dialect, .update, .update ⟨c.table q.table, [(column, .expression expression)], condition⟩⟩

end Compiler

end Polyquery
