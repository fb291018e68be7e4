import Polyquery.Query.Terminal
import Polyquery.Value.Pairs

/-! What a query is asked at its end, as data. -/

namespace Polyquery.Rehearsal

/-- A request that ends a query. -/
inductive Ending where
  | statement
  | state
  | rows
  | firstRow
  | existence
  | count
  | sum (column : Value)
  | average (column : Value)
  | least (column : Value)
  | greatest (column : Value)
  | pluck (column : Value) (key : Value)
  | page (cursor key : Value)
  | insert (row : Row) (key : Value)
  | insertMany (rows : List Row)
  | insertGet (row : Row) (columns key : Value)
  | update (values : Row)
  | delete (forced : Bool)
  | restore
  | upsert (row : Row) (conflict update : Value)
  | jsonUpdate (column : Value) (values : Row)

namespace Ending

variable {m : Type → Type} [Monad m] [MonadExceptOf Failure m]

/-- A row as a value, null where there is none. -/
def rowValue : Option Row → Value
  | some row => .map row
  | none => .null

/-- The answer of a query to a request. -/
def answer (db : Access m) (q : Query) : Ending → m Answer
  | statement => return .statement (← q.toStatement db)
  | state => return .query q
  | rows => return .rows (← q.get db)
  | firstRow => return .value (rowValue (← q.first db))
  | existence => return .value (.bool (← q.exists? db))
  | count => return .value (.int (← q.count db))
  | sum column => return .value (← q.sum db column)
  | average column => return .value (← q.aggregateOf db "AVG" column "a")
  | least column => return .value (← q.aggregateOf db "MIN" column "m")
  | greatest column => return .value (← q.aggregateOf db "MAX" column "m")
  | pluck column .null => return .values (← q.pluck db column)
  | pluck column key => return .value (.map (← q.pluckBy db column key))
  | page cursor key => return .page (← q.keysetPage db cursor key)
  | insert row key => return .value (← q.insert db row key)
  | insertMany given => return .value (← q.insertMany db given)
  | insertGet row columns key => return .value (rowValue (← q.insertGet db row columns key))
  | update values => return .value (← q.update db values)
  | delete forced => return .value (← q.delete db forced)
  | restore => return .value (← q.restore db)
  | upsert row conflict columns => return .value (← q.upsert db row conflict columns)
  | jsonUpdate column values => return .value (← q.jsonUpdate db column values)

/-- The names of requests. -/
def names : List String :=
  ["to_sql", "state", "get", "first", "exists", "count", "sum", "avg", "min", "max", "pluck", "get_keyset",
   "insert", "insert_many", "insert_get", "update", "delete", "force_delete", "restore", "upsert", "json_set"]

/-- The request of a name with values. -/
def ofCall (name : String) (arguments : List Value) : Except Failure Ending :=
  match name, arguments with
  | "to_sql", [] => .ok statement
  | "state", _ => .ok state
  | "get", [] => .ok rows
  | "first", [] => .ok firstRow
  | "exists", [] => .ok existence
  | "count", [] => .ok count
  | "sum", [column] => .ok (sum column)
  | "avg", [column] => .ok (average column)
  | "min", [column] => .ok (least column)
  | "max", [column] => .ok (greatest column)
  | "pluck", [column] => .ok (pluck column .null)
  | "pluck", [column, key] => .ok (pluck column key)
  | "get_keyset", [cursor, key] => .ok (page cursor key)
  | "insert", [row] => (Row.ofPairs row).map (insert · .null)
  | "insert", [row, key] => (Row.ofPairs row).map (insert · key)
  | "insert_many", [given] => (Row.allOfPairs given).map insertMany
  | "insert_get", [row] => (Row.ofPairs row).map (insertGet · Query.everyColumn (.text Query.defaultKey))
  | "insert_get", [row, columns] => (Row.ofPairs row).map (insertGet · columns (.text Query.defaultKey))
  | "insert_get", [row, columns, key] => (Row.ofPairs row).map (insertGet · columns key)
  | "update", [values] => (Row.ofPairs values).map update
  | "delete", [] => .ok (delete false)
  | "force_delete", [] => .ok (delete true)
  | "restore", [] => .ok restore
  | "upsert", [row, conflict] => (Row.ofPairs row).map (upsert · conflict .null)
  | "upsert", [row, conflict, columns] => (Row.ofPairs row).map (upsert · conflict columns)
  | "json_set", [column, values] => (Row.ofPairs values).map (jsonUpdate column ·)
  | name, _ => .error (if names.contains name then .wrongType else .noAttribute)

end Ending

end Polyquery.Rehearsal
