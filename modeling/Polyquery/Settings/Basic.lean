import Polyquery.Number.Reader
import Polyquery.Value

/-! The settings of a database handle. -/

namespace Polyquery

/-- How a deleted row is marked. -/
inductive MarkerMode where
  | timestamp
  | boolean
deriving DecidableEq, Repr

def MarkerMode.name : MarkerMode → String
  | timestamp => "timestamp"
  | boolean => "boolean"

/-- Soft deletion: deleted rows stay in the table and carry a marker. It applies to tables that have the
marker's column. -/
structure SoftDelete where
  enabled : Bool := false
  column : String := "deleted_at"
  mode : MarkerMode := .timestamp
  deletedValue : Value := .int 1
  restoredValue : Value := .null

/-- How often a transaction is tried, and how long to wait in between. -/
structure Retry where
  attempts : Int := 3
  baseDelay : Double := .ofDecimal false 1 (-1)
  maxDelay : Double := .ofDecimal false 5 0
  jitter : Double := .ofDecimal false 2 (-1)
deriving DecidableEq

/-- Static rules on tables and operations; `*` among the denied operations stands for every table. -/
structure TableRules where
  allowed : List String := []
  denied : List String := []
  deniedOperations : List (String × List String) := []
deriving DecidableEq

namespace TableRules

/-- The operations denied on a table, those of every table among them. -/
def deniedFor (rules : TableRules) (table : String) : List String :=
  let entry (name : String) := ((rules.deniedOperations.find? fun (t, _) => t = name).map (·.2)).getD []
  entry "*" ++ entry table

/-- The operations denied on a table, each once and in order. -/
def namesDeniedFor (rules : TableRules) (table : String) : List String :=
  (rules.deniedFor table).eraseDups.mergeSort fun a b => decide (a ≤ b)

end TableRules

/-- The settings of a handle. -/
structure Settings where
  dialect : String := "sqlite"
  tablePrefix : Option String := none
  readonly : Bool := false
  testMode : Bool := false
  maxInValues : Int := 1000
  softDelete : SoftDelete := {}
  retry : Retry := {}
  cacheSize : Int := 256
  rules : TableRules := {}

namespace Settings

/-- A table name with the prefix of the handle. -/
def tableName (s : Settings) (table : String) : String := s.tablePrefix.getD "" ++ table

end Settings

end Polyquery
