import Polyquery.Rehearsal.Ending
import Polyquery.Rehearsal.Part

/-! The steps of a rehearsal, as data. -/

namespace Polyquery.Rehearsal

/-- Where a query starts: at a table, or at a saved query or a copy of it. -/
inductive Start where
  | table (name : Value)
  | saved (name : String) (copied : Bool)

/-- A query that is started, saved under a name, told its clauses, and asked a request, if that can be made. -/
structure QueryPlan where
  start : Start
  save : Option String := none
  clauses : List Clause := []
  ending : Except Failure (Option Ending) := .ok none

/-- What a step asks of a handle. -/
inductive Request where
  | withScope (scope : Row) (name : String)
  | routed (route : Option String) (name : String)
  | setReadonly (on : Bool)
  | setTestMode (on : Bool)
  | last
  | history
  | clearHistory
  | addLayer (part : LayerPart)
  | addGuard (guard : Guard)
  | setReports (on : Bool)
  | setMeasures (on : Bool)
  | hasColumn (table column : String)
  | forgetColumns (table : Option String)
  | overview
  | modes
  | settings
  | driverState
  | raw (sql : String) (params : Value)
  | lastKey (result : Result)
  | isRetryable (failure : Failure)
  | fail (failure : Failure)
  | query (plan : QueryPlan)

/-- A step. The work of a transaction consists of steps; behind them each start of the work takes the cue of its
number. A failure of a caught step is noted, and the work goes on. -/
inductive Step where
  | request (handle : String) (caught : Bool) (request : Request)
  | transaction (handle : String) (caught : Bool) (attempts : Value) (work : List Step)
      (failures : List (Option Failure)) (answer : Value)

/-- Whether the failure of a step is caught. -/
def Step.isCaught : Step → Bool
  | request _ caught _ => caught
  | transaction _ caught _ _ _ _ => caught

end Polyquery.Rehearsal
