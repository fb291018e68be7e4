import Polyquery.Query.Report
import Polyquery.Session.Event
import Polyquery.Settings.Report

/-! What a session tells: the answers to its calls, and its events. -/

namespace Polyquery

open Report

namespace Context

def report (c : Context) : Report :=
  fields [("sql", text c.sql), ("params", values c.params), ("operation", text c.operation.name),
    ("table", text? c.table), ("route", text? c.route), ("timeout_ms", number? c.timeout),
    ("meta", row c.notes), ("is_write", flag c.isWrite)]

end Context

namespace Result

def report (r : Result) : Report :=
  fields [("rows", items (r.rows.map row)), ("rowcount", value r.rowcount),
    ("last_insert_id", value r.lastKey)]

end Result

namespace Recorded

def report (r : Recorded) : Report := items [text r.sql, values r.params]

/-- The latest statement, if there is one. -/
def reportLast (r : Option Recorded) : List (String × Report) :=
  [("sql", text? (r.map (·.sql))), ("params", values ((r.map (·.params)).getD []))]

end Recorded

namespace Overview

def report (o : Overview) : Report :=
  fields [("dialect", text o.dialect), ("prefix", text? o.tablePrefix), ("readonly", flag o.readonly),
    ("test_mode", flag o.testMode), ("scope", row o.scope), ("route", text? o.route),
    ("read_replica", flag o.hasReplica), ("in_transaction", flag o.inTransaction),
    ("soft_delete", o.softDelete.report), ("max_in_params", number o.maxInValues),
    ("middleware", number o.layers), ("policies", number o.guards)]

end Overview

namespace Answer

/-- The numbers of a statement cache. -/
def reportCache : Option (Nat × Nat × Nat) → List (String × Report)
  | some (hits, misses, size) => [("hits", number hits), ("misses", number misses), ("len", number size)]
  | none => []

def report : Answer → Report
  | nothing => Report.nothing
  | value v => .value v
  | values vs => .values vs
  | rows rs => items (rs.map row)
  | page p => fields [("data", items (p.rows.map row)), ("next_cursor", .value p.next)]
  | result r => r.report
  | statement s => s.report
  | query q => q.report
  | recorded last => fields (Recorded.reportLast last)
  | history all => items (all.map Recorded.report)
  | overview o => o.report
  | modes dialect readonly testMode scope =>
    fields [("dialect", text dialect), ("readonly", flag readonly), ("test_mode", flag testMode),
      ("scope", row scope)]
  | settings s => s.report
  | driverState inTransaction cache => fields (("in_transaction", flag inTransaction) :: reportCache cache)

end Answer

namespace Link

def name : Link → String
  | primary => "primary"
  | replica => "replica"
  | further n => "driver " ++ toString n

end Link

namespace DriverCall

def report : DriverCall → List Report
  | prepare sql => [text "prepare", text sql]
  | execute sql params => [text "execute", text sql, values params]
  | lastKey => [text "last_insert_id"]
  | start => [text "begin"]
  | commit => [text "commit"]
  | rollback => [text "rollback"]

end DriverCall

namespace WireCall

def report : WireCall → List Report
  | cursor => [text "cursor"]
  | execute sql params => [text "execute", text sql, values params]
  | close => [text "close"]
  | commit => [text "commit"]
  | rollback => [text "rollback"]

end WireCall

namespace LogLevel

def name : LogLevel → String
  | debug => "debug"
  | info => "info"
  | warning => "warning"
  | error => "error"
  | critical => "critical"

end LogLevel

namespace Event

/-- An event of a layer. -/
def reportLayer (name : Option String) (what : String) (more : List Report) : List Report :=
  text "mw" :: text? name :: text what :: more

/-- An event, with functions that name failures and report outcomes. Times that were measured are only said to
be there. -/
def report (kind : Failure → String) (outcome : Except Failure Answer → Report) : Event → List Report
  | driver link call => text link.name :: call.report
  | wire link call => text link.name :: call.report
  | columnLookup table column => [text "has_column", text table, text column]
  | reflection table schema => [text "get_columns", text table, text? schema]
  | guard name => [text "policy", text? name]
  | layerEntered name => reportLayer name "before" []
  | layerLeft name rowcount => reportLayer name "after" [count rowcount]
  | layerFailed name f => reportLayer name "error" [text (kind f)]
  | layerCaught name message => reportLayer name "caught" [text message]
  | layerSaw c => [text "ctx", c.report]
  | measured operation table size =>
    [text "metrics", text operation.name, text? table, count size, flag true]
  | reported sql params => [text "logger", text sql, values params, flag true]
  | logged level name about => [text "log", text level.name, text name, particulars about]
  | slept microseconds => [text "sleep_us", number microseconds]
  | attempt turn => [text "attempt", number turn]
  | answered settled => [text "result", outcome settled]

/-- Whether an event is a record of the log. -/
def isLogged : Event → Bool
  | logged _ _ _ => true
  | _ => false

end Event

end Polyquery
