import Polyquery.Report
import Polyquery.Sql.Command
import Polyquery.Sql.JsonPath

/-! The parts of statements that a dialect writes, asked for by name and with values of any kind. -/

namespace Polyquery

namespace Dialect

open Sql

/-- A fragment as its text. -/
def written (d : Dialect) (f : Fragment) : Report := .text (f.text d)

/-- What sets a dialect apart, in short. -/
def capabilities (d : Dialect) : Report :=
  .fields [("name", .text d.name), ("native_upsert", .flag d.hasUpsert), ("returning", .flag d.hasReturning),
    ("codes", .texts d.retryCodes)]

/-- The clause of an upsert; dialects without it say so. -/
def upsertClause (d : Dialect) (conflict update : Value) : Except Failure Fragment := do
  if d.hasUpsert then return (← Conflict.ofValues d conflict update).fragment d
  else throw (.unsupported "native upsert" d.name)

/-- The clause that returns columns of new rows; dialects without it say so. -/
def returningClause (d : Dialect) (columns : Value) : Except Failure Fragment := do
  if d.hasReturning then return Insertion.returningFragment (← (← columns.members).mapM Value.name)
  else throw (.unsupported "INSERT … RETURNING" d.name)

/-- The answers by name. Every call takes as many values as it has parameters. -/
def call (d : Dialect) (name : String) (arguments : List Value) : Except Failure Report :=
  match name, arguments with
  | "capabilities", [] => .ok d.capabilities
  | "param_placeholder", [] => .ok (.text d.placeholder)
  | "last_insert_id_query", [] => .ok (.text? d.keyQuery)
  | "quote_identifier", [name] => name.name.map fun name => d.written [.name name]
  | "quote_column", [ref] => ref.name.map fun ref => d.written (Fragment.reference ref)
  | "render_pagination", [limit, offset, ordered] =>
    (Window.ofValues d limit offset).map fun w => .text (w.clause d ordered.isTruthy)
  | "render_upsert", [conflict, update] => (d.upsertClause conflict update).map d.written
  | "render_returning", [columns] => (d.returningClause columns).map d.written
  | "json_extract", [column, path] =>
    (jsonExtract d [.expression column.plain] (JsonPath.ofValue path)).map d.written
  | "json_set", [target, path, mark] =>
    (jsonSet d [.expression target.plain] (JsonPath.ofValue path) [.expression mark.plain]).map d.written
  | "json_param", [value] => (jsonParam d value).map .value
  | "json_dollar_path", [path] =>
    (JsonPath.ofValue path).map fun path => d.written [.literal (JsonPath.dollar path)]
  | "validate_json_segments", [path] => (JsonPath.ofValue path).map .texts
  | "timeout_statements", [limit] =>
    (d.timeoutOf limit).map fun t => .items [.text? t.apply, .text? t.lift]
  | _, _ => .error .wrongType

end Dialect

end Polyquery
