import Polyquery.Query.Compiler
import Polyquery.Validation.Query
import Polyquery.Value.Pairs

/-! The statements that a compiler writes, asked for by name and with values of any kind. Queries are given as
data and rows as pairs. -/

namespace Polyquery

namespace Compiler

/-- A query from data. -/
def query (v : Value) : Except Failure Query := (Query.check v).toExcept

/-- The statements by name; a restoration may need none. -/
def call (c : Compiler) (name : String) (arguments : List Value) : Except Failure (Option Statement) := do
  let argument (position : Nat) : Value := arguments.getD position .null
  match name with
  | "select" => some <$> c.select (← query (argument 0))
  | "insert" => some <$> c.insert (argument 0).plain (← Row.allOfPairs (argument 1)) (argument 2)
  | "upsert" =>
    some <$> c.upsert (argument 0).plain (← Row.ofPairs (argument 1)) (argument 2) (argument 3)
  | "update" =>
    let q ← query (argument 0)
    let values ← Row.ofPairs (argument 1)
    let operation ← match arguments[2]? with
      | some operation => Operation.ofValue operation
      | none => pure .update
    some <$> c.update q values operation
  | "delete" => some <$> c.delete (← query (argument 0)) (argument 1).isTruthy
  | "restore" => c.restore (← query (argument 0))
  | "json_set" =>
    let q ← query (argument 0)
    some <$> c.jsonUpdate q (argument 1) (← Row.ofPairs (argument 2))
  | _ => throw .noAttribute

end Compiler

end Polyquery
