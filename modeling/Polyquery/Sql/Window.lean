import Polyquery.Dialect
import Polyquery.Value.Integer

/-! The window of rows that a query returns, and the clause by which each dialect asks for it. -/

namespace Polyquery.Sql

/-- How many rows to skip, and how many to return at most. -/
structure Window where
  limit : Option Int := none
  offset : Option Int := none
deriving DecidableEq, Repr

namespace Window

/-- The limit that stands for none where an offset needs one. -/
def mysqlEverything : Int := 18446744073709551615

/-- The parts of the clause, without the spaces between them; nothing for a window without bounds. -/
def parts (d : Dialect) (w : Window) (ordered : Bool) : List String :=
  match d with
  | .sqlite => match w.limit, w.offset with
    | none, none => []
    | none, some o => ["LIMIT -1", "OFFSET " ++ toString o]
    | some l, none => ["LIMIT " ++ toString l]
    | some l, some o => ["LIMIT " ++ toString l, "OFFSET " ++ toString o]
  | .mysql => match w.limit, w.offset with
    | none, none => []
    | none, some o => ["LIMIT " ++ toString mysqlEverything, "OFFSET " ++ toString o]
    | some l, none => ["LIMIT " ++ toString l]
    | some l, some o => ["LIMIT " ++ toString l, "OFFSET " ++ toString o]
  | .postgres =>
    (w.limit.map fun l => "LIMIT " ++ toString l).toList ++
      (w.offset.map fun o => "OFFSET " ++ toString o).toList
  | .sqlserver =>
    if w.limit.isNone && w.offset.isNone then []
    else
      (if ordered then [] else ["ORDER BY (SELECT NULL)"]) ++
        ["OFFSET " ++ toString (w.offset.getD 0) ++ " ROWS"] ++
        (w.limit.map fun l => "FETCH NEXT " ++ toString l ++ " ROWS ONLY").toList
  | .ansi =>
    (w.offset.map fun o => "OFFSET " ++ toString o ++ " ROWS").toList ++
      (w.limit.map fun l => "FETCH FIRST " ++ toString l ++ " ROWS ONLY").toList

/-- The clause for a window; empty for a window without bounds. -/
def clause (d : Dialect) (w : Window) (ordered : Bool) : String := Text.joined " " (w.parts d ordered)

/-- The integer of a bound, null meaning none. -/
def bound (v : Value) : Except Failure (Option Int) :=
  match v with
  | .null => .ok none
  | v => v.toInteger.map some

/-- The window of two values. The values are read in the order in which the dialect writes them; where the
dialect always writes an offset, one that counts as false is zero. -/
def ofValues (d : Dialect) (limit offset : Value) : Except Failure Window :=
  match d with
  | .sqlite | .mysql | .postgres => do
    let l ← bound limit
    let o ← bound offset
    pure ⟨l, o⟩
  | .ansi => do
    let o ← bound offset
    let l ← bound limit
    pure ⟨l, o⟩
  | .sqlserver =>
    if limit.isNull && offset.isNull then pure ⟨none, none⟩
    else do
      let o ← offset.toCount
      let l ← bound limit
      pure ⟨l, some o⟩

end Window

end Polyquery.Sql
