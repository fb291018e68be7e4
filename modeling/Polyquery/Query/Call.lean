import Polyquery.Query.Builder

/-! The names under which the clauses of a query are called, and the values that each takes. -/

namespace Polyquery

open Sql (Connective)

namespace Clause

/-- A call with too many or too few values. -/
def malformed : Clause := refused .wrongType

def single (clause : Value → Clause) : List Value → Clause
  | [v] => clause v
  | _ => malformed

def pair (clause : Value → Value → Clause) : List Value → Clause
  | [v, w] => clause v w
  | _ => malformed

def bare (clause : Clause) : List Value → Clause
  | [] => clause
  | _ => malformed

/-- Two values, of which the second is the value compared with, or three with the operator between. -/
def comparing (clause : Value → Value → Option Value → Clause) : List Value → Clause
  | [subject, operator] => clause subject operator none
  | [subject, operator, v] => clause subject operator (some v)
  | _ => malformed

/-- A join of a kind, or of the kind that a fifth value names. -/
def joining : Option String → List Value → Clause
  | some kind, [table, left, operator, right] => join table left operator right (.text kind)
  | none, [table, left, operator, right] => join table left operator right (.text "INNER")
  | none, [table, left, operator, right, kind] => join table left operator right kind
  | _, _ => malformed

def grouping : List Value → Clause
  | [expression, operator, v] => having expression operator v
  | _ => malformed

def ordering : List Value → Clause
  | [column] => orderBy column (.text "asc")
  | [column, direction] => orderBy column direction
  | _ => malformed

/-- The clauses by name. Groups are missing, as they take clauses instead of values. -/
def calls : List (String × (List Value → Clause)) :=
  [("select", select),
   ("where", comparing (compare .and)), ("or_where", comparing (compare .or)),
   ("where_in", pair (isIn .and false)), ("or_where_in", pair (isIn .or false)),
   ("where_not_in", pair (isIn .and true)), ("or_where_not_in", pair (isIn .or true)),
   ("where_between", pair (between false)), ("where_not_between", pair (between true)),
   ("where_null", single (isNull .and false)), ("where_not_null", single (isNull .and true)),
   ("or_where_null", single (isNull .or false)), ("or_where_not_null", single (isNull .or true)),
   ("where_json", comparing (json .and)), ("or_where_json", comparing (json .or)),
   ("join", joining none), ("left_join", joining (some "LEFT")), ("right_join", joining (some "RIGHT")),
   ("group_by", groupBy), ("having", grouping), ("order_by", ordering),
   ("limit", single limit), ("offset", single offset), ("timeout", single timeout),
   ("with_trashed", bare (see .withTrashed)), ("only_trashed", bare (see .onlyTrashed))]

/-- The clause of a name with values. -/
def ofCall? (name : String) (values : List Value) : Option Clause :=
  (calls.find? fun entry => entry.1 = name).map fun entry => entry.2 values

end Clause

end Polyquery
