import Polyquery.Sql.Command

/-! What a query has been told so far: its table, columns, filters, joins, groups, orders and bounds. -/

namespace Polyquery

open Sql (Connective)

/-- Which rows of a table with soft deletion a query sees. -/
inductive Visibility where
  | live
  | withTrashed
  | onlyTrashed
deriving DecidableEq, Repr

def Visibility.name : Visibility → String
  | live => "default"
  | withTrashed => "with_trashed"
  | onlyTrashed => "only_trashed"

/-- The visibility that a value names. -/
def Visibility.ofValue (given : Value) : Except Failure Visibility :=
  match [live, withTrashed, onlyTrashed].find? fun visibility => given.same (.text visibility.name) with
  | some visibility => .ok visibility
  | none => .error (.badValue (given.literal ++ " is not a valid Visibility"))

/-- A join as the caller states it. -/
structure JoinTerm where
  table : String
  left : String
  operator : String := "="
  right : String
  kind : JoinKind := .inner
deriving DecidableEq

/-- A condition on groups as the caller states it. -/
structure HavingTerm where
  expression : String
  operator : String
  value : Value

/-- An order as the caller states it. -/
structure OrderTerm where
  column : String
  direction : Direction := .ascending
deriving DecidableEq

/-- A query over filters of some kind. -/
structure QueryOf (φ : Type) where
  table : String := ""
  columns : List Value := [.text "*"]
  filters : List φ := []
  joins : List JoinTerm := []
  groupBy : List Value := []
  having : List HavingTerm := []
  orderBy : List OrderTerm := []
  limit : Option Int := none
  offset : Option Int := none
  timeout : Option Int := none
  visibility : Visibility := .live

/-- A filter. A group holds a query of which only the filters count; `other` is a value in the place of a
filter. -/
inductive Filter where
  | basic (column operator : String) (value : Value) (connective : Connective)
  | isIn (column : String) (values : List Value) (negated : Bool) (connective : Connective)
  | isNull (column : String) (negated : Bool) (connective : Connective)
  | between (column : String) (low high : Value) (negated : Bool) (connective : Connective)
  | json (path operator : String) (value : Value) (connective : Connective)
  | group (query : QueryOf Filter) (connective : Connective)
  | other (value : Value)

/-- What a query has been told. -/
abbrev Query := QueryOf Filter

namespace Filter

/-- How a filter is joined to the ones before it. -/
def connective : Filter → Connective
  | basic _ _ _ c | isIn _ _ _ c | isNull _ _ c | between _ _ _ _ c | json _ _ _ c | group _ c => c
  | other _ => .and

/-- Filters in parentheses. -/
def grouped (filters : List Filter) (connective : Connective) : Filter := group { filters } connective

end Filter

namespace QueryOf

/-- The direction in which a query orders a column: that of the column's own term, else that of the first
term, else ascending. -/
def directionOf {φ : Type} (q : QueryOf φ) (column : String) : Direction :=
  match q.orderBy.find? fun term => term.column = column with
  | some term => term.direction
  | none => (q.orderBy.head?.map (·.direction)).getD .ascending

end QueryOf

end Polyquery
