import Polyquery.Sql.Fragment
import Polyquery.Sql.Operator

/-! Conditions on rows. A chain of conditions reads as in SQL: `AND` binds closer than `OR`, and only groups
are enclosed in parentheses. -/

namespace Polyquery.Sql

/-- How a condition is joined to the ones before it. -/
inductive Connective where
  | and
  | or
deriving DecidableEq, Repr

def Connective.spelling : Connective → String
  | and => "AND"
  | or => "OR"

/-- A condition on a row; `subject` is a column or an expression. -/
inductive Condition where
  | compare (subject : Fragment) (op : Operator) (value : Value)
  | isNull (subject : Fragment) (negated : Bool)
  | isIn (subject : Fragment) (values : List Value) (negated : Bool)
  | between (subject : Fragment) (low high : Value) (negated : Bool)
  | constant (truth : Bool)
  | group (chain : List (Connective × Condition))

/-- Conditions with the connectives before them; the first connective says nothing. -/
abbrev Chain := List (Connective × Condition)

open Fragment (words)

namespace Condition

/-- A comparison in which null is not a value: equality with it tests for it. -/
def ofComparison (subject : Fragment) (op : Operator) (value : Value) : Condition :=
  match value, op.nullTest? with
  | .null, some negated => isNull subject negated
  | _, _ => compare subject op value

mutual

/-- A condition in pieces. -/
def fragment : Condition → Fragment
  | compare subject op value => subject ++ [.words (" " ++ op.spelling ++ " "), .bind value]
  | isNull subject negated => subject ++ words (if negated then " IS NOT NULL" else " IS NULL")
  | isIn subject values negated =>
    subject ++ .words (if negated then " NOT IN (" else " IN (") :: Fragment.bindList values ++ words ")"
  | between subject low high negated =>
    subject ++ [.words (if negated then " NOT BETWEEN " else " BETWEEN "), .bind low, .words " AND ", .bind high]
  | constant truth => words (if truth then "1 = 1" else "1 = 0")
  | group chain => .words "(" :: chainFragment chain ++ words ")"

/-- A chain in pieces, without its first connective. -/
def chainFragment : List (Connective × Condition) → Fragment
  | [] => []
  | (_, condition) :: rest => condition.fragment ++ restFragment rest

/-- The rest of a chain in pieces, each condition behind its connective. -/
def restFragment : List (Connective × Condition) → Fragment
  | [] => []
  | (connective, condition) :: rest =>
    .words (" " ++ connective.spelling ++ " ") :: condition.fragment ++ restFragment rest

end

end Condition

namespace Chain

/-- A chain in pieces. -/
def fragment (chain : Chain) : Fragment := Condition.chainFragment chain

/-- Conditions all of which must hold. -/
def all (conditions : List Condition) : Chain := conditions.map fun condition => (.and, condition)

end Chain

end Polyquery.Sql
