import Polyquery.Sql.Condition
import Polyquery.Sql.Window
import Polyquery.Text.Word
import Polyquery.Value.Name

/-! Commands: complete statements before they are written in a dialect. -/

namespace Polyquery

/-- What a statement does, as policies and logs see it. -/
inductive Operation where
  | select
  | insert
  | update
  | delete
  | upsert
  | raw
deriving DecidableEq, Repr

def Operation.name : Operation → String
  | select => "select"
  | insert => "insert"
  | update => "update"
  | delete => "delete"
  | upsert => "upsert"
  | raw => "raw"

def Operation.all : List Operation := [.select, .insert, .update, .delete, .upsert, .raw]

/-- The operation that a value names. -/
def Operation.ofValue (given : Value) : Except Failure Operation :=
  match Operation.all.find? fun op => given.same (.text op.name) with
  | some op => .ok op
  | none => .error (.badValue (given.literal ++ " is not a valid OperationKind"))

/-- Which rows of the other table a join keeps. -/
inductive JoinKind where
  | inner
  | left
  | right
deriving DecidableEq, Repr

def JoinKind.spelling : JoinKind → String
  | inner => "INNER"
  | left => "LEFT"
  | right => "RIGHT"

/-- The direction of an order. -/
inductive Direction where
  | ascending
  | descending
deriving DecidableEq, Repr

def Direction.spelling : Direction → String
  | ascending => "ASC"
  | descending => "DESC"

namespace Sql

open Fragment (words reference nameList bindList separated)

/-- An entry of a projection. -/
inductive Projected where
  | everything
  | expression (text : String)
  | column (ref : String)
  | aliased (ref label : String)
deriving DecidableEq, Repr

namespace Projected

/-- Whether a character may stand in the reference before an alias. -/
def isReferenceChar (c : Char) : Bool := Text.isWord c || c = '.' || c = '*'

/-- A reference and its alias, if an entry spells them with `AS` between: nothing but white space may stand
around the three. -/
def alias? (entry : List Char) : Option (List Char × List Char) :=
  let body := entry.dropWhile Text.isBlank
  let ref := body.takeWhile isReferenceChar
  let rest := body.dropWhile isReferenceChar
  match ref.isEmpty, rest, rest.dropWhile Text.isBlank with
  | false, gap :: _, a :: s :: rest =>
    let name := (rest.dropWhile Text.isBlank).takeWhile Text.isWord
    let tail := (rest.dropWhile Text.isBlank).dropWhile Text.isWord
    if Text.isBlank gap && Text.matchesLetter 'a' a && Text.matchesLetter 's' s
        && rest.head?.any Text.isBlank && !name.isEmpty && tail.all Text.isBlank
    then some (ref, name) else none
  | _, _, _ => none

/-- The entry that a text stands for: with a parenthesis an expression, else a column, possibly with an
alias. -/
def ofText (entry : String) : Projected :=
  if entry.toList.contains '(' then expression entry
  else match alias? entry.toList with
    | some (ref, name) => aliased (String.ofList ref) (String.ofList name)
    | none => column entry

/-- The entry that a value stands for; only texts stand for one. -/
def ofValue : Value → Except Failure Projected
  | .text entry => .ok (ofText entry)
  | _ => .error .wrongType

def fragment : Projected → Fragment
  | everything => words "*"
  | expression text => [.expression text]
  | column ref => reference ref
  | aliased ref label => reference ref ++ [.words " AS ", .name label]

end Projected

/-- A joined table and the columns it is joined on. -/
structure Joined where
  kind : JoinKind
  table : String
  left : String
  op : Operator
  right : String

/-- An aggregate expression compared with a value. -/
structure Having where
  expression : String
  op : Operator
  value : Value

/-- A query. Table names carry their prefix. -/
structure Selection where
  projection : List Projected
  table : String
  joins : List Joined := []
  condition : Chain := []
  groupBy : List String := []
  having : List Having := []
  orderBy : List (String × Direction) := []
  window : Window := {}

/-- What becomes of rows that are there already: they are found by the conflict columns, and their update
columns take the new values. -/
structure Conflict where
  columns : List String
  update : List String

/-- New rows, their cells in the order of the columns. -/
structure Insertion where
  table : String
  columns : List String
  rows : List (List Value)
  returning : List String := []
  conflict : Option Conflict := none

/-- What a column is set to. -/
inductive Assigned where
  | value (value : Value)
  | expression (fragment : Fragment)

/-- New values for the rows that meet a condition. -/
structure Change where
  table : String
  assignments : List (String × Assigned)
  condition : Chain

/-- The removal of the rows that meet a condition. -/
structure Removal where
  table : String
  condition : Chain

/-- A complete statement. -/
inductive Command where
  | select (selection : Selection)
  | insert (insertion : Insertion)
  | update (change : Change)
  | delete (removal : Removal)

/-- A condition behind its keyword; nothing for the empty chain. -/
def whereClause (condition : Chain) : Fragment :=
  if condition.isEmpty then [] else .words " WHERE " :: condition.fragment

namespace Joined

def fragment (j : Joined) : Fragment :=
  .words (" " ++ j.kind.spelling ++ " JOIN ") :: reference j.table ++ .words " ON " :: reference j.left ++
    .words (" " ++ j.op.spelling ++ " ") :: reference j.right

end Joined

namespace Having

def fragment (h : Having) : Fragment :=
  [.expression h.expression, .words (" " ++ h.op.spelling ++ " "), .bind h.value]

/-- Clauses all of which must hold. -/
def chain (clauses : List Having) : Fragment := separated " AND " (clauses.map fragment)

end Having

namespace Selection

/-- A clause behind its keyword; nothing when there are no parts. -/
def optional (keyword : String) (parts : List Fragment) : Fragment :=
  if parts.isEmpty then [] else .words (" " ++ keyword ++ " ") :: separated ", " parts

/-- The window clause, after a space. -/
def windowClause (d : Dialect) (s : Selection) : Fragment :=
  let clause := s.window.clause d (!s.orderBy.isEmpty)
  if clause = "" then [] else words (" " ++ clause)

def fragment (d : Dialect) (s : Selection) : Fragment :=
  .words "SELECT " :: separated ", " (s.projection.map Projected.fragment) ++
    .words " FROM " :: reference s.table ++
    s.joins.flatMap Joined.fragment ++
    whereClause s.condition ++
    optional "GROUP BY" (s.groupBy.map reference) ++
    (if s.having.isEmpty then [] else .words " HAVING " :: Having.chain s.having) ++
    optional "ORDER BY" (s.orderBy.map fun (c, direction) => reference c ++ words (" " ++ direction.spelling)) ++
    s.windowClause d

end Selection

namespace Conflict

/-- A column set to the value that the new row has for it. -/
def assignment (d : Dialect) (column : String) : Fragment :=
  match d with
  | .mysql => [.name column, .words " = VALUES(", .name column, .words ")"]
  | .postgres => [.name column, .words " = EXCLUDED.", .name column]
  | _ => [.name column, .words " = excluded.", .name column]

/-- The clause of an upsert, in the dialects that have one. -/
def fragment (d : Dialect) (c : Conflict) : Fragment :=
  let assignments := separated ", " (c.update.map (assignment d))
  match d with
  | .mysql => .words "ON DUPLICATE KEY UPDATE " :: assignments
  | _ => .words "ON CONFLICT (" :: nameList c.columns ++ .words ") DO UPDATE SET " :: assignments

/-- The conflict of columns given as collections. Where the clause does not name the conflict columns, they are
not looked at. -/
def ofValues (d : Dialect) (conflict update : Value) : Except Failure Conflict := do
  let columns ← if d = .mysql then pure [] else (← conflict.members).mapM Value.name
  pure ⟨columns, ← (← update.members).mapM Value.name⟩

end Conflict

namespace Insertion

/-- The clause that returns columns of the new rows. -/
def returningFragment (columns : List String) : Fragment :=
  .words "RETURNING " :: separated ", " (columns.map reference)

def fragment (d : Dialect) (i : Insertion) : Fragment :=
  .words "INSERT INTO " :: reference i.table ++ .words " (" :: nameList i.columns ++ .words ") VALUES " ::
    separated ", " (i.rows.map fun cells => .words "(" :: bindList cells ++ words ")") ++
    (if i.returning.isEmpty then [] else .words " " :: returningFragment i.returning) ++
    (match i.conflict with
      | some conflict => .words " " :: conflict.fragment d
      | none => [])

end Insertion

namespace Change

def assignment : String × Assigned → Fragment
  | (column, .value value) => [.name column, .words " = ", .bind value]
  | (column, .expression f) => [.name column, .words " = "] ++ f

def fragment (c : Change) : Fragment :=
  .words "UPDATE " :: reference c.table ++ .words " SET " :: separated ", " (c.assignments.map assignment) ++
    whereClause c.condition

end Change

namespace Removal

def fragment (r : Removal) : Fragment := .words "DELETE FROM " :: reference r.table ++ whereClause r.condition

end Removal

namespace Command

/-- A command in the pieces of a dialect. -/
def fragment (d : Dialect) : Command → Fragment
  | select selection => selection.fragment d
  | insert insertion => insertion.fragment d
  | update change => change.fragment
  | delete removal => removal.fragment

end Command

end Sql

/-- A command for a dialect, with the operation it counts as. -/
structure Statement where
  dialect : Dialect
  operation : Operation
  command : Sql.Command

namespace Statement

def fragment (s : Statement) : Sql.Fragment := s.command.fragment s.dialect

/-- The text of a statement. -/
def sql (s : Statement) : String := s.fragment.text s.dialect

/-- The parameters of a statement, in the order of their placeholders. -/
def params (s : Statement) : List Value := s.fragment.params

end Statement

end Polyquery
