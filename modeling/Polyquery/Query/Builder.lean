import Polyquery.Query.State
import Polyquery.Text.Capital
import Polyquery.Validation.Checked
import Polyquery.Value.Integer

/-! Building queries. A clause is one call of the caller's on a query, with the values as they were given;
adding it to a query checks them. -/

namespace Polyquery

open Sql (Connective)

/-- One call on a query. A comparison without a value has it in the place of the operator. -/
inductive Clause where
  | select (columns : List Value)
  | compare (connective : Connective) (column operator : Value) (value : Option Value)
  | isIn (connective : Connective) (negated : Bool) (column values : Value)
  | between (negated : Bool) (column bounds : Value)
  | isNull (connective : Connective) (negated : Bool) (column : Value)
  | json (connective : Connective) (path operator : Value) (value : Option Value)
  | group (connective : Connective) (clauses : List Clause)
  | join (table left operator right kind : Value)
  | groupBy (columns : List Value)
  | having (expression operator value : Value)
  | orderBy (column direction : Value)
  | limit (n : Value)
  | offset (n : Value)
  | timeout (milliseconds : Value)
  | see (visibility : Visibility)
  /-- A call that cannot be made. -/
  | refused (failure : Failure)

/-- A value that must be a text, as the named field of some data. -/
def checkedText (name : String) (v : Value) : Checked String := (Check.text v).under (.field name)

/-- A value that must be a text, as the named field of some data. -/
def textField (name : String) (v : Value) : Except Failure String := (checkedText name v).toExcept

namespace Clause

/-- A single value, or the members of a collection. -/
def flattened : Value → Except Failure (List Value)
  | .text s => .ok [.text s]
  | v => match v.members? with
    | some members => .ok members
    | none => .error .wrongType

/-- The members that a filter may compare a column with. -/
def listed? : Value → Option (List Value)
  | .list xs | .tuple xs | .set xs => some xs
  | _ => none

/-- The two bounds of a range. -/
def bounds (column : Value) : Value → Except Failure (Value × Value)
  | .text _ | .bytes _ => .error (.invalid (.bounds column))
  | v => match v.members? with
    | none => .error .wrongType
    | some [low, high] => .ok (low, high)
    | some _ => .error (.invalid (.bounds column))

/-- Whether a path has a dot; a collection has one as a member. -/
def hasDot : Value → Except Failure Bool
  | .text path => .ok (path.toList.contains '.')
  | .list xs | .tuple xs | .set xs => .ok (xs.any fun x => x.same (.text "."))
  | .map entries => .ok (entries.any fun (k, _) => k.same (.text "."))
  | _ => .error .wrongType

/-- A word in any case of letters; values that have capitals but are no text match none. -/
def word (words : List (String × α)) (otherwise : Invalid) : Value → Except Failure α
  | .text s => match words.find? fun (spelling, _) => spelling = Text.capitals s with
    | some (_, meaning) => .ok meaning
    | none => .error (.invalid otherwise)
  | .bytes _ => .error (.invalid otherwise)
  | _ => .error .noAttribute

def joinKind (v : Value) : Except Failure JoinKind :=
  word [("INNER", .inner), ("LEFT", .left), ("RIGHT", .right)] (.joinKind v) v

def direction (v : Value) : Except Failure Direction :=
  word [("ASC", .ascending), ("DESC", .descending)] (.direction v) v

/-- A bound that must not be negative. -/
def bound (name : String) (v : Value) : Except Failure Int := do
  let n ← v.toInteger
  if n < 0 then .error (.invalid (.negative name v)) else pure n

/-- The operator and value of a comparison: equality when only one was given. -/
def operands (operator : Value) : Option Value → Value × Value
  | some value => (operator, value)
  | none => (.text "=", operator)

end Clause

namespace Query

open Clause

/-- A query on a table, before its first clause. -/
def onTable (table : Value) : Except Failure Query := do return { table := ← textField "table" table }

/-- A query with one more filter. -/
def filter (q : Query) (f : Filter) : Query := { q with filters := q.filters ++ [f] }

def addSelect (columns : List Value) (q : Query) : Except Failure Query := do
  let flat := (← columns.mapM flattened).flatten
  pure { q with columns := if flat.isEmpty then [.text "*"] else flat }

def addComparison (connective : Connective) (column operator : Value) (value : Option Value) (q : Query) :
    Except Failure Query := do
  let (operator, value) := operands operator value
  pure (q.filter (.basic (← textField "column" column) operator.plain value connective))

def addIn (connective : Connective) (negated : Bool) (column values : Value) (q : Query) :
    Except Failure Query := do
  match listed? values with
  | none => .error (.invalid (.notAList column))
  | some members => pure (q.filter (.isIn (← textField "column" column) members negated connective))

def addBetween (negated : Bool) (column values : Value) (q : Query) : Except Failure Query := do
  let (low, high) ← bounds column values
  pure (q.filter (.between (← textField "column" column) low high negated .and))

def addJson (connective : Connective) (path operator : Value) (value : Option Value) (q : Query) :
    Except Failure Query := do
  let (operator, value) := operands operator value
  if ← hasDot path then pure (q.filter (.json (← textField "path" path) operator.plain value connective))
  else .error (.invalid (.path path))

def addJoin (table left operator right kind : Value) (q : Query) : Except Failure Query := do
  let kind ← joinKind kind
  let term : Checked JoinTerm :=
    (fun table left operator right => { table, left, operator, right, kind : JoinTerm })
      <$> checkedText "table" table
      <*> checkedText "left" left
      <*> checkedText "operator" operator
      <*> checkedText "right" right
  pure { q with joins := q.joins ++ [← term.toExcept] }

def addHaving (expression operator value : Value) (q : Query) : Except Failure Query := do
  let term : Checked HavingTerm :=
    (fun expression operator => { expression, operator, value : HavingTerm })
      <$> checkedText "expression" expression
      <*> checkedText "operator" operator
  pure { q with having := q.having ++ [← term.toExcept] }

def addOrder (column direction : Value) (q : Query) : Except Failure Query := do
  let direction ← Clause.direction direction
  pure { q with orderBy := q.orderBy ++ [{ column := ← textField "column" column, direction }] }

mutual

/-- A query with one more clause. A group is built on a query of its own, and left out when it has no
filters. -/
def add : Clause → Query → Except Failure Query
  | .select columns, q => addSelect columns q
  | .compare connective column operator value, q => addComparison connective column operator value q
  | .isIn connective negated column values, q => addIn connective negated column values q
  | .between negated column values, q => addBetween negated column values q
  | .isNull connective negated column, q => do
    pure (q.filter (.isNull (← textField "column" column) negated connective))
  | .json connective path operator value, q => addJson connective path operator value q
  | .group connective clauses, q => do
    let nested ← addAll clauses { table := q.table }
    pure (if nested.filters.isEmpty then q else q.filter (.grouped nested.filters connective))
  | .join table left operator right kind, q => addJoin table left operator right kind q
  | .groupBy columns, q => pure { q with groupBy := q.groupBy ++ columns }
  | .having expression operator value, q => addHaving expression operator value q
  | .orderBy column direction, q => addOrder column direction q
  | .limit n, q => do pure { q with limit := some (← bound "limit" n) }
  | .offset n, q => do pure { q with offset := some (← bound "offset" n) }
  | .timeout milliseconds, q => do pure { q with timeout := some (max 1 (← milliseconds.toInteger)) }
  | .see visibility, q => pure { q with visibility }
  | .refused f, _ => .error f

/-- A query with more clauses. -/
def addAll : List Clause → Query → Except Failure Query
  | [], q => pure q
  | clause :: rest, q => do addAll rest (← add clause q)

end

end Query

end Polyquery
