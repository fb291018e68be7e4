import Polyquery.Failure
import Polyquery.Text.Blank
import Polyquery.Text.Capital

/-! The comparison operators of statements. Operators become part of the text, so only these are accepted, in
any case of letters and with any white space between their words. -/

namespace Polyquery.Sql

/-- A comparison operator. -/
inductive Operator where
  | equal
  | notEqual
  | different
  | less
  | atMost
  | greater
  | atLeast
  | like
  | notLike
deriving DecidableEq, Repr

namespace Operator

def spelling : Operator → String
  | equal => "="
  | notEqual => "!="
  | different => "<>"
  | less => "<"
  | atMost => "<="
  | greater => ">"
  | atLeast => ">="
  | like => "LIKE"
  | notLike => "NOT LIKE"

def all : List Operator := [equal, notEqual, different, less, atMost, greater, atLeast, like, notLike]

/-- A text in capitals, with one space between its words. -/
def normalized (s : String) : String :=
  Text.joined " " ((Text.words (Text.capital s.toList)).map String.ofList)

/-- The operator that a text spells. -/
def ofText? (s : String) : Option Operator := all.find? fun op => op.spelling = normalized s

/-- The operator that a value spells; the text of a value on its own counts. -/
def ofValue (given : Value) : Except Failure Operator :=
  match ofText? given.plain with
  | some op => .ok op
  | none => .error (.invalid (.operator given))

/-- Whether the operator compares for equality, which null takes no part in. -/
def nullTest? : Operator → Option Bool
  | equal => some false
  | notEqual | different => some true
  | _ => none

end Operator

end Polyquery.Sql
