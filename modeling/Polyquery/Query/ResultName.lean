import Polyquery.Text.Blank
import Polyquery.Text.Lower
import Polyquery.Value.Name

/-! The name under which a projected column appears in result rows: its alias, or the last part of its
reference. -/

namespace Polyquery

namespace ResultName

/-- The number of characters before the last occurrence of a pattern, if it occurs. -/
def lastOccurrence? (pattern : List Char) : List Char → Option Nat
  | [] => if pattern.isEmpty then some 0 else none
  | c :: rest =>
    match lastOccurrence? pattern rest with
    | some n => some (n + 1)
    | none => if pattern.isPrefixOf (c :: rest) then some 0 else none

/-- The word between a column and its alias. -/
def aliasWord : List Char := [' ', 'a', 's', ' ']

/-- The name of a column in result rows. The alias word is looked for in small letters, and the alias is what
stands behind as many characters of the column itself. -/
def ofColumn (column : String) : String :=
  match lastOccurrence? aliasWord (Text.lowerAfter [] column.toList) with
  | some start => String.ofList (Text.stripBy Text.isBlank (column.toList.drop (start + aliasWord.length)))
  | none => (Text.splitDots column).getLast?.getD column

/-- The name of a column given as a value. -/
def ofValue (column : Value) : Except Failure String := column.name.map ofColumn

/-- Whether rows selected with columns carry a name. -/
def carriedBy (name : String) : List Value → Except Failure Bool
  | [] => .ok false
  | .text column :: rest =>
    if column = "*" || column.endsWith ".*" || ofColumn column = name then .ok true else carriedBy name rest
  | column :: _ => column.name.map fun _ => false

/-- Whether rows selected with columns carry a key; no columns at all select every one. -/
def projects (columns key : Value) : Except Failure Bool := do
  let name ← ofValue key
  if columns.isTruthy then carriedBy name (← columns.members) else pure true

end ResultName

end Polyquery
