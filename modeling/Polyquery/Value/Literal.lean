import Polyquery.Number.Shortest
import Polyquery.Text.Quoted
import Polyquery.Value

/-! The text of a value in messages: texts are quoted inside collections, and stand as they are on their own. -/

namespace Polyquery

namespace Value

mutual

/-- A value as a literal, texts quoted. -/
def literal : Value → String
  | .null => "None"
  | .bool b => if b then "True" else "False"
  | .int n => toString n
  | .real x => x.text
  | .text s => Text.quoted s
  | .bytes bs => Text.quotedBytes bs
  | .list xs => "[" ++ Text.joined ", " (literals xs) ++ "]"
  | .tuple xs => match literals xs with
    | [x] => "(" ++ x ++ ",)"
    | texts => "(" ++ Text.joined ", " texts ++ ")"
  | .set xs => match literals xs with
    | [] => "set()"
    | texts => "\x7b" ++ Text.joined ", " texts ++ "\x7d"
  | .map entries => "\x7b" ++ Text.joined ", " (entryLiterals entries) ++ "\x7d"

/-- The literals of the members of a collection. -/
def literals : List Value → List String
  | [] => []
  | x :: xs => x.literal :: literals xs

/-- The literals of the entries of a mapping. -/
def entryLiterals : List (Value × Value) → List String
  | [] => []
  | (k, v) :: rest => (k.literal ++ ": " ++ v.literal) :: entryLiterals rest

end

/-- The text of a value on its own: a text as it is, any other value as its literal. -/
def plain : Value → String
  | .text s => s
  | v => v.literal

/-- The text of an error that was raised with the given arguments. -/
def plainArguments : List Value → String
  | [] => ""
  | [x] => x.plain
  | xs => (Value.tuple xs).literal

end Value

end Polyquery
