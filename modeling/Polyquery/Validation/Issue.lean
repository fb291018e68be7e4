import Polyquery.Value.Literal

/-! What is wrong with data that a caller hands over: an issue names a place in the data, the value found there
and the rule that it breaks. -/

namespace Polyquery

/-- One step on the way to a place in the data. -/
inductive PathStep where
  | field (name : String)
  | index (position : Int)
deriving DecidableEq, Repr

/-- The rules that data can break. -/
inductive IssueKind where
  | unknownField
  | unknownArgument
  | notAName
  | missing
  | notSettings
  | notRules
  | notFilter
  | noFilterKind
  | unknownFilterKind
  | notText
  | notEncoded
  | unreadableBool
  | notBool
  | notFinite
  | fractionalInteger
  | unreadableInteger
  | tooManyDigits
  | notInteger
  | tooSmall
  | unreadableNumber
  | notNumber
  | notAChoice
  | notAMember
  | notList
  | notTuple
  | notMapping
deriving DecidableEq, Repr

/-- A broken rule, its place, and the value at fault. -/
structure Issue where
  path : List PathStep
  kind : IssueKind
  given : Value

namespace PathStep

def text : PathStep → String
  | field name => name
  | index position => toString position

end PathStep

namespace Issue

/-- The issue as seen from one step further out. -/
def under (step : PathStep) (issue : Issue) : Issue := { issue with path := step :: issue.path }

/-- The first characters of a text that take up at most so many bytes. -/
def firstBytes (count : Nat) : List Char → List Char
  | [] => []
  | c :: rest => if c.utf8Size ≤ count then c :: firstBytes (count - c.utf8Size) rest else []

/-- A text of more than fifty bytes shows the beginning and the end of it, whole characters only. -/
def excerpt (s : String) : String :=
  if s.utf8ByteSize ≤ 50 then s
  else
    let cs := s.toList
    String.ofList (firstBytes 25 cs) ++ "..." ++ String.ofList (firstBytes 24 cs.reverse).reverse

/-- The text of an issue: its place, and the value found there. -/
def text (issue : Issue) : String :=
  Text.joined "." (issue.path.map PathStep.text) ++ ": " ++ excerpt issue.given.literal

/-- The text of several issues. -/
def texts (issues : List Issue) : String := Text.joined "\n" (issues.map text)

end Issue

end Polyquery
