import Polyquery.Association
import Polyquery.Failure

/-! Failures of the library's own kinds that callers raise. Each kind has parameters, to which values are given by
position or by name. -/

namespace Polyquery

/-- A parameter of a call, and what it is when no value is given for it. -/
structure Parameter where
  name : String
  absent : Option Value := none

/-- Why values do not fit the parameters of a call. -/
inductive Misfit where
  /-- Values are given by name where they have no names. -/
  | named
  | unknown (name : String)
  | repeated (name : String)
  | tooMany (least most given : Nat)
  | missing (names : List String)
deriving DecidableEq, Repr

namespace Misfit

/-- Words in a row, the last one behind `and`. -/
def listed : List String → String
  | [] => ""
  | [word] => word
  | [first, second] => first ++ " and " ++ second
  | words => Text.joined ", " words.dropLast ++ ", and " ++ words.getLastD ""

/-- The text of a misfit, given what was called. -/
def text (callee : String) : Misfit → String
  | named => callee ++ " takes no keyword arguments"
  | unknown name => callee ++ " got an unexpected keyword argument '" ++ name ++ "'"
  | repeated name => callee ++ " got multiple values for argument '" ++ name ++ "'"
  | tooMany least most given =>
    let bounds := if least = most then toString most else "from " ++ toString least ++ " to " ++ toString most
    callee ++ " takes " ++ bounds ++ " positional arguments but " ++ toString given ++ " were given"
  | missing names =>
    callee ++ " missing " ++ toString names.length ++ " required positional argument" ++
      (if names.length = 1 then ": " else "s: ") ++ listed (names.map fun name => "'" ++ name ++ "'")

end Misfit

namespace Parameter

/-- The name of what is made, which takes the place of a first value. -/
def made : String := "self"

/-- What is wrong with a value given by name, where what is made and the first `count` parameters have their
values. -/
def nameFault? (parameters : List Parameter) (count : Nat) (name : String) : Option Misfit :=
  if name = made || (parameters.take count).any (·.name = name) then some (.repeated name)
  else if parameters.any (·.name = name) then none
  else some (.unknown name)

/-- What is wrong with values by position and by name. What is made counts as a first value. -/
def misfit? (parameters : List Parameter) (given : List Value) (named : Particulars) : Option Misfit :=
  let required := parameters.filter (·.absent.isNone)
  let vacant := (parameters.drop given.length).filter fun p => p.absent.isNone && !named.any (·.1 = p.name)
  named.findSome? (fun entry => nameFault? parameters given.length entry.1) <|>
    (if parameters.length < given.length then
      some (.tooMany (required.length + 1) (parameters.length + 1) (given.length + 1))
    else if vacant.isEmpty then none else some (.missing (vacant.map (·.name))))

/-- The values of parameters: those given by position, and behind them those given by name. -/
def bind (parameters : List Parameter) (given : List Value) (named : Particulars) : Except Misfit Particulars :=
  match misfit? parameters given named with
  | some misfit => .error misfit
  | none => .ok (parameters.zipIdx.map fun (p, position) =>
      (p.name, (given[position]? <|> Association.find? p.name named <|> p.absent).getD .null))

end Parameter

namespace Particulars

def get (name : String) (about : Particulars) : Value := (Association.find? name about).getD .null

/-- Particulars with the values that others have under the same names. -/
def overlaid (about later : Particulars) : Particulars :=
  about.map fun (name, v) => (name, (Association.find? name later).getD v)

end Particulars

namespace OwnKind

/-- The parameters of the failures of a kind; those of the general kind take any values. -/
def parameters : OwnKind → List Parameter
  | general => []
  | invalid => [⟨"message", none⟩, ⟨"code", some (.text "INVALID_ARGUMENT")⟩, ⟨"details", some .null⟩]
  | listTooLong => [⟨"column", none⟩, ⟨"count", none⟩, ⟨"limit", none⟩]
  | uncompilable => [⟨"message", none⟩, ⟨"clause", some .null⟩]
  | unsupported => [⟨"feature", none⟩, ⟨"dialect", none⟩]
  | rejected => [⟨"message", none⟩, ⟨"operation", some .null⟩, ⟨"table", some .null⟩]
  | readonly => [⟨"operation", some .null⟩, ⟨"table", some .null⟩]
  | execution _ => [⟨"message", none⟩, ⟨"sql", some .null⟩, ⟨"code", some .null⟩]

/-- What the failures of a kind tell besides their text, given their values. -/
def about (given : Particulars) : OwnKind → Particulars
  | invalid =>
    let details := given.get "details"
    [("code", given.get "code"), ("details", if details.isTruthy then details else .map [])]
  | listTooLong =>
    [("code", .text listTooLongCode), ("details", .map (given.map fun (name, v) => (.text name, v)))]
  | _ => given.filter (·.1 ≠ "message")

/-- The arguments that the failures of a kind carry, given their values. -/
def carried (given : Particulars) : OwnKind → List Value
  | listTooLong =>
    [.text (listTooLongText (given.get "column").plain (given.get "count").plain (given.get "limit").plain)]
  | unsupported => [.text (unsupportedText (given.get "feature").plain (given.get "dialect").plain)]
  | readonly => [.text readonlyText]
  | _ => [given.get "message"]

end OwnKind

namespace Cause

/-- A failure of one of the library's kinds, from values by position and by name. -/
def raise (kind : OwnKind) (arguments : List Value) (named : Particulars) : Except Misfit Cause :=
  if kind = .general then
    if named.isEmpty then .ok (.raised kind arguments []) else .error .named
  else do
    let given ← Parameter.bind kind.parameters arguments named
    pure (.raised kind (kind.carried given) (kind.about given))

end Cause

/-- A failure with particulars that a caller attached to it: codes of a database, and those that take the place of
its own. -/
def Failure.attached (cause : Cause) (more : Particulars) : Failure :=
  let codes : AttachedCodes :=
    { sqlState := more.get "sqlstate", serverCode := more.get "pgcode", fileCode := more.get "sqlite_errorcode" }
  let cause := match cause with
    | .raised kind arguments about => .raised kind arguments (about.overlaid more)
    | cause => cause
  .mk cause codes none

end Polyquery
