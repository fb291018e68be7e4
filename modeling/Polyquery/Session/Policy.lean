import Polyquery.Session.Context
import Polyquery.Settings.Basic

/-! Policy: which statements may run. Readonly mode comes first, then the rules on tables, then the guards in
the order of their registration; the first that rejects decides. -/

namespace Polyquery

/-- A guard of the caller: it answers a value or fails, and declines by answering `false`. -/
structure Guard where
  name : Option String
  answer : Context → Except Failure Value

namespace Policy

/-- A rejection of a statement by a rule. -/
def rejection (c : Context) (rule : Rule) : Cause := .rejected ⟨rule, some c.operation.name, c.table⟩

def reject (c : Context) (rule : Rule) : Failure := .of (rejection c rule)

/-- The verdict of the rules on tables; statements without a table pass. -/
def checkTable (rules : TableRules) (c : Context) : Except Failure Unit :=
  match c.table with
  | none => .ok ()
  | some table =>
    if !rules.allowed.isEmpty && !rules.allowed.contains table then .error (reject c .tableNotAllowed)
    else if rules.denied.contains table then .error (reject c .tableDenied)
    else if (rules.deniedFor table).contains c.operation.name then .error (reject c .operationDenied)
    else .ok ()

/-- The verdict of a guard. A failure of its own is wrapped, unless it is a rejection or an interrupt. -/
def verdict (c : Context) (guard : Guard) : Except Failure Unit :=
  match guard.answer c with
  | .ok (.bool false) => .error (reject c .guardDeclined)
  | .ok _ => .ok ()
  | .error f =>
    if f.isRejection || f.isInterrupt then .error f
    else .error (.chained (rejection c (.guardFailed f.message)) f)

/-- The verdicts of guards in order, and the guards that were asked. -/
def askGuards (c : Context) : List Guard → List Guard × Except Failure Unit
  | [] => ([], .ok ())
  | guard :: rest => match verdict c guard with
    | .error f => ([guard], .error f)
    | .ok () =>
      let (asked, outcome) := askGuards c rest
      (guard :: asked, outcome)

/-- The verdict on a statement, and the guards that were asked for it. -/
def check (rules : TableRules) (guards : List Guard) (readonly : Bool) (c : Context) :
    List Guard × Except Failure Unit :=
  if readonly && c.isWrite then ([], .error (reject c .readonlyMode))
  else match checkTable rules c with
    | .error f => ([], .error f)
    | .ok () => askGuards c guards

end Policy

end Polyquery
