import Polyquery.Failure.Raised
import Polyquery.Report

/-! What failures tell of themselves. -/

namespace Polyquery

open Report

namespace Failure

/-- What the library's own failures tell besides their text. -/
def about (f : Failure) : Particulars :=
  match f.cause with
  | .invalid why =>
    [("code", .text why.code), ("details", .map (why.details.map fun (name, v) => (.text name, v)))]
  | .uncompilable why => [("clause", .ofText? why.clause)]
  | .unsupported feature dialect => [("feature", .text feature), ("dialect", .text dialect)]
  | .rejected rejection => [("operation", .ofText? rejection.operation), ("table", .ofText? rejection.table)]
  | .execution fault => [("sql", .ofText? fault.sql), ("code", fault.code)]
  | .raised _ _ about => about
  | _ => []

/-- Whether the text of a failure is fixed. That of failures of the language itself is not, and issues are
reported on their own. -/
def hasText (f : Failure) : Bool :=
  match f.cause with
  | .badData _ | .wrongType _ | .noAttribute | .overflow | .missingKey _ | .exhausted => false
  | _ => true

/-- The text of a failure, and what else it tells. -/
def details (f : Failure) : List (String × Report) :=
  (if f.hasText then [("message", text f.message)] else []) ++
    f.about.map (fun (name, v) => (name, if name = "details" then ofNamed v else .value v)) ++
    (match f.severity? with
      | some severity => [("retryable", flag (severity = .retryable))]
      | none => [])

/-- What programs are told of invalid arguments. -/
def response? (f : Failure) : Option Report :=
  match f.ownKind? with
  | some .invalid | some .listTooLong =>
    some (fields [("error", .value (f.about.get "code")), ("message", text f.message),
      ("details", .value (f.about.get "details"))])
  | _ => none

end Failure

end Polyquery
