import Polyquery.Validation.Issue

/-! Failures. A failure has a cause, possibly the codes that a database attached to it, and possibly the
failure it was raised from. The wording of each cause is in one place. -/

namespace Polyquery

open Text

/-- What is wrong with the arguments of a call. -/
inductive Invalid where
  | operator (given : Value)
  | listTooLong (column : String) (count limit : Int)
  | noPathSegments
  | pathSegment (segment : String)
  | noRows
  | emptyRow
  | rowShape (index : Nat) (expected got : List Value)
  | noAssignments
  | noPaths
  | noConflictColumns
  | missingConflictColumns (missing : List Value)
  | missingUpdateColumns (missing : List Value)
  | noUpdateColumns
  | joinKind (given : Value)
  | direction (given : Value)
  | negative (name : String) (given : Value)
  | notAList (column : Value)
  | bounds (column : Value)
  | path (given : Value)
  | unselectedKey (key : String) (columns : List Value)

/-- The text of a list with too many values. -/
def listTooLongText (column count limit : String) : String :=
  "IN list for column '" ++ column ++ "' has " ++ count ++ " values; the limit is " ++ limit ++ "."

/-- The code of a list with too many values. -/
def listTooLongCode : String := "IN_GUARD_VIOLATION"

/-- The text of a feature that a dialect lacks. -/
def unsupportedText (feature dialect : String) : String :=
  "Unsupported operation for dialect '" ++ dialect ++ "': " ++ feature ++ "."

/-- The text of a change that readonly mode declines. -/
def readonlyText : String := "Database is in readonly mode"

/-- The comparison operators a statement may use, in order of their characters. -/
def operatorSpellings : List String := ["!=", "<", "<=", "<>", "=", ">", ">=", "LIKE", "NOT LIKE"]

namespace Invalid

def message : Invalid → String
  | .operator given => "Unsupported comparison operator: " ++ given.literal ++ "."
  | .listTooLong column count limit => listTooLongText column (toString count) (toString limit)
  | .noPathSegments => "JSON path needs at least one segment after the column."
  | .pathSegment segment => "Invalid JSON path segment: " ++ quoted segment ++ "."
  | .noRows => "INSERT requires at least one row."
  | .emptyRow => "INSERT rows must not be empty."
  | .rowShape index _ _ => "Row " ++ toString index ++ " has different columns than row 0."
  | .noAssignments => "UPDATE requires at least one column."
  | .noPaths => "json_set requires at least one path."
  | .noConflictColumns => "Upsert requires at least one conflict column."
  | .missingConflictColumns missing => "Conflict columns missing from row: " ++ (Value.list missing).literal ++ "."
  | .missingUpdateColumns missing => "Update columns missing from row: " ++ (Value.list missing).literal ++ "."
  | .noUpdateColumns => "Upsert requires at least one update column."
  | .joinKind given => "Unsupported join type: " ++ given.literal ++ "."
  | .direction given => "Invalid order direction: " ++ given.literal ++ "."
  | .negative name _ => name ++ " must be >= 0."
  | .notAList column => "IN values for column '" ++ column.plain ++ "' must be a list."
  | .bounds column => "BETWEEN on column '" ++ column.plain ++ "' needs exactly two bounds."
  | .path given => "JSON path " ++ given.literal ++ " must be 'column.key'."
  | .unselectedKey key _ => "Keyset key " ++ quoted key ++ " is not in the projection."

/-- The code by which programs tell invalid arguments apart. -/
def code : Invalid → String
  | .operator _ => "INVALID_OPERATOR"
  | .listTooLong _ _ _ => listTooLongCode
  | .noPathSegments | .pathSegment _ | .path _ => "INVALID_JSON_PATH"
  | .noRows | .emptyRow => "EMPTY_INSERT"
  | .rowShape _ _ _ => "ROW_SHAPE_MISMATCH"
  | .noAssignments | .noPaths => "EMPTY_UPDATE"
  | .noConflictColumns | .missingConflictColumns _ | .missingUpdateColumns _ | .noUpdateColumns =>
    "INVALID_UPSERT"
  | .joinKind _ => "INVALID_JOIN"
  | .direction _ => "INVALID_ORDER"
  | .negative _ _ | .notAList _ => "INVALID_ARGUMENT"
  | .bounds _ => "INVALID_BETWEEN"
  | .unselectedKey _ _ => "KEYSET_KEY_NOT_SELECTED"

/-- A list of texts as a value. -/
def texts (xs : List String) : Value := .list (xs.map .text)

/-- What the code refers to. -/
def details : Invalid → Particulars
  | .operator given => [("operator", given), ("allowed", texts operatorSpellings)]
  | .listTooLong column count limit => [("column", .text column), ("count", .int count), ("limit", .int limit)]
  | .pathSegment segment => [("segment", .text segment)]
  | .rowShape _ expected got => [("expected", .list expected), ("got", .list got)]
  | .missingConflictColumns missing | .missingUpdateColumns missing => [("missing", .list missing)]
  | .joinKind given => [("type", given)]
  | .direction given => [("direction", given)]
  | .negative name given => [(name, given)]
  | .notAList column | .bounds column => [("column", column)]
  | .path given => [("path", given)]
  | .unselectedKey key columns => [("key", .text key), ("columns", .list columns)]
  | .noPathSegments | .noRows | .emptyRow | .noAssignments | .noPaths | .noConflictColumns
  | .noUpdateColumns => []

end Invalid

/-- Why a statement cannot be written. -/
inductive Uncompilable where
  | unknownDialect (name : String) (registered : List String)
  | notAFilter (kind : String)

namespace Uncompilable

def message : Uncompilable → String
  | .unknownDialect name registered =>
    "Unsupported dialect: '" ++ name ++ "'. Registered dialects: " ++ quotedList registered ++ "."
  | .notAFilter kind => "Unknown filter node: " ++ kind

/-- The clause at fault. -/
def clause : Uncompilable → Option String
  | .unknownDialect _ _ => none
  | .notAFilter _ => some "WHERE"

end Uncompilable

/-- Which rule declined a statement. -/
inductive Rule where
  | readonlyMode
  | tableNotAllowed
  | tableDenied
  | operationDenied
  | guardDeclined
  | guardFailed (message : String)

/-- A statement declined by policy, with its operation and table. -/
structure Rejection where
  rule : Rule
  operation : Option String
  table : Option String

namespace Rejection

def message (r : Rejection) : String :=
  let operation := r.operation.getD "None"
  let table := r.table.getD "None"
  match r.rule with
  | .readonlyMode => readonlyText
  | .tableNotAllowed => "Table '" ++ table ++ "' is not allowed."
  | .tableDenied => "Table '" ++ table ++ "' is denied."
  | .operationDenied => "Operation '" ++ operation ++ "' is denied on table '" ++ table ++ "'."
  | .guardDeclined => "Policy hook rejected " ++ operation ++ "."
  | .guardFailed message => "Policy hook rejected " ++ operation ++ ": " ++ message

end Rejection

/-- What a failed execution means for its transaction: `retryable` ones may succeed when all is replayed. -/
inductive Severity where
  | unclassified
  | retryable
  | fatal
deriving DecidableEq, Repr

/-- A statement that the database refused. -/
structure ExecutionFault where
  severity : Severity
  message : String
  sql : Option String
  code : Value

/-- The kinds of failures that the library raises itself. -/
inductive OwnKind where
  | general
  | invalid
  | listTooLong
  | uncompilable
  | unsupported
  | rejected
  | readonly
  | execution (severity : Severity)
deriving DecidableEq, Repr

namespace OwnKind

/-- The kinds that a failure of a kind belongs to, the narrowest first. -/
def lineage : OwnKind → List OwnKind
  | general => [general]
  | invalid => [invalid, general]
  | listTooLong => [listTooLong, invalid, general]
  | uncompilable => [uncompilable, general]
  | unsupported => [unsupported, general]
  | rejected => [rejected, general]
  | readonly => [readonly, rejected, general]
  | execution .unclassified => [execution .unclassified, general]
  | execution severity => [execution severity, execution .unclassified, general]

end OwnKind

/-- The kinds of errors from outside the library. -/
inductive ForeignKind where
  | database
  | runtime
  | value
deriving DecidableEq, Repr

/-- Everything that can go wrong. Of the library's own failures, `raised` ones come from a caller, who chose
their text and what else they tell. -/
inductive Cause where
  | invalid (why : Invalid)
  | uncompilable (why : Uncompilable)
  | unsupported (feature dialect : String)
  | rejected (rejection : Rejection)
  | execution (fault : ExecutionFault)
  | raised (kind : OwnKind) (arguments : List Value) (about : Particulars)
  | foreign (kind : ForeignKind) (arguments : List Value)
  | interrupt (arguments : List Value)
  | badData (issues : List Issue)
  /-- A value of a kind that has no place there; the text is empty where nobody is told it. -/
  | wrongType (text : String)
  | noAttribute
  | overflow
  | missingKey (key : Value)
  | missingPackage (message : String)
  /-- The next member of a row without further members was wanted. -/
  | exhausted
  /-- Bytes of a byte string that belong to no text, and where they begin. -/
  | undecodable (bytes : List UInt8) (position : Nat)

/-- Codes that a database attached to an error of its own. -/
structure AttachedCodes where
  sqlState : Value := .null
  serverCode : Value := .null
  fileCode : Value := .null

/-- A failure: its cause, the codes attached to it, and the failure it was raised from. -/
inductive Failure where
  | mk (cause : Cause) (codes : AttachedCodes) (origin : Option Failure)

namespace Failure

def cause : Failure → Cause
  | mk cause _ _ => cause

def codes : Failure → AttachedCodes
  | mk _ codes _ => codes

def origin : Failure → Option Failure
  | mk _ _ origin => origin

/-- A failure on its own. -/
def of (cause : Cause) : Failure := mk cause {} none

/-- A failure raised from another. -/
def chained (cause : Cause) (origin : Failure) : Failure := mk cause {} (some origin)

def invalid (why : Invalid) : Failure := of (.invalid why)

def uncompilable (why : Uncompilable) : Failure := of (.uncompilable why)

def unsupported (feature dialect : String) : Failure := of (.unsupported feature dialect)

def wrongType : Failure := of (.wrongType "")

def illTyped (text : String) : Failure := of (.wrongType text)

def noAttribute : Failure := of .noAttribute

def badValue (message : String) : Failure := of (.foreign .value [.text message])

/-- The kind of a failure that the library raises itself. -/
def ownKind? (f : Failure) : Option OwnKind :=
  match f.cause with
  | .invalid (.listTooLong _ _ _) => some .listTooLong
  | .invalid _ => some .invalid
  | .uncompilable _ => some .uncompilable
  | .unsupported _ _ => some .unsupported
  | .rejected ⟨.readonlyMode, _, _⟩ => some .readonly
  | .rejected _ => some .rejected
  | .execution fault => some (.execution fault.severity)
  | .raised kind _ _ => some kind
  | _ => none

/-- The arguments that an error carries. -/
def arguments (f : Failure) : List Value :=
  match f.cause with
  | .invalid why => [.text why.message]
  | .uncompilable why => [.text why.message]
  | .unsupported feature dialect => [.text (unsupportedText feature dialect)]
  | .rejected rejection => [.text rejection.message]
  | .execution fault => [.text fault.message]
  | .missingPackage text | .wrongType text => [.text text]
  | .raised _ arguments _ | .foreign _ arguments | .interrupt arguments => arguments
  | .missingKey key => [key]
  | .badData _ | .noAttribute | .overflow | .exhausted | .undecodable _ _ => []

/-- The text of bytes that belong to no text. A single one is shown. -/
def undecodableText (bytes : List UInt8) (position : Nat) : String :=
  let found := match bytes with
    | [byte] => "byte 0x" ++ String.ofList (hex 2 byte.toNat) ++ " in position " ++ toString position
    | _ => "bytes in position " ++ toString position ++ "-" ++ toString (position + bytes.length - 1)
  "'utf-8' codec can't decode " ++ found ++ ": invalid utf-8"

/-- The text of a failure. A missing key is quoted. -/
def message (f : Failure) : String :=
  match f.cause with
  | .missingKey key => key.literal
  | .badData issues => Issue.texts issues
  | .undecodable bytes position => undecodableText bytes position
  | _ => Value.plainArguments f.arguments

/-- Interrupts pass through every handler but the ones that clean up. -/
def isInterrupt (f : Failure) : Bool :=
  match f.cause with
  | .interrupt _ => true
  | _ => false

/-- The severity of a failure of execution. -/
def severity? (f : Failure) : Option Severity :=
  match f.ownKind? with
  | some (.execution severity) => some severity
  | _ => none

def isExecution (f : Failure) : Bool := f.severity?.isSome

def isRejection (f : Failure) : Bool := f.ownKind? = some .rejected || f.ownKind? = some .readonly

/-- Whether the library raised the failure itself, for a reason of its own. -/
def isOwn (f : Failure) : Bool := f.ownKind?.isSome

end Failure

end Polyquery
