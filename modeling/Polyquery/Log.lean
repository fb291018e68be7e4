import Polyquery.Failure
import Polyquery.Session.Report
import Polyquery.Text.Capital
import Polyquery.Value.Document

/-! The log: records below a threshold are dropped, and so are those of loggers outside the library's own. -/

namespace Polyquery

namespace Log

/-- The names of thresholds. -/
def thresholds : List (String × Nat) :=
  [("CRITICAL", 50), ("FATAL", 50), ("ERROR", 40), ("WARNING", 30), ("WARN", 30), ("INFO", 20), ("DEBUG", 10),
   ("NOTSET", 0)]

/-- The threshold of a name in any case of letters. -/
def thresholdOf (name : Value) : Except Failure Nat :=
  let unknown : Except Failure Nat := .error (.badValue ("Unknown log level: " ++ name.literal))
  match name with
  | .text s => match thresholds.find? fun entry => entry.1 = Text.capitals s with
    | some (_, threshold) => .ok threshold
    | none => unknown
  | .bytes _ => unknown
  | _ => .error .noAttribute

/-- How the log is set up: the name that its loggers share, and the threshold. One handler writes its lines, and
nothing is passed on beyond it. -/
structure Setup where
  root : String
  threshold : Nat

namespace Setup

def handlers (_ : Setup) : Nat := 1

def propagates (_ : Setup) : Bool := false

end Setup

/-- The threshold that holds where none is set. -/
def outerThreshold : Nat := 30

/-- A record offered to the log: as an event with fields, or as a plain message. A `traced` one asks for the failure
that is being handled, unless its fields say otherwise. -/
structure Record where
  isMessage : Bool := false
  logger : String
  level : LogLevel
  traced : Bool := false
  event : Value
  fields : Row := []

end Log

namespace LogLevel

def weight : LogLevel → Nat
  | debug => 10
  | info => 20
  | warning => 30
  | error => 40
  | critical => 50

end LogLevel

namespace Log

mutual

/-- A value as a line shows it: collections are lists, the keys of mappings are texts, and what has no document form
is shown as its literal. -/
def shown : Value → Value
  | .list xs => .list (shownAll xs)
  | .tuple xs => .list (shownAll xs)
  | .map entries => .map (Value.ofEntries (shownEntries entries))
  | .bytes bs => .text (Value.literal (.bytes bs))
  | .set xs => .text (Value.literal (.set xs))
  | v => v

/-- The members of a collection as a line shows them. -/
def shownAll : List Value → List Value
  | [] => []
  | x :: xs => shown x :: shownAll xs

/-- The entries of a mapping as a line shows them. -/
def shownEntries : List (Value × Value) → List (Value × Value)
  | [] => []
  | (k, v) :: rest => (((Value.documentScalar? k).map Value.text).getD k, shown v) :: shownEntries rest

end

/-- The characters that end a line. -/
def lineEnds : List Char :=
  ['\n', '\x0b', '\x0c', '\r', '\x1c', '\x1d', '\x1e', '\u0085', '\u2028', '\u2029']

/-- The number of lines that end in a text. A carriage return and a line feed behind it are one end. -/
def endedLines : List Char → Nat
  | [] => 0
  | '\r' :: '\n' :: rest => endedLines rest + 1
  | c :: rest => if lineEnds.contains c then endedLines rest + 1 else endedLines rest

namespace Record

/-- Whether a logger is the shared one or below it. -/
def isWithin (root : String) (r : Record) : Bool :=
  r.logger = root || (root.toList ++ ['.']).isPrefixOf r.logger.toList

/-- Whether a record is written by the handler. -/
def isWritten (setup : Setup) (r : Record) : Bool :=
  let threshold := if setup.threshold = 0 then outerThreshold else setup.threshold
  r.isWithin setup.root && decide (threshold ≤ r.level.weight)

/-- Whether a record is written although no handler is there for it. -/
def isEmergency (setup : Setup) (r : Record) : Bool :=
  !r.isWithin setup.root && decide (outerThreshold ≤ r.level.weight)

/-- The names that fields cannot have, as they say how a record is offered. -/
def takenNames : List String := ["event", "self", "method_name"]

/-- Whether the fields of a record can be told from the rest of it. The place of the record itself is taken too. -/
def check (r : Record) : Except Failure Unit :=
  let isName : Value → Bool
    | .text name => !takenNames.contains name
    | _ => false
  if r.isMessage then .ok ()
  else if !r.fields.columns.all isName then .error .wrongType
  else if !(r.fields.get "_record").isNull then .error .noAttribute
  else .ok ()

/-- The fields that no line shows, as they are about the record itself or about a failure being handled. -/
def hidden : List String := ["timestamp", "exc_info", "stack_info", "_record", "_from_structlog"]

/-- The fields that lines show. -/
def visible (r : Record) : Row :=
  if r.isMessage then [] else r.fields.filter fun (name, _) => !hidden.contains name.plain

/-- The line of a record as a document without its time: the fields, and what the log adds to them. -/
def line (r : Record) : Row :=
  let event := if r.isMessage then .text r.event.plain else shown r.event
  let added := [(.text "logger", .text r.logger), (.text "level", .text r.level.name)]
  Row.merge (r.visible.map fun (name, v) => (name, shown v))
    (if event.isNull then added else (.text "event", event) :: added)

/-- A field's value in the text of a record: texts stand in quotes where they could be misread. -/
def fieldText : Value → String
  | .text s => if s.toList.any [' ', '\t', '=', '\r', '\n', '"', '\''].contains then Text.quoted s else s
  | v => v.literal

/-- A field of a record; messages have none. -/
def about (r : Record) (name : String) : Value := if r.isMessage then .null else r.fields.get name

/-- Whether a record asks for the failure that is being handled. -/
def asksForFailure (r : Record) : Bool :=
  match Value.field? "exc_info" r.fields with
  | some wish => wish.isTruthy
  | none => r.traced

/-- The fields that the text of a record shows behind all others, on lines of their own. No failure is being handled
when records are offered, so that only one among the fields is shown. -/
def trailing (r : Record) : String :=
  let stack := r.about "stack"
  let failure := r.about "exception"
  (if stack.isNull then ""
    else "\n" ++ stack.plain ++ (if r.asksForFailure || !failure.isNull then "\n\n===\n" else "")) ++
  (if failure.isNull then "" else "\n" ++ failure.plain)

/-- The text of a record, without its time and level. A second name of its logger is shown as the first is. -/
def text (r : Record) : String :=
  let second := r.about "logger_name"
  let names := ["event", "logger", "logger_name", "level", "stack", "exception"]
  let fields := r.visible.filter fun (name, _) => !names.contains name.plain
  r.event.plain ++ " [" ++ r.logger ++ "] " ++ (if second.isNull then "" else "[" ++ second.plain ++ "] ") ++
    Text.joined " " (fields.map fun (name, v) => name.plain ++ "=" ++ fieldText v) ++ r.trailing ++ "\n"

/-- The text of a record for which no handler is there: its message, or the literal of event and fields, which has
no line ends. A traced one shows that no failure is being handled. -/
def emergencyText (r : Record) : String :=
  let message := if r.isMessage then r.event.plain else ""
  if !r.traced then message ++ "\n"
  else message ++ (if message.toList.getLast? = some '\n' then "" else "\n") ++ "NoneType: None\n"

end Record

/-- What the log writes: lines as documents, or the number of lines of text. -/
inductive Written where
  | documents (lines : List Row)
  | lineCount (count : Nat)

/-- What is written for records. -/
def write (setup : Setup) (asDocuments : Bool) (records : List Record) : Except Failure Written := do
  records.forM Record.check
  let written := records.filter (·.isWritten setup)
  if asDocuments then pure (.documents (written.map Record.line))
  else
    let texts := records.filterMap fun r =>
      if r.isWritten setup then some r.text
      else if r.isEmergency setup then some r.emergencyText else none
    pure (.lineCount (endedLines (Text.joined "" texts).toList))

end Log

end Polyquery
