import Polyquery.Sql.Fragment
import Polyquery.Value.Document
import Polyquery.Value.Name

/-! Paths into JSON documents. The segments of a path are plain words, and become literals of the statement in
the notation of each dialect. -/

namespace Polyquery.Sql

namespace JsonPath

/-- Whether a character may stand in a segment. -/
def isPathChar (c : Char) : Bool := c.isAlphanum || c = '_'

/-- Whether a segment is a word; one line feed may follow it. -/
def isSegment (segment : String) : Bool :=
  let cs := segment.toList
  let word := if cs.getLast? = some '\n' then cs.dropLast else cs
  !word.isEmpty && word.all isPathChar

/-- A segment that must be a word. -/
def checked (segment : String) : Except Failure String :=
  if isSegment segment then .ok segment else .error (.invalid (.pathSegment segment))

/-- The segments of a path, all of them words and at least one. -/
def validate (segments : List String) : Except Failure (List String) :=
  if segments.isEmpty then .error (.invalid .noPathSegments) else segments.mapM checked

/-- The segments that the members of a value are; all members must be texts. -/
def ofValue (given : Value) : Except Failure (List String) :=
  if !given.isTruthy then .error (.invalid .noPathSegments)
  else do
    (← given.members).mapM fun segment => match segment with
      | .text s => checked s
      | _ => .error .wrongType

/-- Whether a segment counts the members of a list. -/
def isPosition (segment : String) : Bool := segment ≠ "" && segment.toList.all Char.isDigit

/-- A path in dollar notation: positions in brackets, keys after a dot. -/
def dollar (segments : List String) : String :=
  segments.foldl (fun path s => path ++ (if isPosition s then "[" ++ s ++ "]" else "." ++ s)) "$"

/-- A path in brace notation: segments between braces, with commas. -/
def brace (segments : List String) : String := "\x7b" ++ Text.joined "," segments ++ "\x7d"

end JsonPath

open Fragment (words)

/-- The text at a path inside a document column. The path is read only where the dialect knows paths. -/
def jsonExtract (d : Dialect) (column : Fragment) (segments : Except Failure (List String)) :
    Except Failure Fragment :=
  match d with
  | .ansi => .error (.unsupported "JSON path extraction" d.name)
  | .postgres => do
    let path ← segments
    pure (column ++ [.words " #>> ", .literal (JsonPath.brace path)])
  | .sqlite => call "json_extract(" ")"
  | .mysql => call "JSON_UNQUOTE(JSON_EXTRACT(" "))"
  | .sqlserver => call "JSON_VALUE(" ")"
where
  call (opening closing : String) : Except Failure Fragment := do
    let path ← segments
    pure (.words opening :: column ++ [.words ", ", .literal (JsonPath.dollar path), .words closing])

/-- A document with the value at a path replaced by a new one. The path is read only where the dialect knows
paths. -/
def jsonSet (d : Dialect) (target : Fragment) (segments : Except Failure (List String)) (value : Fragment) :
    Except Failure Fragment :=
  match d with
  | .ansi => .error (.unsupported "JSON path update" d.name)
  | .postgres => do
    let path ← segments
    pure (.words "jsonb_set(CAST(" :: target ++
      [.words " AS jsonb), ", .literal (JsonPath.brace path), .words ", CAST("] ++ value ++ words " AS jsonb))")
  | .sqlite => call "json_set(" ", json(" "))"
  | .mysql => call "JSON_SET(" ", CAST(" " AS JSON))"
  | .sqlserver => call "JSON_MODIFY(" ", " ")"
where
  call (opening before closing : String) : Except Failure Fragment := do
    let path ← segments
    pure (.words opening :: target ++ [.words ", ", .literal (JsonPath.dollar path), .words before] ++ value ++
      words closing)

/-- The parameter that `jsonSet` binds for a value: its document, or the value itself where the dialect takes
scalars only. -/
def jsonParam (d : Dialect) (value : Value) : Except Failure Value :=
  match d, value with
  | .sqlserver, .map _ | .sqlserver, .list _ => .error (.unsupported "JSON object values in json_set" d.name)
  | .sqlserver, v => .ok v
  | _, v => match v.document? with
    | some document => .ok (.text document)
    | none => .error .wrongType

end Polyquery.Sql
