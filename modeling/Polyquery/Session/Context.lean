import Polyquery.Sql.Command

/-! The context of one statement on its way to the database: what policies, layers and drivers see of it. -/

namespace Polyquery

/-- A statement about to run. Notes are free for layers to attach. -/
structure Context where
  sql : String
  params : List Value := []
  operation : Operation := .raw
  table : Option String := none
  route : Option String := none
  timeout : Option Int := none
  notes : Row := []

/-- The words that begin raw statements which change data or tables. -/
def writeVerbs : List String :=
  ["INSERT", "UPDATE", "DELETE", "REPLACE", "MERGE", "UPSERT", "CREATE", "DROP", "ALTER", "TRUNCATE", "RENAME",
   "GRANT", "REVOKE"]

namespace Context

/-- The first word of a text behind spaces, line ends and opening parentheses, in capitals. -/
def leadingWord? (sql : String) : Option String :=
  let skipped := ['\x20', '\t', '\r', '\n', '(']
  (Text.words (sql.toList.dropWhile skipped.contains)).head?.map fun word => String.ofList (Text.capital word)

/-- Whether a statement changes anything; raw ones are judged by their first word. -/
def isWrite (c : Context) : Bool :=
  match c.operation with
  | .insert | .update | .delete | .upsert => true
  | .raw => (leadingWord? c.sql).any writeVerbs.contains
  | .select => false

/-- The context with more notes, later ones winning. -/
def withNotes (c : Context) (notes : Row) : Context := { c with notes := c.notes.merge notes }

/-- The context with more notes of the caller's. Their names are texts, and none of them stands for the context
itself. -/
def annotated (c : Context) (notes : Row) : Except Failure Context :=
  let isName : Value → Bool
    | .text name => name ≠ "self"
    | _ => false
  if notes.columns.all isName then .ok (c.withNotes notes) else .error .wrongType

/-- Whether two contexts stand for the same statement; notes do not count. -/
def isSame (a b : Context) : Bool :=
  a.sql = b.sql && Value.allAlike a.params b.params && a.operation = b.operation && a.table = b.table &&
    a.route = b.route && a.timeout = b.timeout

end Context

/-- What a statement brought back: rows, the number of rows it affected, and the key it generated. -/
structure Result where
  rows : List Row := []
  rowcount : Value := .int 0
  lastKey : Value := .null

namespace Result

/-- The number of rows a statement concerned. -/
def size (r : Result) : Value := if r.rows.isEmpty then r.rowcount else .int r.rows.length

end Result

end Polyquery
