import Polyquery.Text.Search
import Polyquery.Value.Integer

/-! The SQL dialects and what sets them apart: quotes, placeholders, native upserts, generated keys, statement
timeouts, and the errors after which a transaction may be tried again. -/

namespace Polyquery

/-- The dialects statements can be written in. -/
inductive Dialect where
  | sqlite
  | postgres
  | mysql
  | sqlserver
  | ansi
deriving DecidableEq, Repr

namespace Dialect

def name : Dialect → String
  | sqlite => "sqlite"
  | postgres => "postgres"
  | mysql => "mysql"
  | sqlserver => "sqlserver"
  | ansi => "ansi"

/-- The mark that stands for a bound parameter. -/
def placeholder : Dialect → String
  | postgres | mysql => "%s"
  | sqlite | sqlserver | ansi => "?"

/-- The quote that opens a name. -/
def openQuote : Dialect → Char
  | sqlite | postgres | ansi => '"'
  | mysql => '\x60'
  | sqlserver => '['

/-- The quote that closes a name; inside the name it is written twice. -/
def closeQuote : Dialect → Char
  | sqlite | postgres | ansi => '"'
  | mysql => '\x60'
  | sqlserver => ']'

/-- Whether one statement can insert a row or update it. -/
def hasUpsert : Dialect → Bool
  | sqlite | postgres | mysql => true
  | sqlserver | ansi => false

/-- Whether an insertion can return columns of the new row. -/
def hasReturning : Dialect → Bool
  | postgres => true
  | _ => false

/-- The query for the last generated key, where the connection does not report it. -/
def keyQuery : Dialect → Option String
  | sqlserver => some "SELECT CAST(@@IDENTITY AS BIGINT) AS id"
  | _ => none

/-- A statement that limits the time of the following one, and the statement that lifts the limit. -/
structure Timeout where
  apply : Option String
  lift : Option String
deriving DecidableEq, Repr

/-- The statements for a time limit in milliseconds, one at least. -/
def timeout (d : Dialect) (milliseconds : Int) : Timeout :=
  let n := toString (max 1 milliseconds)
  match d with
  | sqlite => ⟨some ("PRAGMA busy_timeout = " ++ n), none⟩
  | postgres => ⟨some ("SET statement_timeout = " ++ n), some "SET statement_timeout = DEFAULT"⟩
  | mysql => ⟨some ("SET SESSION MAX_EXECUTION_TIME = " ++ n), some "SET SESSION MAX_EXECUTION_TIME = 0"⟩
  | sqlserver => ⟨some ("SET LOCK_TIMEOUT " ++ n), some "SET LOCK_TIMEOUT -1"⟩
  | ansi => ⟨none, none⟩

/-- Whether a time limit can be set at all. -/
def hasTimeout : Dialect → Bool
  | ansi => false
  | _ => true

/-- The statements for a time limit given as a value. It is read as an integer where a limit can be set. -/
def timeoutOf (d : Dialect) (limit : Value) : Except Failure Timeout :=
  if d.hasTimeout then limit.toInteger.map d.timeout else .ok ⟨none, none⟩

/-- The codes of conflicts after which all may be tried again, in order of their characters. -/
def retryCodes : Dialect → List String
  | sqlite => ["5", "6"]
  | postgres => ["40001", "40P01"]
  | mysql => ["1205", "1213", "40001"]
  | sqlserver => ["1205", "40001"]
  | ansi => ["40001"]

/-- The phrases by which messages tell of such conflicts. -/
def retryPhrases : Dialect → List String
  | sqlite => ["database is locked", "database table is locked", "deadlock"]
  | sqlserver => ["deadlock", "(1205)", "snapshot isolation"]
  | postgres | mysql | ansi => ["deadlock", "serialize", "serialization"]

end Dialect

namespace Failure

/-- Whether a text has the form of a state code: five digits or capitals. -/
def isStateCode (s : String) : Bool :=
  let cs := s.toList
  cs.length = 5 && cs.all fun c => c.isDigit || c.isUpper

/-- The code of a database error: the first one attached, else a number or a state code among its arguments. -/
def databaseCode (f : Failure) : Value :=
  match [f.codes.sqlState, f.codes.serverCode, f.codes.fileCode].find? (!·.isNull) with
  | some code => code
  | none => match f.arguments.head? with
    | some (.int n) => .int n
    | some (.bool b) => .bool b
    | some (.text s) => if isStateCode s then .text s else .null
    | _ => .null

end Failure

/-- Whether a failure tells of a conflict after which all may be tried again. -/
def Dialect.isConflict (d : Dialect) (f : Failure) : Bool :=
  let code := f.databaseCode
  (!code.isNull && d.retryCodes.contains code.plain) || d.retryPhrases.any (Text.mentions · f.message)

end Polyquery
