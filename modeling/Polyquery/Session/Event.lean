import Polyquery.Query.State
import Polyquery.Session.Context
import Polyquery.Session.Recorder
import Polyquery.Session.StatementCache
import Polyquery.Settings.Basic

/-! What a session shows to the outside: the answers to its calls, and the journal of events along the way. -/

namespace Polyquery

/-- Where a statement goes. Of the two connections of a handle the primary takes everything, a replica only reads; further
ones, told apart by their numbers, take what is handed to them without a handle. -/
inductive Link where
  | primary
  | replica
  | further (number : Nat)
deriving DecidableEq, Repr

/-- A page of rows, and the key from which the next page goes on. -/
structure Page where
  rows : List Row
  next : Value

/-- A handle's settings and state in short; the values of soft deletion are document data. -/
structure Overview where
  dialect : String
  tablePrefix : Option String
  readonly : Bool
  testMode : Bool
  scope : Row
  route : Option String
  hasReplica : Bool
  inTransaction : Bool
  softDelete : SoftDelete
  maxInValues : Int
  layers : Nat
  guards : Nat

/-- The answer to a call. -/
inductive Answer where
  | nothing
  | value (value : Value)
  | values (values : List Value)
  | rows (rows : List Row)
  | page (page : Page)
  | result (result : Result)
  | statement (statement : Statement)
  | query (query : Query)
  | recorded (last : Option Recorded)
  | history (history : List Recorded)
  | overview (overview : Overview)
  | modes (dialect : String) (readonly testMode : Bool) (scope : Row)
  | settings (settings : Settings)
  | driverState (inTransaction : Bool) (cache : Option (Nat × Nat × Nat))

/-- A call to a driver. -/
inductive DriverCall where
  | prepare (sql : String)
  | execute (sql : String) (params : List Value)
  | lastKey
  | start
  | commit
  | rollback

/-- A call to a connection or its cursor. -/
inductive WireCall where
  | cursor
  | execute (sql : String) (params : List Value)
  | close
  | commit
  | rollback

/-- How much a log record matters. -/
inductive LogLevel where
  | debug
  | info
  | warning
  | error
  | critical
deriving DecidableEq, Repr

/-- Something that happened during a session. -/
inductive Event where
  | driver (link : Link) (call : DriverCall)
  | wire (link : Link) (call : WireCall)
  | columnLookup (table column : String)
  | reflection (table : String) (schema : Option String)
  | guard (name : Option String)
  | layerEntered (name : Option String)
  | layerLeft (name : Option String) (rowcount : Value)
  | layerFailed (name : Option String) (failure : Failure)
  | layerCaught (name : Option String) (message : String)
  | layerSaw (context : Context)
  | measured (operation : Operation) (table : Option String) (rows : Value)
  | reported (sql : String) (params : List Value)
  | logged (level : LogLevel) (name : String) (about : Particulars)
  | slept (microseconds : Int)
  | attempt (number : Nat)
  | answered (outcome : Except Failure Answer)

end Polyquery
