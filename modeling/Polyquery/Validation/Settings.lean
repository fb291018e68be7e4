import Polyquery.Settings.Basic
import Polyquery.Text.Lower
import Polyquery.Validation.Checked

/-! Settings from data, and data from settings. -/

namespace Polyquery

open Check

namespace TableRules

/-- The name of a key and the texts under it. Keys that encode the same text are one. -/
def checkEntry : Value × Value → Checked (String × List String)
  | (key, v) =>
    (Prod.mk <$> (text key).under (.field "[key]") <*> list text v).under (stepOf key)

def checkDenied : Value → Checked (List (String × List String))
  | .map entries => Association.ofEntries <$> Checked.all (entries.map checkEntry)
  | v => Checked.issue .notMapping v

def checkFields (fields : Fields) : Checked TableRules :=
  (fun allowed denied deniedOperations => { allowed, denied, deniedOperations })
    <$> fieldOr "allowed_tables" [] (list text) fields
    <*> fieldOr "denied_tables" [] (list text) fields
    <*> fieldOr "denied_operations" [] checkDenied fields

/-- Rules from data, as a part of settings. -/
def check : Value → Checked TableRules :=
  record .notRules .unknownArgument ["allowed_tables", "denied_tables", "denied_operations"] checkFields

/-- Rules from data on their own, where unknown fields are passed over. -/
def checkAlone : Value → Checked TableRules
  | .map fields => (checkFields fields).withIssues (unnamedFields fields)
  | v => Checked.issue .notRules v

/-- Rules as data. -/
def toValue (r : TableRules) : Value :=
  let texts (xs : List String) : Value := .list (xs.map .text)
  .map [(.text "allowed_tables", texts r.allowed), (.text "denied_tables", texts r.denied),
    (.text "denied_operations", .map (r.deniedOperations.map fun (t, ops) => (.text t, texts ops)))]

end TableRules

namespace SoftDelete

def modes : List (String × MarkerMode) := [("timestamp", .timestamp), ("boolean", .boolean)]

/-- The value that restored rows get where none is given: zero when the mode is spelt as the boolean one. -/
def restoredDefault (fields : Fields) : Value :=
  match Value.field? "mode" fields with
  | some mode => if Text.lower mode.plain = "boolean" then .int 0 else .null
  | none => .null

/-- Soft deletion from data. -/
def check : Value → Checked SoftDelete :=
  record .notSettings .unknownField ["enabled", "column", "mode", "deleted_value", "restored_value"] fun fields =>
    (fun enabled column mode deletedValue restoredValue =>
        { enabled, column, mode, deletedValue, restoredValue : SoftDelete })
      <$> fieldOr "enabled" false bool fields
      <*> fieldOr "column" "deleted_at" text fields
      <*> fieldOr "mode" .timestamp (encodedWord modes .notAMember) fields
      <*> fieldOr "deleted_value" (.int 1) any fields
      <*> fieldOr "restored_value" (restoredDefault fields) any fields

/-- Soft deletion as data. -/
def toValue (s : SoftDelete) : Value :=
  .map [(.text "enabled", .bool s.enabled), (.text "column", .text s.column), (.text "mode", .text s.mode.name),
    (.text "deleted_value", s.deletedValue), (.text "restored_value", s.restoredValue)]

end SoftDelete

namespace Retry

/-- Retry settings from data. -/
def check : Value → Checked Retry :=
  let base : Retry := {}
  record .notSettings .unknownField ["attempts", "base_delay", "max_delay", "jitter"] fun fields =>
    (fun attempts baseDelay maxDelay jitter => { attempts, baseDelay, maxDelay, jitter : Retry })
      <$> fieldOr "attempts" base.attempts (integerFrom 1) fields
      <*> fieldOr "base_delay" base.baseDelay nonNegative fields
      <*> fieldOr "max_delay" base.maxDelay nonNegative fields
      <*> fieldOr "jitter" base.jitter nonNegative fields

/-- Retry settings as data. -/
def toValue (r : Retry) : Value :=
  .map [(.text "attempts", .int r.attempts), (.text "base_delay", .real r.baseDelay),
    (.text "max_delay", .real r.maxDelay), (.text "jitter", .real r.jitter)]

end Retry

namespace Settings

/-- The names of all fields. -/
def fieldNames : List String :=
  ["dialect", "prefix", "readonly", "test_mode", "max_in_params", "soft_delete", "retry", "statement_cache_size",
   "policy"]

/-- Settings from data. -/
def check : Value → Checked Settings :=
  let base : Settings := {}
  record .notSettings .unknownField fieldNames fun fields =>
    (fun dialect tablePrefix readonly testMode maxInValues softDelete retry cacheSize rules =>
        { dialect, tablePrefix, readonly, testMode, maxInValues, softDelete, retry, cacheSize, rules : Settings })
      <$> fieldOr "dialect" base.dialect text fields
      <*> fieldOr "prefix" base.tablePrefix optionalText fields
      <*> fieldOr "readonly" base.readonly bool fields
      <*> fieldOr "test_mode" base.testMode bool fields
      <*> fieldOr "max_in_params" base.maxInValues (integerFrom 1) fields
      <*> fieldOr "soft_delete" base.softDelete SoftDelete.check fields
      <*> fieldOr "retry" base.retry Retry.check fields
      <*> fieldOr "statement_cache_size" base.cacheSize (integerFrom 0) fields
      <*> fieldOr "policy" base.rules TableRules.check fields

/-- Settings as the fields of a mapping. -/
def toFields (s : Settings) : List (Value × Value) :=
  [(.text "dialect", .text s.dialect), (.text "prefix", (s.tablePrefix.map Value.text).getD .null),
   (.text "readonly", .bool s.readonly), (.text "test_mode", .bool s.testMode),
   (.text "max_in_params", .int s.maxInValues), (.text "soft_delete", s.softDelete.toValue),
   (.text "retry", s.retry.toValue), (.text "statement_cache_size", .int s.cacheSize),
   (.text "policy", s.rules.toValue)]

/-- Settings as data. -/
def toValue (s : Settings) : Value := .map s.toFields

end Settings

end Polyquery
