import Polyquery.Query.State
import Polyquery.Validation.Checked

/-! Queries from data. Filters may nest groups to any depth; the data of a group lies deeper in the data of the
query, and reading ends with it. -/

namespace Polyquery

open Check

namespace JoinTerm

def kinds : List (String × JoinKind) := [("INNER", .inner), ("LEFT", .left), ("RIGHT", .right)]

def check : Value → Checked JoinTerm :=
  record .notSettings .unknownField ["table", "left", "operator", "right", "type"] fun fields =>
    (fun table left operator right kind => { table, left, operator, right, kind : JoinTerm })
      <$> field "table" text fields
      <*> field "left" text fields
      <*> fieldOr "operator" "=" text fields
      <*> field "right" text fields
      <*> fieldOr "type" .inner (word kinds .notAChoice) fields

end JoinTerm

namespace HavingTerm

def check : Value → Checked HavingTerm :=
  record .notSettings .unknownField ["expression", "operator", "value"] fun fields =>
    (fun expression operator value => { expression, operator, value : HavingTerm })
      <$> field "expression" text fields
      <*> field "operator" text fields
      <*> field "value" any fields

end HavingTerm

namespace OrderTerm

def directions : List (String × Direction) := [("ASC", .ascending), ("DESC", .descending)]

def check : Value → Checked OrderTerm :=
  record .notSettings .unknownField ["column", "direction"] fun fields =>
    (fun column direction => { column, direction : OrderTerm })
      <$> field "column" text fields
      <*> fieldOr "direction" .ascending (word directions .notAChoice) fields

end OrderTerm

def visibilities : List (String × Visibility) :=
  [("default", .live), ("with_trashed", .withTrashed), ("only_trashed", .onlyTrashed)]

namespace Filter

def connectives : List (String × Sql.Connective) := [("AND", .and), ("OR", .or)]

def connectiveField (fields : Fields) : Checked Sql.Connective :=
  fieldOr "boolean" .and (word connectives .notAChoice) fields

def checkBasic (fields : Fields) : Checked Filter :=
  (fun column operator value connective => basic column operator value connective)
    <$> field "column" text fields
    <*> field "operator" text fields
    <*> fieldOr "value" .null any fields
    <*> connectiveField fields

def checkIn (fields : Fields) : Checked Filter :=
  (fun column values negated connective => isIn column values negated connective)
    <$> field "column" text fields
    <*> fieldOr "values" [] (members .notTuple any) fields
    <*> fieldOr "negate" false bool fields
    <*> connectiveField fields

def checkNull (fields : Fields) : Checked Filter :=
  (fun column negated connective => isNull column negated connective)
    <$> field "column" text fields
    <*> fieldOr "negate" false bool fields
    <*> connectiveField fields

def checkBetween (fields : Fields) : Checked Filter :=
  (fun column low high negated connective => between column low high negated connective)
    <$> field "column" text fields
    <*> field "low" any fields
    <*> field "high" any fields
    <*> fieldOr "negate" false bool fields
    <*> connectiveField fields

def checkJson (fields : Fields) : Checked Filter :=
  (fun path operator value connective => json path operator value connective)
    <$> field "path" text fields
    <*> field "operator" text fields
    <*> fieldOr "value" .null any fields
    <*> connectiveField fields

/-- The kinds of filters without a nested query: their fields, and how they are read. -/
def plainKinds : List (String × List String × (Fields → Checked Filter)) :=
  [("basic", ["column", "operator", "value"], checkBasic), ("in", ["column", "values", "negate"], checkIn),
   ("null", ["column", "negate"], checkNull), ("between", ["column", "low", "high", "negate"], checkBetween),
   ("json", ["path", "operator", "value"], checkJson)]

/-- A filter of a kind without a nested query. -/
def checkPlain (kind : Value) (fields : Fields) : Checked Filter :=
  match kind with
  | .text kind => match plainKinds.find? fun entry => entry.1 = kind with
    | some (_, names, check) =>
      ((check fields).withIssues
        (unknownFields .unknownField ("kind" :: "boolean" :: names) fields)).under (.field kind)
    | none => Checked.issue .unknownFilterKind (.map fields)
  | _ => Checked.issue .unknownFilterKind (.map fields)

end Filter

namespace QueryOf

def fieldNames : List String :=
  ["table", "columns", "filters", "joins", "group_by", "having", "order_by", "limit", "offset", "timeout_ms",
   "visibility"]

/-- A query from its fields, the filters being read already. -/
def checkFields (filters : Checked (List Filter)) (fields : Fields) : Checked Query :=
  ((fun table columns filters joins groupBy having orderBy limit offset timeout visibility =>
      { table, columns := columns.map Value.text, filters, joins, groupBy := groupBy.map Value.text, having,
        orderBy, limit, offset, timeout, visibility : Query })
    <$> fieldOr "table" "" text fields
    <*> fieldOr "columns" ["*"] (list text) fields
    <*> filters
    <*> fieldOr "joins" [] (list JoinTerm.check) fields
    <*> fieldOr "group_by" [] (list text) fields
    <*> fieldOr "having" [] (list HavingTerm.check) fields
    <*> fieldOr "order_by" [] (list OrderTerm.check) fields
    <*> fieldOr "limit" none optionalInteger fields
    <*> fieldOr "offset" none optionalInteger fields
    <*> fieldOr "timeout_ms" none optionalInteger fields
    <*> fieldOr "visibility" .live (encodedWord visibilities .notAMember) fields).withIssues
  (unknownFields .unknownField fieldNames fields)

end QueryOf

/-- What a value says as a query, as a filter, and as a list of filters. -/
structure QueryReading where
  query : Checked Query
  filter : Checked Filter
  filters : Checked (List Filter)

namespace QueryReading

/-- The reading under a text key. -/
def find? (name : String) (readings : List (Value × QueryReading)) : Option QueryReading :=
  (readings.find? fun (k, _) => match k with
    | .text s => s = name
    | _ => false).map (·.2)

/-- The filters of a query, none when the field is absent. -/
def filtersField (readings : List (Value × QueryReading)) : Checked (List Filter) :=
  match find? "filters" readings with
  | some r => r.filters.under (.field "filters")
  | none => .ok []

/-- The nested query of a group. -/
def stateField (given : Value) (readings : List (Value × QueryReading)) : Checked Query :=
  match find? "state" readings with
  | some r => r.query.under (.field "state")
  | none => (Checked.issue .missing given : Checked Query).under (.field "state")

/-- A mapping as a filter of the kind that it names. -/
def filterOf (fields : Fields) (readings : List (Value × QueryReading)) : Checked Filter :=
  match Value.field? "kind" fields with
  | none => Checked.issue .noFilterKind (.map fields)
  | some (.text "group") =>
    (((fun query connective => Filter.group query connective)
        <$> stateField (.map fields) readings
        <*> Filter.connectiveField fields).withIssues
      (unknownFields .unknownField ["kind", "boolean", "state"] fields)).under (.field "group")
  | some kind => Filter.checkPlain kind fields

/-- A mapping, with the readings of its fields. -/
def ofFields (fields : Fields) (readings : List (Value × QueryReading)) : QueryReading where
  query := QueryOf.checkFields (filtersField readings) fields
  filter := filterOf fields readings
  filters := Checked.issue .notList (.map fields)

/-- A collection, with the readings of its members. -/
def ofMembers (given : Value) (readings : List QueryReading) : QueryReading where
  query := Checked.issue .notSettings given
  filter := Checked.issue .notFilter given
  filters := Checked.all (readings.zipIdx.map fun (r, i) => r.filter.under (.index (Int.ofNat i)))

/-- A value that holds no others. -/
def ofScalar (given : Value) : QueryReading where
  query := Checked.issue .notSettings given
  filter := Checked.issue .notFilter given
  filters := Checked.issue .notList given

mutual

/-- The readings of a value. -/
def ofValue : Value → QueryReading
  | .map fields => ofFields fields (ofEntries fields)
  | .list xs => ofMembers (.list xs) (ofValues xs)
  | .tuple xs => ofMembers (.tuple xs) (ofValues xs)
  | .set xs => ofMembers (.set xs) (ofValues xs)
  | v => ofScalar v

/-- The readings of the members of a collection. -/
def ofValues : List Value → List QueryReading
  | [] => []
  | x :: xs => ofValue x :: ofValues xs

/-- The readings of the values of a mapping. -/
def ofEntries : List (Value × Value) → List (Value × QueryReading)
  | [] => []
  | (k, v) :: rest => (k, ofValue v) :: ofEntries rest

end

end QueryReading

namespace Query

/-- A query from data. -/
def check (v : Value) : Checked Query := (QueryReading.ofValue v).query

end Query

namespace Filter

/-- Filters from data, as the field of a query. -/
def checkAll (v : Value) : Checked (List Filter) := (QueryReading.ofValue v).filters.under (.field "filters")

end Filter

end Polyquery
