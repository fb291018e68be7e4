import Polyquery.Value.Document

/-! Reports: what queries, settings and sessions tell of themselves, as labelled data. -/

namespace Polyquery

/-- Labelled data: values and plain numbers at the leaves, and fields or items above them. -/
inductive Report where
  | value (value : Value)
  | number (number : Int)
  | items (items : List Report)
  | fields (fields : List (String × Report))

namespace Report

def text (s : String) : Report := value (.text s)

def flag (b : Bool) : Report := value (.bool b)

/-- An integer as a value, as settings and queries hold it. -/
def integer (n : Int) : Report := value (.int n)

def nothing : Report := value .null

def text? : Option String → Report
  | some s => text s
  | none => nothing

def integer? : Option Int → Report
  | some n => integer n
  | none => nothing

def number? : Option Int → Report
  | some n => number n
  | none => nothing

/-- A count: a plain number, unless it is no integer. -/
def count : Value → Report
  | .int n => number n
  | v => value v

def texts (xs : List String) : Report := items (xs.map text)

def values (xs : List Value) : Report := value (.list xs)

/-- A row as one value. -/
def row (r : Row) : Report := value (.map r)

/-- Values under names as fields. -/
def particulars (about : Particulars) : Report := fields (about.map fun (name, v) => (name, value v))

/-- A mapping as fields, named as in a document; any other value as it is. -/
def ofNamed : Value → Report
  | .map entries => fields (entries.map fun (k, v) => (k.documentScalar?.getD k.plain, value v))
  | v => value v

end Report

end Polyquery
