import Polyquery.Number.Double

/-! The values that statements bind, rows hold and settings carry. They are untyped data: scalars, byte strings,
and collections of values. -/

namespace Polyquery

/-- A value as callers hand it over. -/
inductive Value where
  | null
  | bool (b : Bool)
  | int (n : Int)
  | real (x : Double)
  | text (s : String)
  | bytes (bs : List UInt8)
  | list (xs : List Value)
  | tuple (xs : List Value)
  | set (xs : List Value)
  | map (entries : List (Value × Value))
deriving Inhabited

namespace Value

/-- The integer behind a truth value or an integer. -/
def integral? : Value → Option Int
  | .bool b => some (if b then 1 else 0)
  | .int n => some n
  | _ => none

/-- Whether an integer and a binary64 number are the same number. -/
def sameNumber (n : Int) (x : Double) : Bool := x.toInt? = some n

mutual

/-- Whether two values are one key: numbers compare across their kinds, tuples by their members, and a value
that is no number differs from itself. Values that cannot be keys are never the same. -/
def same : Value → Value → Bool
  | .null, .null => true
  | .bool a, v => match v with
    | .bool b => a = b
    | .int n => n = (if a then 1 else 0)
    | .real x => sameNumber (if a then 1 else 0) x
    | _ => false
  | .int n, v => match v with
    | .bool b => n = (if b then 1 else 0)
    | .int m => n = m
    | .real x => sameNumber n x
    | _ => false
  | .real x, v => match v with
    | .bool b => sameNumber (if b then 1 else 0) x
    | .int n => sameNumber n x
    | .real y => x.same y
    | _ => false
  | .text a, .text b => a = b
  | .bytes a, .bytes b => a = b
  | .tuple xs, .tuple ys => sameAll xs ys
  | _, _ => false

/-- Whether two rows of values are the same member by member. -/
def sameAll : List Value → List Value → Bool
  | [], [] => true
  | x :: xs, y :: ys => x.same y && sameAll xs ys
  | _, _ => false

end

mutual

/-- Whether two values are alike in kind and in all that they hold. -/
def alike : Value → Value → Bool
  | .null, .null => true
  | .bool a, .bool b => a = b
  | .int n, .int m => n = m
  | .real x, .real y => x = y
  | .text a, .text b => a = b
  | .bytes a, .bytes b => a = b
  | .list xs, .list ys => allAlike xs ys
  | .tuple xs, .tuple ys => allAlike xs ys
  | .set xs, .set ys => allAlike xs ys
  | .map xs, .map ys => entriesAlike xs ys
  | _, _ => false

/-- Whether two rows of values are alike member by member. -/
def allAlike : List Value → List Value → Bool
  | [], [] => true
  | x :: xs, y :: ys => x.alike y && allAlike xs ys
  | _, _ => false

/-- Whether two rows of entries are alike entry by entry. -/
def entriesAlike : List (Value × Value) → List (Value × Value) → Bool
  | [], [] => true
  | (k, x) :: xs, (l, y) :: ys => k.alike l && x.alike y && entriesAlike xs ys
  | _, _ => false

end

/-- Whether a value counts as true: neither null, nor false, nor a zero, nor empty. -/
def isTruthy : Value → Bool
  | .null => false
  | .bool b => b
  | .int n => n ≠ 0
  | .real x => !x.isZero
  | .text s => s ≠ ""
  | .bytes bs => !bs.isEmpty
  | .list xs | .tuple xs | .set xs => !xs.isEmpty
  | .map entries => !entries.isEmpty

def isNull : Value → Bool
  | .null => true
  | _ => false

/-- An optional text as a value. -/
def ofText? : Option String → Value
  | some s => .text s
  | none => .null

/-- Entries with one more: a key that is there already keeps its place and its spelling and takes the value. -/
def putEntry (key value : Value) : List (Value × Value) → List (Value × Value)
  | [] => [(key, value)]
  | (k, v) :: rest => if k.same key then (k, value) :: rest else (k, v) :: putEntry key value rest

/-- The mapping with the given entries, later ones winning. -/
def ofEntries (entries : List (Value × Value)) : List (Value × Value) :=
  entries.foldl (fun done (k, v) => putEntry k v done) []

/-- The value of a text key. -/
def field? (name : String) (entries : List (Value × Value)) : Option Value :=
  (entries.find? fun (k, _) => match k with
    | .text s => s = name
    | _ => false).map (·.2)

/-- The members of a collection in order, a mapping's keys. -/
def members? : Value → Option (List Value)
  | .list xs | .tuple xs | .set xs => some xs
  | .map entries => some (entries.map (·.1))
  | .bytes bs => some (bs.map fun b => .int b.toNat)
  | .text s => some (s.toList.map fun c => .text (String.singleton c))
  | _ => none

/-- The text that a byte string encodes, if it encodes one. -/
def decode? (bs : List UInt8) : Option String := String.fromUTF8? ⟨bs.toArray⟩

/-- The word for the kind of a value. -/
def kindName : Value → String
  | .null => "NoneType"
  | .bool _ => "bool"
  | .int _ => "int"
  | .real _ => "float"
  | .text _ => "str"
  | .bytes _ => "bytes"
  | .list _ => "list"
  | .tuple _ => "tuple"
  | .set _ => "set"
  | .map _ => "dict"

mutual

/-- The kind of value for which a value cannot be a key: a collection that can change. -/
def keyFault? : Value → Option String
  | .tuple xs => firstKeyFault? xs
  | .list xs => some (kindName (.list xs))
  | .set xs => some (kindName (.set xs))
  | .map entries => some (kindName (.map entries))
  | _ => none

/-- The first such kind among members. -/
def firstKeyFault? : List Value → Option String
  | [] => none
  | x :: xs => x.keyFault? <|> firstKeyFault? xs

end

/-- Whether a value may be a key. -/
def isKey (v : Value) : Bool := v.keyFault?.isNone

end Value

/-- A row: cells under their columns, in order. The library names columns by texts; a caller may use any value
that can be a key. -/
abbrev Row := List (Value × Value)

namespace Row

/-- A row overlaid with the entries of another. -/
def merge (base later : Row) : Row := later.foldl (fun done (column, cell) => Value.putEntry column cell done) base

/-- The cell of a column that is a text, null when the row has none. -/
def get (column : String) (row : Row) : Value := (Value.field? column row).getD .null

/-- The cell of a column, null when the row has none. -/
def cell (column : Value) (row : Row) : Value := ((row.find? fun (c, _) => c.same column).map (·.2)).getD .null

def columns (row : Row) : List Value := row.map (·.1)

def has (column : Value) (row : Row) : Bool := row.any fun (c, _) => c.same column

end Row

/-- Values under names: what failures and log records tell besides their text. -/
abbrev Particulars := List (String × Value)

end Polyquery
