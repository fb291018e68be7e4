import Polyquery.Value.Name

/-! Mappings given as collections of pairs. -/

namespace Polyquery

namespace Value

/-- The key and the value of a pair. A collection that is no pair fails by the number of its members. -/
def pair (wrongSize : Nat → Failure) (v : Value) : Except Failure (Value × Value) := do
  match ← v.members with
  | [key, value] => if key.isKey then pure (key, value) else throw .wrongType
  | members => throw (wrongSize members.length)

/-- The entries that the members of a collection are, later ones winning. A member that is no pair fails by its
position and size. -/
def ofPairs (wrongSize : Nat → Nat → Failure) (v : Value) : Except Failure (List (Value × Value)) := do
  return ofEntries (← (← v.members).zipIdx.mapM fun (member, position) => pair (wrongSize position) member)

end Value

namespace Row

/-- The failure to take two values from a collection of another size. -/
def unpacking (size : Nat) : Failure :=
  .badValue (if size < 2 then "not enough values to unpack (expected 2, got " ++ toString size ++ ")"
    else "too many values to unpack (expected 2)")

/-- A row written as pairs. -/
def ofPairs (v : Value) : Except Failure Row := Value.ofPairs (fun _ => unpacking) v

/-- Rows written as pairs. -/
def allOfPairs (v : Value) : Except Failure (List Row) := do (← v.members).mapM ofPairs

end Row

end Polyquery
