import Polyquery.Failure

/-! Values in the place of names. Columns and path keys are names, and only texts can be names. -/

namespace Polyquery

namespace Value

/-- The name that a value is. -/
def name : Value → Except Failure String
  | .text s => .ok s
  | .bytes _ => .error .wrongType
  | _ => .error .noAttribute

/-- Texts are the names that they spell. -/
theorem mapM_name (names : List String) : (names.map text).mapM name = .ok names := by
  induction names with
  | nil => rfl
  | cons first names ih =>
      rw [List.map_cons, List.mapM_cons, ih]
      rfl

/-- The members of a collection, as something to go through one by one. -/
def members (v : Value) : Except Failure (List Value) :=
  match v.members? with
  | some members => .ok members
  | none => .error .wrongType

/-- A collection counts as false exactly if it has no members. -/
theorem members_eq_nil_iff {collection : Value} {all : List Value} (h : collection.members = .ok all) :
    all = [] ↔ collection.isTruthy = false := by
  cases collection with
  | list xs | tuple xs | set xs | map entries | bytes entries =>
      cases h
      simp [isTruthy]
  | text s =>
      cases h
      simp [isTruthy]
  | _ => cases h

end Value

end Polyquery
