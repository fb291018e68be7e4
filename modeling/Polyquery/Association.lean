/-! Associations of names with values, in the order in which the names were first given. -/

namespace Polyquery

namespace Association

variable {α : Type}

/-- An association with one more entry; a name that is there already keeps its place. -/
def assign (name : String) (value : α) : List (String × α) → List (String × α)
  | [] => [(name, value)]
  | (k, v) :: rest => if k = name then (k, value) :: rest else (k, v) :: assign name value rest

/-- The association of entries, later ones winning. -/
def ofEntries (entries : List (String × α)) : List (String × α) :=
  entries.foldl (fun done (name, value) => assign name value done) []

def find? (name : String) (entries : List (String × α)) : Option α :=
  (entries.find? fun (k, _) => k = name).map (·.2)

end Association

end Polyquery
