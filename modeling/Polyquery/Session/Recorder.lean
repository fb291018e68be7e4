import Polyquery.Value

/-! The recorder of statements: it keeps the last one and all before it. -/

namespace Polyquery

/-- A statement as it was recorded. -/
structure Recorded where
  sql : String
  params : List Value

/-- All recorded statements, the latest last. -/
structure Recorder where
  history : List Recorded := []

namespace Recorder

def record (r : Recorder) (sql : String) (params : List Value) : Recorder := ⟨r.history ++ [⟨sql, params⟩]⟩

def clear (_ : Recorder) : Recorder := ⟨[]⟩

/-- The latest statement. -/
def last? (r : Recorder) : Option Recorded := r.history.getLast?

/-- The parameters of the latest statement, none before the first. -/
def lastParams (r : Recorder) : List Value := (r.last?.map (·.params)).getD []

/-! What is left by a statement that is recorded: it is the last one, and stands behind all that were there. -/

variable (r : Recorder) (sql : String) (params : List Value)

@[simp] theorem history_record : (r.record sql params).history = r.history ++ [⟨sql, params⟩] := rfl

@[simp] theorem last?_record : (r.record sql params).last? = some ⟨sql, params⟩ := List.getLast?_concat

end Recorder

end Polyquery
