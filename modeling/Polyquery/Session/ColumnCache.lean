/-! Remembered answers to the question whether a table has a column. -/

namespace Polyquery

/-- The answers known so far, under table and column. -/
structure ColumnCache where
  answers : List ((String × String) × Bool) := []

namespace ColumnCache

def get? (cache : ColumnCache) (table column : String) : Option Bool :=
  (cache.answers.find? fun answer => answer.1 = (table, column)).map (·.2)

def put (cache : ColumnCache) (table column : String) (found : Bool) : ColumnCache :=
  ⟨cache.answers.filter (fun answer => answer.1 ≠ (table, column)) ++ [((table, column), found)]⟩

/-- Forgets the answers on one table, or all of them. -/
def invalidate (cache : ColumnCache) : Option String → ColumnCache
  | none => ⟨[]⟩
  | some table => ⟨cache.answers.filter fun answer => answer.1.1 ≠ table⟩

/-- Answers that are left out do not matter to a pair that they are not on. -/
theorem find?_filter_of_kept {keep : (String × String) × Bool → Bool} {pair : String × String}
    (h : ∀ answer, answer.1 = pair → keep answer = true) (answers : List ((String × String) × Bool)) :
    (answers.filter keep).find? (·.1 = pair) = answers.find? (·.1 = pair) := by
  rw [List.find?_filter]
  congr 1
  funext answer
  by_cases hanswer : answer.1 = pair
  · simp [hanswer, h answer hanswer]
  · simp [hanswer]

theorem get?_put (cache : ColumnCache) (table column : String) (found : Bool) (other name : String) :
    (cache.put table column found).get? other name =
      if table = other ∧ column = name then some found else cache.get? other name := by
  rw [get?, put, List.find?_append, get?]
  by_cases hsame : table = other ∧ column = name
  · obtain ⟨rfl, rfl⟩ := hsame
    rw [List.find?_eq_none.2 fun answer hmem => by simpa using (List.mem_filter.1 hmem).2]
    simp
  · have hkept : ∀ answer : (String × String) × Bool, answer.1 = (other, name) →
        decide (answer.1 ≠ (table, column)) = true := by
      intro answer hanswer
      rw [hanswer, decide_eq_true_iff]
      rintro ⟨⟩
      exact hsame ⟨rfl, rfl⟩
    rw [find?_filter_of_kept hkept]
    simp [hsame]

theorem get?_invalidate_none (cache : ColumnCache) (other name : String) :
    (cache.invalidate none).get? other name = none := rfl

theorem get?_invalidate_some (cache : ColumnCache) (table other name : String) :
    (cache.invalidate (some table)).get? other name = if table = other then none else cache.get? other name := by
  rw [get?, invalidate, get?]
  by_cases hsame : table = other
  · obtain rfl := hsame
    rw [if_pos rfl, List.find?_eq_none.2 fun answer hmem => ?_, Option.map_none]
    have hother : answer.1.1 ≠ table := by simpa using (List.mem_filter.1 hmem).2
    simpa using fun hanswer => hother (by rw [hanswer])
  · rw [if_neg hsame, find?_filter_of_kept fun answer hanswer => by simpa [hanswer] using Ne.symm hsame]

end ColumnCache

end Polyquery
