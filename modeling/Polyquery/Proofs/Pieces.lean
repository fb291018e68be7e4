import Polyquery.Proofs.LegibleCommand

/-! What a compiler writes by itself. Apart from projection entries with a parenthesis and conditions on groups, a statement
holds nothing of the caller's but names, values and paths. Main statement: every other statement is made of words of the
dialect, quoted names, placeholders, and the literals of paths that have been checked. -/

namespace Polyquery

open Sql Fragment

namespace Sql

/-- A piece that a compiler writes by itself. -/
inductive Piece.Own (d : Dialect) : Piece → Prop
  | words (s : String) : Own d (.words s)
  | name (s : String) : Own d (.name s)
  | bind (value : Value) : Own d (.bind value)
  | path {segments path : List String} (h : JsonPath.validate segments = .ok path) :
      Own d (.literal (JsonPath.written d path))

/-- Whether a compiler writes all of a fragment by itself. -/
def Fragment.Own (d : Dialect) (f : Fragment) : Prop := ∀ p ∈ f, p.Own d

end Sql

variable {c : Compiler} {R : Fragment → Prop}

theorem assembled_own (d : Dialect) : Assembled d (Own d) where
  nil := nofun
  append hf hg _ := List.forall_mem_append.2 ⟨hf, hg⟩
  words _ hf := List.forall_mem_cons.2 ⟨.words _, hf⟩
  name s _ _ hf := List.forall_mem_cons.2 ⟨.name s, hf⟩
  bind value _ hf := List.forall_mem_cons.2 ⟨.bind value, hf⟩
  path hpath _ hf := List.forall_mem_cons.2 ⟨.path hpath, hf⟩

/-- Whether a request holds no text of the caller's that is written as it is. -/
def Request.Rawless : Request → Prop
  | select q => (∀ entry : String, .text entry ∈ q.columns → '(' ∉ entry.toList) ∧ q.having = []
  | _ => True

theorem Request.Rawless.admitted {r : Request} (h : r.Rawless) : r.Admitted R := by
  cases r with
  | select q =>
      refine ⟨fun entry hentry hparenthesis => absurd hparenthesis (h.1 entry hentry), fun clause hclause => ?_⟩
      rw [h.2] at hclause
      cases hclause
  | _ => trivial

/-- A statement in a dialect of which a compiler writes all by itself. -/
def OwnIn (d : Dialect) (s : Statement) : Prop := s.dialect = d ∧ Own d s.fragment

/-- The statement for a request without raw text is all the compiler's own. -/
theorem compile_own {r : Request} {s : Statement} (hraw : r.Rawless) (h : c.compile r = .ok (some s)) :
    OwnIn c.dialect s :=
  (assembled_own c.dialect).compile hraw.admitted h

end Polyquery
