import Polyquery.Proofs.Assembled

/-! Whole statements are legible. The compiler's own words mean nothing to a scan, names and paths are quoted, and
behind each of them there is a border. Only projection entries with a parenthesis and conditions on groups are written as
the caller states them; these must close their quotes and hold no placeholders. -/

namespace Polyquery

open Sql Fragment

variable {d : Dialect} {c : Compiler}

theorem assembled_legible (d : Dialect) : Assembled d (Legible d) where
  nil := legible_nil d
  append := Legible.append
  words hs hf := hf.words_cons hs
  name _ _ hborder hf := hf.name_cons hborder
  bind _ _ hf := hf.bind_cons
  path hpath hborder hf :=
    hf.literal_cons (JsonPath.quote_not_mem_written d (by simp) (JsonPath.quote_not_mem_of_validate hpath)) hborder

theorem admits_legible {text : String} (h : Scan.Closed d text.toList) : Admits (Legible d) text :=
  fun _ hborder hf => hf.expression_cons h hborder

/-- Whether the caller's own text in a request closes its quotes and holds no placeholders: projection entries with a
parenthesis, and conditions on groups. -/
def Request.RawClosed (d : Dialect) : Request → Prop
  | select q =>
    (∀ entry : String, .text entry ∈ q.columns → '(' ∈ entry.toList → Scan.Closed d entry.toList) ∧
      ∀ clause ∈ q.having, Scan.Closed d clause.expression.toList
  | _ => True

theorem Request.RawClosed.admitted {r : Request} (h : r.RawClosed d) : r.Admitted (Legible d) := by
  cases r with
  | select q =>
      exact ⟨fun entry hentry hparenthesis => admits_legible (h.1 entry hentry hparenthesis),
        fun clause hclause => admits_legible (h.2 clause hclause)⟩
  | _ => trivial

/-- A statement in a dialect that is legible in it. -/
def LegibleIn (d : Dialect) (s : Statement) : Prop := s.dialect = d ∧ Legible d s.fragment

/-- The statement for a request is legible in the compiler's dialect. -/
theorem compile_legible {r : Request} {s : Statement} (hraw : r.RawClosed c.dialect)
    (h : c.compile r = .ok (some s)) : LegibleIn c.dialect s :=
  (assembled_legible c.dialect).compile hraw.admitted h

end Polyquery
