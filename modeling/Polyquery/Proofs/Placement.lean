import Polyquery.Proofs.LegibleCommand

/-! Placeholders and parameters. Main statement: the placeholders of a compiled statement outside of names and literals
are as many as its parameters, and each of them stands where the value that is bound to it belongs. -/

namespace Polyquery

open Sql Fragment

namespace Sql

/-- The placeholders of a text with their contents, each with all that is read before it. -/
def holes (front : List (Lexeme Value)) : List (Lexeme Value) → List (List (Lexeme Value) × Value)
  | [] => []
  | lexeme :: rest => lexeme.content?.toList.map (front, ·) ++ holes (front ++ [lexeme]) rest

theorem holes_append (front a b : List (Lexeme Value)) :
    holes front (a ++ b) = holes front a ++ holes (front ++ a) b := by
  induction a generalizing front with
  | nil => rw [List.nil_append, List.append_nil, holes, List.nil_append]
  | cons lexeme a ih =>
      rw [List.cons_append, holes, holes, ih, List.append_assoc, List.append_assoc, List.singleton_append]

theorem holes_eq_nil {lexemes : List (Lexeme Value)} (h : lexemes.filterMap Lexeme.content? = [])
    (front : List (Lexeme Value)) : holes front lexemes = [] := by
  induction lexemes generalizing front with
  | nil => rfl
  | cons lexeme rest ih =>
      rw [List.filterMap_eq_nil_iff, List.forall_mem_cons] at h
      rw [holes, h.1, ih (List.filterMap_eq_nil_iff.2 h.2)]
      rfl

theorem map_holes (front lexemes : List (Lexeme Value)) :
    (holes front lexemes).map Prod.snd = lexemes.filterMap Lexeme.content? := by
  induction lexemes generalizing front with
  | nil => rfl
  | cons lexeme rest ih =>
      rw [holes, List.map_append, ih, List.filterMap_cons]
      cases lexeme.content? <;> rfl

variable {d : Dialect}

theorem Piece.Legible.holes_lexemes {p : Piece} (h : p.Legible d) (front : List (Lexeme Value)) :
    holes front (p.lexemes d) = p.param?.toList.map (front, ·) := by
  have hcontents := h.params_eq
  cases p with
  | bind value => rfl
  | _ => exact holes_eq_nil hcontents front

/-- The parameters of a legible fragment are where its placeholders are read. -/
theorem Fragment.Legible.holes_lexemes {f : Fragment} (h : Legible d f) (front : Fragment) :
    holes (front.lexemes d) (f.lexemes d) = (places front f).map fun place => (place.1.lexemes d, place.2) := by
  induction f generalizing front with
  | nil => rfl
  | cons p rest ih =>
      obtain ⟨hp, -, hrest⟩ := h
      have hfront : front.lexemes d ++ p.lexemes d = (front ++ [p]).lexemes d := by
        rw [lexemes_append, lexemes_cons]
        exact congrArg _ (List.append_nil _).symm
      rw [lexemes_cons, holes_append, hp.holes_lexemes, hfront, ih hrest, places, List.map_append, List.map_map]
      rfl

/-- A text of a legible fragment has as many placeholders as the fragment has parameters. -/
theorem Fragment.Legible.count_placeholders {f : Fragment} (h : Legible d f) :
    ((scan d (f.text d).toList).filterMap Lexeme.content?).length = f.params.length := by
  have hcontent : (Lexeme.content? ∘ Lexeme.map fun _ : Value => ()) =
      fun lexeme => lexeme.content?.map fun _ => () := by
    funext lexeme
    cases lexeme <;> rfl
  rw [text, String.toList_ofList, h.scan_write, List.filterMap_map, hcontent, ← List.map_filterMap, List.length_map,
    h.params_eq]

theorem suffix_lexemes {f g : Fragment} (h : f <:+ g) : f.lexemes d <:+ g.lexemes d := by
  obtain ⟨front, rfl⟩ := h
  rw [lexemes_append]
  exact List.suffix_append _ _

end Sql

/-- In a compiled statement the placeholders outside of names and literals are as many as the parameters, and from the
left they stand, one by one, where the values of the request belong. -/
theorem compile_placement {c : Compiler} {r : Request} {s : Statement} (hraw : r.RawClosed c.dialect)
    (h : c.compile r = .ok (some s)) :
    ((scan c.dialect s.sql.toList).filterMap Lexeme.content?).length = s.params.length ∧
      ∃ lexemes, readLexemes c.dialect s.sql s.params = some lexemes ∧
        (holes [] lexemes).map Prod.snd = s.params ∧
        List.Forall₂ (fun hole site => site.caption.lexemes c.dialect <:+ hole.1 ∧ hole.2 = site.value)
          (holes [] lexemes) (r.sites c) := by
  obtain ⟨hdialect, hlegible⟩ := compile_legible hraw h
  have hshows := compile_shows h [] List.suffix_rfl
  have hholes : holes [] (s.fragment.lexemes c.dialect) =
      (places [] s.fragment).map fun place => (place.1.lexemes c.dialect, place.2) := hlegible.holes_lexemes []
  rw [Statement.sql, Statement.params, hdialect]
  refine ⟨hlegible.count_placeholders, s.fragment.lexemes c.dialect, hlegible.readLexemes, ?_, ?_⟩
  · rw [map_holes, hlegible.params_eq]
  · rw [hholes, List.forall₂_map_left_iff]
    exact hshows.imp fun place site hplace => ⟨suffix_lexemes hplace.1, hplace.2⟩

/-- A count over a list of values, in a scope and with a condition on groups. -/
theorem compile_placement_count :
    ∃ s, Compiler.compile { dialect := .postgres, scope := [(.text "tenant", .int 7)] }
        (.select {
          table := "t", columns := [.text "COUNT(*)"]
          filters := [.isIn "a%s" [.int 1, .int 2] false .and, .basic "b" "<" (.int 3) .or]
          having := [⟨"COUNT(*)", ">", .int 5⟩] }) = .ok (some s) ∧
      ((scan .postgres s.sql.toList).filterMap Lexeme.content?).length = s.params.length ∧ s.params.length = 5 := by
  refine ⟨_, rfl, (@compile_placement { dialect := .postgres, scope := [(.text "tenant", .int 7)] }
    (.select {
      table := "t", columns := [.text "COUNT(*)"]
      filters := [.isIn "a%s" [.int 1, .int 2] false .and, .basic "b" "<" (.int 3) .or]
      having := [⟨"COUNT(*)", ">", .int 5⟩] }) _ ⟨?_, ?_⟩ rfl).1, rfl⟩
  · intro entry hentry _
    cases List.mem_singleton.1 hentry
    decide
  · intro clause hclause
    rw [List.mem_singleton.1 hclause]
    decide

end Polyquery
