import Polyquery.Proofs.Scan

/-! Legible fragments: their readers find in the text what the fragment is made of. The words of a fragment must
mean nothing to a scan, its literals must be free of quotes, the caller's expressions must close their quotes and
hold no placeholders, and behind a quote or an expression there must be a border. Main statement: the text of a
legible fragment, its placeholders filled with its parameters from the left, is the fragment again. -/

namespace Polyquery.Sql

/-- Whether a text of the caller's closes its quotes and has no placeholder outside of them. -/
def Scan.Closed (d : Dialect) (text : List Char) : Prop := .unclosed ∉ scan d text ∧ .hole () ∉ scan d text

instance (d : Dialect) (text : List Char) : Decidable (Scan.Closed d text) :=
  inferInstanceAs (Decidable (_ ∧ _))

/-- A text with contents for its placeholders, taken from the left. Contents must not be left over or missing, and
quotes must be closed. -/
def fill {α : Type} : List (Lexeme Unit) → List α → Option (List (Lexeme α))
  | [], [] => some []
  | .hole _ :: rest, content :: more => (fill rest more).map (.hole content :: ·)
  | .char c :: rest, contents => (fill rest contents).map (.char c :: ·)
  | .name text :: rest, contents => (fill rest contents).map (.name text :: ·)
  | .literal text :: rest, contents => (fill rest contents).map (.literal text :: ·)
  | _, _ => none

theorem fill_blank {α : Type} {lexemes : List (Lexeme α)} (h : .unclosed ∉ lexemes) :
    fill (lexemes.map (.map fun _ => ())) (lexemes.filterMap Lexeme.content?) = some lexemes := by
  induction lexemes with
  | nil => rfl
  | cons lexeme rest ih =>
      have hrest := ih fun hmem => h (List.mem_cons_of_mem _ hmem)
      cases lexeme with
      | unclosed => exact absurd List.mem_cons_self h
      | _ =>
          simp only [List.map_cons, Lexeme.map, List.filterMap_cons, Lexeme.content?, fill, hrest, Option.map_some]

/-- A statement's text as its readers take it in, with its parameters in place of the placeholders. -/
def readLexemes (d : Dialect) (text : String) (params : List Value) : Option (List (Lexeme Value)) :=
  fill (scan d text.toList) params

namespace Piece

/-- What a piece is to a reader. -/
def lexemes (d : Dialect) : Piece → List (Lexeme Value)
  | words s => s.toList.map .char
  | name s => [.name s.toList]
  | literal s => [.literal s.toList]
  | expression s => (scan d s.toList).map (.map fun _ => .null)
  | bind value => [.hole value]

/-- Whether what follows a piece must not continue it. -/
def needsBorder : Piece → Bool
  | name _ | literal _ | expression _ => true
  | words _ | bind _ => false

/-- Whether a piece on its own is read as what it is. -/
def Legible (d : Dialect) : Piece → Prop
  | words s => Scan.Tame s.toList
  | literal s => '\'' ∉ s.toList
  | expression s => Scan.Closed d s.toList
  | name _ | bind _ => True

theorem Legible.scan_write {d : Dialect} {p : Piece} (h : p.Legible d) :
    scan d (p.write d) = (p.lexemes d).map (.map fun _ => ()) := by
  cases p with
  | words s =>
      rw [write, Scan.scan_of_tame h, lexemes, List.map_map]
      rfl
  | name s => exact Scan.scan_quotedName d s.toList
  | literal s => exact Scan.scan_literal h
  | expression s =>
      have hid : ((Lexeme.map fun _ => ()) ∘ Lexeme.map fun _ : Unit => Value.null) = id := by
        funext lexeme
        cases lexeme <;> rfl
      rw [write, lexemes, List.map_map, hid, List.map_id]
  | bind value => exact Scan.scan_placeholder d

theorem Legible.params_eq {d : Dialect} {p : Piece} (h : p.Legible d) :
    (p.lexemes d).filterMap Lexeme.content? = p.param?.toList := by
  cases p with
  | expression s =>
      simp only [lexemes, param?, Option.toList_none, List.filterMap_eq_nil_iff, List.mem_map]
      rintro _ ⟨lexeme, hmem, rfl⟩
      cases lexeme with
      | hole content => exact absurd hmem h.2
      | _ => rfl
  | words s => simp [lexemes, param?, Lexeme.content?]
  | _ => rfl

theorem Legible.closes {d : Dialect} {p : Piece} (h : p.Legible d) : .unclosed ∉ p.lexemes d := by
  cases p with
  | expression s =>
      intro hmem
      obtain ⟨lexeme, hlexeme, heq⟩ := List.mem_map.1 hmem
      cases lexeme with
      | unclosed => exact h.1 hlexeme
      | _ => cases heq
  | _ => simp [lexemes]

theorem Legible.scan_closes {d : Dialect} {p : Piece} (h : p.Legible d) : .unclosed ∉ scan d (p.write d) := by
  rw [h.scan_write]
  intro hmem
  obtain ⟨lexeme, hlexeme, heq⟩ := List.mem_map.1 hmem
  cases lexeme with
  | unclosed => exact h.closes hlexeme
  | _ => cases heq

theorem Legible.after_write {d : Dialect} {p : Piece} (h : p.Legible d) (hp : p.needsBorder = false) :
    Scan.after d .plain (p.write d) = .plain := by
  cases p with
  | words s => exact Scan.after_of_tame h
  | bind value => exact Scan.after_placeholder d
  | name s => cases hp
  | literal s => cases hp
  | expression s => cases hp

end Piece

namespace Fragment

open Piece

/-- What a fragment is to a reader. -/
def lexemes (d : Dialect) (f : Fragment) : List (Lexeme Value) := f.flatMap (Piece.lexemes d)

/-- Whether a fragment may stand behind a name, a literal or an expression. -/
def Bordered : Fragment → Prop
  | [] => True
  | .words s :: _ => s.toList ≠ [] ∧ Scan.Bordered s.toList
  | _ => False

/-- Whether each piece is read as what it is, in its place. -/
def Legible (d : Dialect) : Fragment → Prop
  | [] => True
  | p :: rest => p.Legible d ∧ (p.needsBorder → Bordered rest) ∧ Legible d rest

theorem Bordered.write {d : Dialect} {f : Fragment} (h : Bordered f) : Scan.Bordered (f.write d) := by
  match f with
  | [] => exact fun c hc => absurd hc (by simp [Fragment.write])
  | .words s :: rest =>
      obtain ⟨hne, hs⟩ := h
      obtain ⟨c, text, hcs⟩ := List.exists_cons_of_ne_nil hne
      intro c' hc'
      rw [hcs] at hs
      exact hs c' (by simpa [Fragment.write, Piece.write, hcs] using hc')

theorem Legible.scan_write {d : Dialect} {f : Fragment} (h : Legible d f) :
    scan d (f.write d) = (f.lexemes d).map (.map fun _ => ()) := by
  induction f with
  | nil => rfl
  | cons p rest ih =>
      obtain ⟨hp, hborder, hrest⟩ := h
      have hsplit : scan d (p.write d ++ Fragment.write d rest) =
          scan d (p.write d) ++ scan d (Fragment.write d rest) := by
        cases hneeds : p.needsBorder with
        | true => exact Scan.scan_append hp.scan_closes (hborder hneeds).write
        | false => exact Scan.scan_append_of_after (hp.after_write hneeds)
      rw [show Fragment.write d (p :: rest) = p.write d ++ Fragment.write d rest from rfl, hsplit, hp.scan_write,
        ih hrest, ← List.map_append]
      rfl

theorem Legible.params_eq {d : Dialect} {f : Fragment} (h : Legible d f) :
    (f.lexemes d).filterMap Lexeme.content? = f.params := by
  induction f with
  | nil => rfl
  | cons p rest ih =>
      obtain ⟨hp, -, hrest⟩ := h
      rw [lexemes, List.flatMap_cons, List.filterMap_append, hp.params_eq, ← lexemes, ih hrest, params, params,
        List.filterMap_cons]
      cases p.param? <;> rfl

theorem Legible.closes {d : Dialect} {f : Fragment} (h : Legible d f) : .unclosed ∉ f.lexemes d := by
  induction f with
  | nil => exact List.not_mem_nil
  | cons p rest ih =>
      obtain ⟨hp, -, hrest⟩ := h
      exact fun hmem => (List.mem_append.1 hmem).elim hp.closes (ih hrest)

/-- The text of a legible fragment and its parameters are read as the fragment. -/
theorem Legible.readLexemes {d : Dialect} {f : Fragment} (h : Legible d f) :
    readLexemes d (f.text d) f.params = some (f.lexemes d) := by
  rw [Sql.readLexemes, text, String.toList_ofList, h.scan_write, ← h.params_eq]
  exact fill_blank h.closes

/-! ### Putting legible fragments together -/

theorem legible_nil (d : Dialect) : Legible d [] := trivial

theorem Legible.words_cons {d : Dialect} {s : String} {f : Fragment} (hf : Legible d f)
    (hs : Scan.Tame s.toList) : Legible d (.words s :: f) :=
  ⟨hs, fun h => Bool.noConfusion h, hf⟩

theorem Legible.bind_cons {d : Dialect} {value : Value} {f : Fragment} (hf : Legible d f) :
    Legible d (.bind value :: f) :=
  ⟨trivial, fun h => Bool.noConfusion h, hf⟩

theorem Legible.name_cons {d : Dialect} {name : String} {f : Fragment} (hf : Legible d f) (hborder : Bordered f) :
    Legible d (.name name :: f) :=
  ⟨trivial, fun _ => hborder, hf⟩

theorem Legible.literal_cons {d : Dialect} {text : String} {f : Fragment} (hf : Legible d f)
    (htext : '\'' ∉ text.toList) (hborder : Bordered f) : Legible d (.literal text :: f) :=
  ⟨htext, fun _ => hborder, hf⟩

theorem Legible.expression_cons {d : Dialect} {text : String} {f : Fragment} (hf : Legible d f)
    (htext : Scan.Closed d text.toList) (hborder : Bordered f) : Legible d (.expression text :: f) :=
  ⟨htext, fun _ => hborder, hf⟩

theorem bordered_words {s : String} {f : Fragment}
    (hs : s.toList ≠ [] ∧ Scan.Bordered s.toList) :
    Bordered (.words s :: f) := hs

theorem Bordered.append {f g : Fragment} (hf : Bordered f) (hg : Bordered g) : Bordered (f ++ g) := by
  match f with
  | [] => exact hg
  | .words _ :: _ => exact hf

theorem Legible.append {d : Dialect} {f g : Fragment} (hf : Legible d f) (hg : Legible d g)
    (hborder : Bordered g) : Legible d (f ++ g) := by
  induction f with
  | nil => exact hg
  | cons p rest ih =>
      obtain ⟨hp, hrest, hlegible⟩ := hf
      exact ⟨hp, fun hneeds => (hrest hneeds).append hborder, ih hlegible⟩

theorem Legible.separated {d : Dialect} {separator : String} {fs : List Fragment}
    (hfs : ∀ f ∈ fs, Legible d f) (htame : Scan.Tame separator.toList)
    (hborder : separator.toList ≠ [] ∧ Scan.Bordered separator.toList) :
    Legible d (separated separator fs) := by
  fun_induction Fragment.separated separator fs with
  | case1 => trivial
  | case2 f => exact hfs f List.mem_cons_self
  | case3 f rest hne ih =>
      have hrest := ih fun g hg => hfs g (List.mem_cons_of_mem _ hg)
      exact (hfs f List.mem_cons_self).append (hrest.words_cons htame) hborder

theorem legible_reference (d : Dialect) (ref : String) : Legible d (reference ref) := by
  refine Legible.separated ?_ (by decide) ⟨by decide, by decide⟩
  intro f hf
  obtain ⟨part, -, rfl⟩ := List.mem_map.1 hf
  split
  · exact (legible_nil d).words_cons (by subst part; decide)
  · exact (legible_nil d).name_cons trivial

theorem legible_bindList (d : Dialect) (values : List Value) : Legible d (bindList values) := by
  refine Legible.separated ?_ (by decide) ⟨by decide, by decide⟩
  intro f hf
  obtain ⟨value, -, rfl⟩ := List.mem_map.1 hf
  exact (legible_nil d).bind_cons

end Fragment

end Polyquery.Sql
