import Polyquery.Dialect
import Polyquery.Text.Blank

/-! Statement text in pieces. A fragment is a row of pieces: words of the dialect, quoted names, literals,
expressions of the caller, and bound parameters. Its text and its parameters are two views of the same row, so
a placeholder stands in the text exactly where its parameter stands in the row. -/

namespace Polyquery

namespace Dialect

/-- A name between the dialect's quotes, a closing quote inside it written twice. -/
def quotedName (d : Dialect) (name : List Char) : List Char :=
  d.openQuote :: name.flatMap (fun c => if c = d.closeQuote then [c, c] else [c]) ++ [d.closeQuote]

end Dialect

namespace Sql

/-- A piece of a statement. -/
inductive Piece where
  /-- Words and marks of the dialect. -/
  | words (text : String)
  /-- A name, quoted when written. -/
  | name (text : String)
  /-- A text literal, free of quotes. -/
  | literal (text : String)
  /-- An expression of the caller, written as it is. -/
  | expression (text : String)
  /-- A parameter, written as the dialect's placeholder. -/
  | bind (value : Value)

/-- A row of pieces. -/
abbrev Fragment := List Piece

namespace Piece

/-- The text of a piece. -/
def write (d : Dialect) : Piece → List Char
  | words s => s.toList
  | name s => d.quotedName s.toList
  | literal s => '\'' :: s.toList ++ ['\'']
  | expression s => s.toList
  | bind _ => d.placeholder.toList

/-- The parameter of a piece. -/
def param? : Piece → Option Value
  | bind value => some value
  | _ => none

end Piece

namespace Fragment

/-- The text of a row of pieces. -/
def write (d : Dialect) (f : Fragment) : List Char := f.flatMap (Piece.write d)

/-- The text of a row of pieces. -/
def text (d : Dialect) (f : Fragment) : String := String.ofList (f.write d)

/-- The parameters of a row of pieces, in the order of their placeholders. -/
def params (f : Fragment) : List Value := f.filterMap Piece.param?

/-- Words of the dialect as a fragment. -/
def words (s : String) : Fragment := [.words s]

/-- Fragments with words between them. -/
def separated (separator : String) : List Fragment → Fragment
  | [] => []
  | [f] => f
  | f :: rest => f ++ .words separator :: separated separator rest

/-- A reference to a column or table: names with dots between them, where a star stands for itself. -/
def reference (ref : String) : Fragment :=
  separated "." ((Text.splitDots ref).map fun part => if part = "*" then words part else [.name part])

/-- Names with commas between them. -/
def nameList (names : List String) : Fragment := separated ", " (names.map fun name => [.name name])

/-- Placeholders with commas between them. -/
def bindList (values : List Value) : Fragment := separated ", " (values.map fun value => [.bind value])

/-! ### Texts -/

theorem text_append (d : Dialect) (f g : Fragment) : (f ++ g).text d = f.text d ++ g.text d := by
  rw [text, text, text, write, List.flatMap_append, String.ofList_append, ← write, ← write]

theorem text_words (d : Dialect) (s : String) : (words s).text d = s := by
  simp [text, words, write, Piece.write]

theorem text_words_cons (d : Dialect) (s : String) (f : Fragment) : text d (.words s :: f) = s ++ f.text d := by
  rw [← List.singleton_append, text_append, ← words, text_words]

theorem text_bind (d : Dialect) (value : Value) : Fragment.text d [.bind value] = d.placeholder := by
  simp [text, write, Piece.write]

theorem text_nil (d : Dialect) : text d [] = "" := rfl

theorem text_bind_cons (d : Dialect) (value : Value) (f : Fragment) :
    text d (.bind value :: f) = d.placeholder ++ f.text d := by
  rw [← List.singleton_append, text_append, text_bind]

theorem text_expression_cons (d : Dialect) (s : String) (f : Fragment) : text d (.expression s :: f) = s ++ f.text d := by
  simp [text, write, Piece.write]

/-- Fragments with words between them, as texts with these between them. -/
theorem text_separated (d : Dialect) (separator : String) (fs : List Fragment) :
    (separated separator fs).text d = Text.joined separator (fs.map (text d)) := by
  fun_induction Fragment.separated separator fs with
  | case1 => simp [text, write, Text.joined]
  | case2 f => simp [Text.joined]
  | case3 f rest hne ih =>
      obtain ⟨next, more, rfl⟩ := List.exists_cons_of_ne_nil hne
      rw [text_append, text_words_cons, ih]
      simp [Text.joined, String.append_assoc]

theorem text_bindList (d : Dialect) (values : List Value) :
    (bindList values).text d = Text.joined ", " (List.replicate values.length d.placeholder) := by
  have hplaceholders : (values.map fun value => [Piece.bind value]).map (text d) =
      List.replicate values.length d.placeholder := by
    rw [List.map_map, List.eq_replicate_iff, List.length_map]
    refine ⟨rfl, fun s hs => ?_⟩
    obtain ⟨value, -, rfl⟩ := List.mem_map.1 hs
    exact text_bind d value
  rw [bindList, text_separated, hplaceholders]

end Fragment

end Sql

end Polyquery
