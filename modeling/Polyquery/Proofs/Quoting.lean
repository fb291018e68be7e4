import Mathlib.Logic.Function.Basic
import Polyquery.Proofs.Words
import Polyquery.Sql.Fragment

/-! Quoted names, read back. A reader takes one name off the front of a text, up to the quote that closes it, where a
doubled quote stands for one; a reference is a row of names and bare stars with dots between them. Main statement: what is
written of a name is read as that name whatever follows it, short of one more closing quote, and what is written of a
reference is read as its parts. -/

namespace Polyquery

open Sql

namespace Dialect

variable {d : Dialect} {c : Char} {text name rest : List Char}

/-! ### Readers -/

/-- What stands between quotes, read behind the one that opens them, and what follows the one that closes them. -/
def readQuoted (d : Dialect) : List Char → Option (List Char × List Char)
  | [] => none
  | [c] => if c = d.closeQuote then some ([], []) else none
  | c :: next :: text =>
    if c = d.closeQuote then
      if next = d.closeQuote then (d.readQuoted text).map fun (name, rest) => (c :: name, rest)
      else some ([], next :: text)
    else (d.readQuoted (next :: text)).map fun (name, rest) => (c :: name, rest)

/-- The quoted name that a text begins with, and what follows it. -/
def readName (d : Dialect) : List Char → Option (List Char × List Char)
  | [] => none
  | c :: text => if c = d.openQuote then d.readQuoted text else none

/-- The bare star or the quoted name that a text begins with, and what follows it. -/
def readPart (d : Dialect) : List Char → Option (List Char × List Char)
  | [] => none
  | c :: text => if c = '*' then some (['*'], text) else d.readName (c :: text)

theorem length_readQuoted (h : d.readQuoted text = some (name, rest)) : rest.length < text.length := by
  fun_induction readQuoted d text generalizing name with
  | case1 => cases h
  | case2 =>
      cases h
      exact Nat.zero_lt_one
  | case3 => cases h
  | case4 text ih =>
      obtain ⟨⟨inner, _⟩, hinner, hread⟩ := Option.map_eq_some_iff.1 h
      cases hread
      exact Nat.lt_succ_of_lt (Nat.lt_succ_of_lt (ih hinner))
  | case5 next text hnext =>
      cases h
      exact Nat.lt_succ_self _
  | case6 c next text hc ih =>
      obtain ⟨⟨inner, _⟩, hinner, hread⟩ := Option.map_eq_some_iff.1 h
      cases hread
      exact Nat.lt_succ_of_lt (ih hinner)

/-- Whatever is read off a text leaves less of it. -/
theorem length_readPart (h : d.readPart text = some (name, rest)) : rest.length < text.length := by
  cases text with
  | nil => cases h
  | cons c text =>
      rw [readPart, readName] at h
      split at h
      · cases h
        exact Nat.lt_succ_self _
      · split at h
        · exact Nat.lt_succ_of_lt (length_readQuoted h)
        · cases h

/-- The parts of a reference: names and stars with dots between them, and nothing behind the last. -/
def readReference (d : Dialect) (text : List Char) : Option (List (List Char)) :=
  match _ : d.readPart text with
  | none => none
  | some (part, []) => some [part]
  | some (part, c :: rest) => if c = '.' then (d.readReference rest).map (part :: ·) else none
termination_by text.length
decreasing_by
  have hread : d.readPart text = some (part, c :: rest) := by assumption
  exact Nat.lt_of_succ_lt (length_readPart hread)

theorem readReference_last (h : d.readPart text = some (name, [])) : d.readReference text = some [name] := by
  rw [readReference]
  split <;> simp_all

theorem readReference_next (h : d.readPart text = some (name, '.' :: rest)) :
    d.readReference text = (d.readReference rest).map (name :: ·) := by
  rw [readReference]
  split <;> simp_all

/-! ### Names -/

theorem readQuoted_doubled (text : List Char) :
    d.readQuoted (d.closeQuote :: d.closeQuote :: text) =
      (d.readQuoted text).map fun (name, rest) => (d.closeQuote :: name, rest) := by
  rw [readQuoted, if_pos rfl, if_pos rfl]

theorem readQuoted_other (hc : c ≠ d.closeQuote) (text : List Char) :
    d.readQuoted (c :: text) = (d.readQuoted text).map fun (name, rest) => (c :: name, rest) := by
  cases text with
  | nil => simp [readQuoted, hc]
  | cons next text => rw [readQuoted, if_neg hc]

/-- A closing quote ends a name unless another one follows. -/
theorem readQuoted_closed (hrest : rest.head? ≠ some d.closeQuote) :
    d.readQuoted (d.closeQuote :: rest) = some ([], rest) := by
  cases rest with
  | nil => rw [readQuoted, if_pos rfl]
  | cons next rest =>
      have hnext : next ≠ d.closeQuote := fun heq => hrest (congrArg some heq)
      rw [readQuoted, if_pos rfl, if_neg hnext]

/-- What is written of a name is read as that name, and what follows it is left. -/
theorem readName_quotedName (name : List Char) (hrest : rest.head? ≠ some d.closeQuote) :
    d.readName (d.quotedName name ++ rest) = some (name, rest) := by
  have hinside : d.readQuoted (name.flatMap (fun c => if c = d.closeQuote then [c, c] else [c]) ++ d.closeQuote :: rest) =
      some (name, rest) := by
    induction name with
    | nil => exact readQuoted_closed hrest
    | cons c name ih =>
        rw [List.flatMap_cons, List.append_assoc]
        by_cases hc : c = d.closeQuote
        · rw [if_pos hc, hc, List.cons_append, List.cons_append, List.nil_append, readQuoted_doubled, ih]
          rfl
        · rw [if_neg hc, List.cons_append, List.nil_append, readQuoted_other hc, ih]
          rfl
  rw [quotedName, List.cons_append, List.cons_append, readName, if_pos rfl, List.append_assoc]
  exact hinside

/-! ### References -/

/-- A part of a reference as it is written: a star stands for itself. -/
def part (name : String) : Fragment := if name = "*" then Fragment.words name else [.name name]

theorem openQuote_ne_star (d : Dialect) : d.openQuote ≠ '*' := by cases d <;> decide

theorem readPart_part (d : Dialect) (name : String) (rest : List Char) (hrest : rest.head? ≠ some d.closeQuote) :
    d.readPart ((part name).write d ++ rest) = some (name.toList, rest) := by
  rw [part]
  split
  · rename_i hstar
    rw [hstar]
    rfl
  · have hname : Fragment.write d [.name name] = d.quotedName name.toList := List.append_nil _
    have hopen : d.quotedName name.toList = d.openQuote :: _ := rfl
    rw [hname, ← readName_quotedName name.toList hrest, hopen, List.cons_append, readPart, if_neg d.openQuote_ne_star]

theorem dot_ne_closeQuote (d : Dialect) : '.' ≠ d.closeQuote := by cases d <;> decide

theorem write_parts (d : Dialect) (first next : String) (names : List String) :
    (Fragment.separated "." ((first :: next :: names).map part)).write d =
      (part first).write d ++ '.' :: (Fragment.separated "." ((next :: names).map part)).write d := List.flatMap_append

/-- Parts with dots between them are read one by one. -/
theorem readReference_separated (first : String) (names : List String) :
    d.readReference ((Fragment.separated "." ((first :: names).map part)).write d) =
      some ((first :: names).map String.toList) := by
  induction names generalizing first with
  | nil =>
      have hlast := readPart_part d first [] (by simp)
      rw [List.append_nil] at hlast
      exact readReference_last hlast
  | cons next names ih =>
      have hnext := readPart_part d first ('.' :: (Fragment.separated "." ((next :: names).map part)).write d)
        (by simpa using d.dot_ne_closeQuote)
      rw [write_parts, readReference_next hnext, ih]
      rfl

/-- What is written of a reference is read as its parts. -/
theorem readReference_reference (d : Dialect) (ref : String) :
    d.readReference ((Fragment.reference ref).write d) = some (ref.toList.splitOn '.') := by
  have hsplit := Text.toList_splitDots ref
  have hreference : Fragment.reference ref = Fragment.separated "." ((Text.splitDots ref).map part) := rfl
  rw [hreference, ← hsplit]
  obtain ⟨first, names, hparts⟩ := List.exists_cons_of_ne_nil (Text.splitDots_ne_nil ref)
  rw [hparts]
  exact readReference_separated first names

/-- A name is read back from its quoted text, whatever follows it short of one more closing quote, and what follows is left
as it is. A reference is read back as its parts, the texts between its dots, so no two references are written alike. -/
theorem quoted_read_back (d : Dialect) :
    (∀ name rest : String, rest.toList.head? ≠ some d.closeQuote →
      d.readName (Fragment.text d [.name name] ++ rest).toList = some (name.toList, rest.toList)) ∧
    (∀ ref : String, d.readReference (Fragment.text d (.reference ref)).toList = some (ref.toList.splitOn '.')) ∧
    Function.Injective fun ref => Fragment.text d (.reference ref) := by
  have hreference : ∀ ref : String,
      d.readReference (Fragment.text d (.reference ref)).toList = some (ref.toList.splitOn '.') := by
    intro ref
    rw [Fragment.text, String.toList_ofList, readReference_reference]
  refine ⟨fun name rest hrest => ?_, hreference, fun ref other hsame => ?_⟩
  · have hname : Fragment.write d [.name name] = d.quotedName name.toList := List.append_nil _
    rw [Fragment.text, String.toList_append, String.toList_ofList, hname, readName_quotedName _ hrest]
  · have hparts : ref.toList.splitOn '.' = other.toList.splitOn '.' :=
      Option.some.inj ((hreference ref).symm.trans ((congrArg (d.readReference ·.toList) hsame).trans (hreference other)))
    have hjoined := congrArg (['.'].intercalate ·) hparts
    simp only [List.intercalate_splitOn] at hjoined
    exact String.toList_injective hjoined

/-- A quote in a name does not end it. -/
theorem quoted_read_back_quote :
    " = ?".toList.head? ≠ some Dialect.sqlite.closeQuote ∧
    Dialect.sqlite.readName (Fragment.text .sqlite [.name "a\" OR b"] ++ " = ?").toList =
      some ("a\" OR b".toList, " = ?".toList) :=
  ⟨by decide, (quoted_read_back .sqlite).1 _ _ (by decide)⟩

/-- Brackets are closed by their own quote, and an opening one inside means nothing. -/
example : Dialect.sqlserver.readName "[a[]]b] = ?".toList = some ("a[]b".toList, " = ?".toList) := by decide

end Dialect

end Polyquery
