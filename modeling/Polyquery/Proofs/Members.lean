import Polyquery.Proofs.Windows

/-! Clauses that are lists, read back. Their members stand between commas, and a reference is a list itself, of names and
stars between dots. Main statement: members that are read one by one are read in a row. -/

namespace Polyquery

open Sql Fragment

theorem Text.joined_splitDots (s : String) : joined "." (splitDots s) = s := by
  rw [← String.toList_inj, joined, String.toList_intercalate, toList_splitDots]
  exact List.intercalate_splitOn '.'

section

variable {α : Type} {p : α → Bool} {front tail : List α}

/-- A front in which nothing passes a test is what stands before the first that does. -/
theorem takeWhile_front (hfront : ∀ a ∈ front, p a = false) (htail : ∀ a ∈ tail.head?, p a = true) :
    (front ++ tail).takeWhile (!p ·) = front :=
  Text.takeWhile_stretch (fun a ha => by rw [hfront a ha]; rfl) fun a ha => by rw [htail a ha]; rfl

theorem dropWhile_front (hfront : ∀ a ∈ front, p a = false) (htail : ∀ a ∈ tail.head?, p a = true) :
    (front ++ tail).dropWhile (!p ·) = tail :=
  Text.dropWhile_stretch (fun a ha => by rw [hfront a ha]; rfl) fun a ha => by rw [htail a ha]; rfl

end

/-- What is read off each of a row is read off the row. -/
theorem mapM_map_eq_some {α β : Type} {read : β → Option α} {written : α → β} {members : List α}
    (h : ∀ a ∈ members, read (written a) = some a) : (members.map written).mapM read = some members := by
  induction members with
  | nil => rfl
  | cons a members ih =>
      obtain ⟨ha, hrest⟩ := List.forall_mem_cons.1 h
      rw [List.map_cons, List.mapM_cons, ha, ih hrest]
      rfl

namespace Sql

variable {d : Dialect} {α : Type}

namespace Token

/-- Whether a token is a mark. -/
def isMark (c : Char) : Token → Bool
  | mark other => other = c
  | _ => false

/-- The part of a reference that a token is: a name or a star. -/
def part? : Token → Option String
  | name text => some (String.ofList text)
  | mark c => if c = '*' then some "*" else none
  | _ => none

/-- What is read off the only token of a row. -/
def only? (read : Token → Option α) : List Token → Option α
  | [t] => read t
  | _ => none

/-- The name that a single token is. -/
def name? : List Token → Option String := only? fun t => match t with
  | name text => some (String.ofList text)
  | _ => none

/-- The reference that tokens are. -/
def reference? (tokens : List Token) : Option String :=
  ((tokens.splitOnP (isMark '.')).mapM (only? part?)).map (Text.joined ".")

/-- The members that stand between commas. -/
def members? (member? : List Token → Option α) (tokens : List Token) : Option (List α) :=
  (tokens.splitOnP (isMark ',')).mapM member?

end Token

open Token

section

variable {separator : String} (hborder : separator.toList ≠ [] ∧ Scan.Bordered separator.toList)
  (hend : ∃ c, separator.toList.getLast? = some c ∧ isWordChar c = false)

include hborder hend

theorem tokens_separated_cons (d : Dialect) (f : Fragment) {fs : List Fragment} (hne : fs ≠ []) :
    (separated separator (f :: fs)).tokens d = f.tokens d ++ (ofText separator ++ (separated separator fs).tokens d) := by
  have hseparated : separated separator (f :: fs) = f ++ .words separator :: separated separator fs := by
    rw [separated]
    exact hne
  have hbordered : Bordered (.words separator :: separated separator fs) := hborder
  rw [hseparated, tokens_append d f hbordered, tokens_words_cons d _ hend]

/-- A row with marks between its fragments is cut at the marks, if the fragments have none. -/
theorem splitOnP_separated {c : Char} (hmark : ofText separator = [.mark c]) {fs : List Fragment} (hne : fs ≠ [])
    (hfs : ∀ f ∈ fs, ∀ t ∈ f.tokens d, t.isMark c = false) :
    ((separated separator fs).tokens d).splitOnP (isMark c) = fs.map (tokens d) := by
  fun_induction Fragment.separated separator fs with
  | case1 => exact absurd rfl hne
  | case2 f => exact List.splitOnP_eq_singleton (hfs f List.mem_cons_self)
  | case3 f rest hrest ih =>
      have hcut : (Token.mark c).isMark c = true := decide_eq_true rfl
      rw [← separated, tokens_separated_cons hborder hend d f hrest, hmark, List.singleton_append,
        List.splitOnP_append_cons _ _ hcut, ih hrest fun g hg => hfs g (List.mem_cons_of_mem _ hg),
        List.splitOnP_eq_singleton (hfs f List.mem_cons_self)]
      · rfl
      · exact hrest

end

theorem tokens_commas_cons (d : Dialect) (f : Fragment) {fs : List Fragment} (hne : fs ≠ []) :
    (separated ", " (f :: fs)).tokens d = f.tokens d ++ .mark ',' :: (separated ", " fs).tokens d :=
  tokens_separated_cons ⟨by decide, by decide⟩ ⟨' ', by decide⟩ d f hne

/-- Members that are read one by one, and have no comma, are read in a row. -/
theorem members?_commas {member? : List Token → Option α} {written : α → Fragment} {members : List α} (hne : members ≠ [])
    (hmember : ∀ a ∈ members, member? ((written a).tokens d) = some a)
    (hcomma : ∀ a ∈ members, ∀ t ∈ (written a).tokens d, t.isMark ',' = false) :
    members? member? ((separated ", " (members.map written)).tokens d) = some members := by
  have hwritten : members.map written ≠ [] := fun hnil => hne (List.map_eq_nil_iff.1 hnil)
  rw [members?, splitOnP_separated ⟨by decide, by decide⟩ ⟨' ', by decide⟩ rfl hwritten (List.forall_mem_map.2 hcomma),
    List.map_map]
  exact mapM_map_eq_some hmember

/-- A reference is read as it is. -/
theorem reference?_tokens (d : Dialect) (ref : String) : reference? ((reference ref).tokens d) = some ref := by
  let written (part : String) : Fragment := if part = "*" then words part else [.name part]
  have hpart : ∀ part, only? part? ((written part).tokens d) = some part := by
    intro part
    unfold written
    split
    · subst part
      rfl
    · exact congrArg some String.ofList_toList
  have hdot : ∀ part, ∀ t ∈ (written part).tokens d, t.isMark '.' = false := by
    intro part
    unfold written
    split
    · subst part
      rw [tokens_words]
      decide
    · exact List.forall_mem_singleton.2 rfl
  have hne : (Text.splitDots ref).map written ≠ [] := fun hnil => Text.splitDots_ne_nil ref (List.map_eq_nil_iff.1 hnil)
  rw [reference?, reference, splitOnP_separated ⟨by decide, by decide⟩ ⟨'.', by decide⟩ rfl hne
      (List.forall_mem_map.2 fun part _ => hdot part), List.map_map]
  refine (congrArg _ (mapM_map_eq_some fun part _ => hpart part)).trans ?_
  rw [Option.map_some, Text.joined_splitDots]

theorem comma_reference (d : Dialect) (ref : String) : ∀ t ∈ (reference ref).tokens d, t.isMark ',' = false :=
  @forall_tokens_reference d (fun t => t.isMark ',' = false) rfl rfl (fun _ => rfl) ref

theorem members?_nameList {names : List String} (hne : names ≠ []) :
    members? name? ((nameList names).tokens d) = some names :=
  members?_commas hne (fun _ _ => congrArg some String.ofList_toList) fun _ _ => List.forall_mem_singleton.2 rfl

theorem members?_references {refs : List String} (hne : refs ≠ []) :
    members? reference? ((separated ", " (refs.map reference)).tokens d) = some refs :=
  members?_commas hne (fun ref _ => reference?_tokens d ref) fun ref _ => comma_reference d ref

end Sql

end Polyquery
