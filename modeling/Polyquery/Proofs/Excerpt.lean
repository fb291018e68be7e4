import Polyquery.Proofs.Engine
import Polyquery.Proofs.Members
import Polyquery.Proofs.Paging

/-! What a query asks of the rows that it finds, read back: the order, and the span of the rows so ordered. Both stand at the
end of the text, behind the first word that begins an order or a window. Main statements: the end of a query's text is read as
the terms of its order and as its window, and what an engine answers to a query of one table is the span that is read, of the
rows in the order that is read. -/

namespace Polyquery

open Sql Fragment

namespace Sql

/-- Rows in an order, and the span of them that is asked for. -/
structure Excerpt where
  order : List (String × Direction)
  span : Span
deriving DecidableEq, Repr

namespace Excerpt

open Token

/-! ### The grammar -/

def direction? : Token → Option Direction
  | .word text =>
    if text = "ASC".toList then some .ascending else if text = "DESC".toList then some .descending else none
  | _ => none

/-- A reference, and a direction behind it. -/
def term? (tokens : List Token) : Option (String × Direction) :=
  (reference? tokens.dropLast).bind fun ref => (tokens.getLast?.bind direction?).map (ref, ·)

/-- The terms of an order, and what stands behind them. -/
def ordered? (tokens : List Token) : Option (List (String × Direction) × List Token) :=
  (Span.behind? ["ORDER", "BY"] tokens).bind fun tokens =>
    (members? term? (tokens.takeWhile (!·.isTail))).map (·, tokens.dropWhile (!·.isTail))

/-- The excerpt that the tokens of a query end with. -/
def ofTokens? (d : Dialect) (tokens : List Token) : Option Excerpt :=
  let tail := tokens.dropWhile (!·.isTail)
  match ordered? tail with
  | some (order, window) => (Span.ofTokens? d true window).map (⟨order, ·⟩)
  | none => (Span.ofTokens? d false tail).map (⟨[], ·⟩)

/-- The excerpt that the text of a query ends with. -/
def read? (d : Dialect) (text : String) (params : List Value) : Option Excerpt :=
  (readTokens d text params).bind (ofTokens? d)

end Excerpt

open Token

variable {d : Dialect}

/-! ### The window at the end -/

/-- The first token of a text has a property. -/
def Token.Begins (P : Token → Prop) (text : String) : Prop := ∃ t rest, ofText text = t :: rest ∧ P t

theorem Token.begins_append {P : Token → Prop} {keyword : String}
    (hend : ∃ c, keyword.toList.getLast? = some c ∧ isWordChar c = false) (h : Begins P keyword) (text : String) :
    Begins P (keyword ++ text) := by
  obtain ⟨t, rest, hkeyword, ht⟩ := h
  exact ⟨t, rest ++ ofText text, by rw [ofText_append hend, hkeyword, List.cons_append], ht⟩

theorem Token.forall_head_flatMap {P : Token → Prop} {texts : List String} (h : ∀ s ∈ texts, Begins P s) :
    ∀ t ∈ (texts.flatMap ofText).head?, P t := by
  cases texts with
  | nil => exact nofun
  | cons s texts =>
      obtain ⟨t, rest, hs, ht⟩ := h s List.mem_cons_self
      rw [List.flatMap_cons, hs]
      rintro _ ⟨⟩
      exact ht

namespace Window

/-- Behind an order a window begins with a word of its own. -/
theorem begins_parts (w : Window) : ∀ s ∈ w.parts d true, Begins (fun t => t.isTail = true ∧ t.isOrder = false) s := by
  let P (t : Token) : Prop := t.isTail = true ∧ t.isOrder = false
  have hlimit : Begins P "LIMIT " := ⟨.word "LIMIT".toList, [], rfl, rfl, rfl⟩
  have hall : Begins P "LIMIT -1" := ⟨.word "LIMIT".toList, [.mark '-', .word "1".toList], rfl, rfl, rfl⟩
  have hoffset : Begins P "OFFSET " := ⟨.word "OFFSET".toList, [], rfl, rfl, rfl⟩
  have hnext : Begins P "FETCH NEXT " := ⟨.word "FETCH".toList, [.word "NEXT".toList], rfl, rfl, rfl⟩
  have hfirst : Begins P "FETCH FIRST " := ⟨.word "FETCH".toList, [.word "FIRST".toList], rfl, rfl, rfl⟩
  have hcounted : ∀ {keyword : String}, (∃ c, keyword.toList.getLast? = some c ∧ isWordChar c = false) →
      Begins P keyword → ∀ (closing : String) (n : Int), Begins P (keyword ++ toString n ++ closing) := by
    intro keyword hend hkeyword closing n
    rw [String.append_assoc]
    exact begins_append hend hkeyword _
  exact w.forall_parts (fun _ => begins_append ⟨' ', by decide⟩ hlimit _) hall
    (fun _ => begins_append ⟨' ', by decide⟩ hoffset _) (hcounted ⟨' ', by decide⟩ hoffset _)
    (hcounted ⟨' ', by decide⟩ hnext _) (hcounted ⟨' ', by decide⟩ hfirst _) fun h => Bool.noConfusion h

/-- Without an order a window is written as behind one, or behind an order by nothing. -/
theorem parts_unordered (w : Window) :
    w.parts d false = w.parts d true ∨ w.parts d false = "ORDER BY (SELECT NULL)" :: w.parts d true := by
  cases d with
  | sqlserver =>
      rw [parts, parts]
      split
      · exact .inl rfl
      · exact .inr rfl
  | _ => exact .inl rfl

theorem tail_parts (w : Window) : ∀ t ∈ ((w.parts d true).flatMap ofText).head?, t.isTail = true ∧ t.isOrder = false :=
  forall_head_flatMap w.begins_parts

/-- A window on its own begins with a word that begins an end. -/
theorem tail_parts_unordered (w : Window) : ∀ t ∈ ((w.parts d false).flatMap ofText).head?, t.isTail = true := by
  rcases w.parts_unordered (d := d) with hparts | hparts
  · rw [hparts]
    exact fun t ht => (w.tail_parts t ht).1
  · rw [hparts]
    rintro _ ⟨⟩
    rfl

end Window

namespace Excerpt

/-! ### The order in front of it -/

theorem term?_tokens (d : Dialect) (term : String × Direction) : term? ((Selection.term term).tokens d) = some term := by
  obtain ⟨ref, direction⟩ := term
  have hdirection : ∃ t, ofText (" " ++ direction.spelling) = [t] ∧ direction? t = some direction := by
    cases direction <;> exact ⟨_, rfl, rfl⟩
  obtain ⟨t, htoken, ht⟩ := hdirection
  rw [term?, Selection.tokens_term, htoken, List.dropLast_concat, List.getLast?_concat, reference?_tokens, Option.bind_some,
    Option.bind_some, ht]
  rfl

theorem comma_term (d : Dialect) (term : String × Direction) : ∀ t ∈ (Selection.term term).tokens d, t.isMark ',' = false := by
  rw [Selection.tokens_term]
  refine List.forall_mem_append.2 ⟨comma_reference d term.1, ?_⟩
  cases term.2 <;> decide

theorem tail_of_inner {f : Fragment} (h : Inner d f) : ∀ t ∈ f.tokens d, t.isTail = false := by
  intro t ht
  have hinner := h t ht
  rw [isInner, Bool.and_eq_true, Bool.not_eq_true'] at hinner
  exact hinner.2

/-- Terms behind `ORDER BY` are read as the order. -/
theorem ordered?_terms {terms : List (String × Direction)} (hne : terms ≠ []) {window : List Token}
    (hwindow : ∀ t ∈ window.head?, t.isTail = true) :
    ordered? (ofText "ORDER BY" ++ ((separated ", " (terms.map Selection.term)).tokens d ++ window)) = some (terms, window) := by
  have hterms := tail_of_inner (Selection.inner_terms d terms)
  have hbehind : Span.behind? ["ORDER", "BY"]
      (ofText "ORDER BY" ++ ((separated ", " (terms.map Selection.term)).tokens d ++ window)) =
        some ((separated ", " (terms.map Selection.term)).tokens d ++ window) := rfl
  rw [ordered?, hbehind, Option.bind_some, takeWhile_front hterms hwindow, dropWhile_front hterms hwindow,
    members?_commas hne (fun term _ => term?_tokens d term) fun term _ => comma_term d term]
  rfl

/-- A window on its own has no order, nor has one behind an order by nothing. -/
theorem ordered?_parts (w : Window) : ordered? ((w.parts d false).flatMap ofText) = none := by
  have hnone : ∀ {tokens : List Token}, (∀ t ∈ tokens.head?, t.isOrder = false) →
      Span.behind? ["ORDER", "BY"] tokens = none := by
    intro tokens h
    match tokens with
    | [] => rfl
    | .word text :: rest => exact if_neg (of_decide_eq_false (h _ rfl))
    | .mark _ :: _ | .name _ :: _ | .literal _ :: _ | .param _ :: _ => rfl
  rcases w.parts_unordered (d := d) with hparts | hparts
  · rw [hparts, ordered?, hnone fun t ht => (w.tail_parts t ht).2]
    rfl
  · have hbehind : Span.behind? ["ORDER", "BY"] ((w.parts d false).flatMap ofText) =
        some (ofText "(SELECT NULL)" ++ (w.parts d true).flatMap ofText) := by
      rw [hparts]
      rfl
    rw [ordered?, hbehind, Option.bind_some,
      takeWhile_front (by decide) fun t ht => (w.tail_parts t ht).1]
    rfl

end Excerpt

/-! ### Queries -/

namespace Selection

/-- Without the caller's own text, a selection whose front has neither an order nor a window is read as its own order, and the
span that its window is read as. -/
theorem excerpt_ofTokens? {s : Selection} (hfront : ∀ t ∈ s.front.tokens d, t.isTail = false) :
    Excerpt.ofTokens? d ((s.fragment d).tokens d) =
      (Span.ofTokens? d (!s.orderBy.isEmpty) ((s.window.parts d (!s.orderBy.isEmpty)).flatMap ofText)).map
        (⟨s.orderBy, ·⟩) := by
  have hborder : Bordered (optional "ORDER BY" s.terms) := bordered_optional _ ⟨by decide, by decide⟩
  rw [fragment_eq, tokens_append _ _ s.bordered_windowClause, tokens_append _ _ hborder, List.append_assoc,
    tokens_windowClause, Excerpt.ofTokens?]
  cases hterms : s.orderBy with
  | nil =>
      have hnone : (optional "ORDER BY" s.terms).tokens d = [] := by
        rw [terms, hterms]
        rfl
      rw [hnone, List.nil_append, List.isEmpty_nil, Bool.not_true,
        dropWhile_front hfront s.window.tail_parts_unordered, Excerpt.ordered?_parts]
  | cons first rest =>
      have horder : (optional "ORDER BY" s.terms).tokens d =
          ofText "ORDER BY" ++ (separated ", " ((first :: rest).map term)).tokens d := by
        have hterms' : s.terms = (first :: rest).map term := by
          rw [terms, hterms]
        rw [hterms']
        exact tokens_words_cons d _ ⟨' ', by decide⟩
      have hwindow : ∀ t ∈ ((s.window.parts d true).flatMap ofText).head?, t.isTail = true := fun t ht =>
        (s.window.tail_parts t ht).1
      have hends : ∀ tail : List Token, ∀ t ∈ (ofText "ORDER BY" ++ tail).head?, t.isTail = true := by
        rintro tail _ ⟨⟩
        rfl
      rw [horder, List.isEmpty_cons, Bool.not_false, List.append_assoc, dropWhile_front hfront (hends _),
        Excerpt.ordered?_terms (List.cons_ne_nil first rest) hwindow]

end Selection

end Sql

variable {c : Compiler} {q : Query}

/-- The terms of a query's order. -/
def QueryOf.order {φ : Type} (q : QueryOf φ) : List (String × Direction) := q.orderBy.map fun term => (term.column, term.direction)

/-- The text of a query ends with its order and its window, the caller's own text left out; and all of the text does where there
is none. -/
theorem select_excerpt {s : Statement} (h : c.select q = .ok s) {limit offset : Option Nat}
    (hwindow : (⟨q.limit, q.offset⟩ : Window) = .ofNat limit offset) :
    Excerpt.read? c.dialect (s.fragment.masked.text c.dialect) s.params =
        some ⟨q.order, offset.getD 0, Window.most c.dialect limit offset⟩ ∧
      ((Request.select q).Rawless → s.fragment.masked.text c.dialect = s.sql) := by
  obtain ⟨selection, hselects, rfl⟩ := Compiler.select_parts h
  obtain ⟨hmasked, hlegible⟩ := legible_masked hselects
  have hfront := Selection.untailed_front (untailed_whereClause hselects.condition)
  have horder : selection.masked.orderBy = q.order := hselects.orderBy
  have hwritten : selection.masked.window = .ofNat limit offset := Eq.trans hselects.window hwindow
  refine ⟨?_, fun hraw => ?_⟩
  · rw [Excerpt.read?, readTokens, Statement.params, ← params_masked, Statement.fragment, Command.fragment, hmasked,
      hlegible.readLexemes, Option.map_some, Option.bind_some, ← Fragment.tokens,
      Selection.excerpt_ofTokens? hfront.tail, hwritten, Span.ofTokens?_parts, horder]
    rfl
  · obtain ⟨-, hown⟩ := compile_own hraw (congrArg (Except.map some) h)
    rw [masked_of_own hown]
    rfl

/-- An order by nothing is none. -/
example : Excerpt.read? .sqlserver "SELECT * FROM [t] ORDER BY (SELECT NULL) OFFSET 4 ROWS" [] = some ⟨[], 4, none⟩ := rfl

namespace Engine

variable (E : Engine)

theorem cut_ofNat {limit offset : Option Nat} (d : Dialect) {rows : List Row} (h : rows.length ≤ 18446744073709551615) :
    (Window.ofNat limit offset).cut rows = Span.rows ⟨offset.getD 0, Window.most d limit offset⟩ rows := by
  rw [Window.rows_most d limit offset h]
  cases limit <;> cases offset <;> rfl

/-- What an engine answers to a query of one table without groups is the excerpt that the text ends with: of the rows found, put
in the order that is read, or of their number, the span that is read. -/
theorem answer_excerpt {selection : Selection} (h : c.selection q = .ok selection) (hjoins : selection.joins = [])
    (hgroups : selection.groupBy = []) (hhaving : selection.having = []) {limit offset : Option Nat}
    (hwindow : (⟨q.limit, q.offset⟩ : Window) = .ofNat limit offset) {store : Store}
    (hsize : (store selection.table).length ≤ 18446744073709551615) :
    let s : Statement := ⟨c.dialect, .select, .select selection⟩
    let found := E.found c.dialect selection store
    ∃ excerpt, Excerpt.read? c.dialect (s.fragment.masked.text c.dialect) s.params = some excerpt ∧
      E.answer c.dialect selection store =
        if selection.projection = counting then excerpt.span.rows [[(.text "c", .int found.length)]]
        else (excerpt.span.rows (E.arrange excerpt.order found)).map (E.project selection.projection) := by
  intro s found
  have hselects := selects_of_selection h
  refine ⟨_, (select_excerpt (s := s) (bind_eq_ok.2 ⟨selection, h, rfl⟩) hwindow).1, ?_⟩
  have hfound : found.length ≤ 18446744073709551615 := (List.length_filter_le _ _).trans hsize
  have horder : selection.orderBy = q.order := hselects.orderBy
  have hcut : selection.window = .ofNat limit offset := Eq.trans hselects.window hwindow
  have hone : [[(Value.text "c", Value.int found.length)]].length ≤ 18446744073709551615 := Nat.le_add_left 1 _
  have harranged : (E.arrange q.order found).length ≤ 18446744073709551615 :=
    (E.arrange_perm q.order found).length_eq.trans_le hfound
  have hanswer : E.answer c.dialect selection store =
      if selection.projection = counting then selection.window.cut [[(.text "c", .int found.length)]]
      else (selection.window.cut (E.arrange selection.orderBy found)).map (E.project selection.projection) := by
    rw [answer, hjoins, hgroups, hhaving]
    rfl
  rw [hanswer, hcut, horder, cut_ofNat c.dialect hone, cut_ofNat c.dialect harranged]

end Engine

end Polyquery
