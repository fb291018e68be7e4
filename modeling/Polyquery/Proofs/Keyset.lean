import Polyquery.Proofs.Driven
import Polyquery.Proofs.Request

/-! Pages in the order of a key. The query for the page after a cursor is the query itself, ordered by the key first and
bounded by the cursor. Main statement: going from page to page, each after the key of the last row before it, meets every
row of the query once and in the order of the key, and ends after as many full pages as there are and one more. -/

namespace Polyquery

open Sql Session

variable {σ : Type} {E : Engine} {db : Access (Session σ)} {c : Compiler} {holds : World σ → Store → Prop} {q : Query}
  {key : String}

namespace Query

/-- A query over one table that reads whole rows. -/
structure Whole (q : Query) : Prop where
  columns : q.columns = [.text "*"]
  joins : q.joins = []
  groupBy : q.groupBy = []
  having : q.having = []

/-- The selection of a query over one table that reads whole rows. -/
def wholeSelection (q : Query) (c : Compiler) (condition : Chain) : Selection where
  projection := [.column "*"]
  table := c.table q.table
  condition := condition
  orderBy := q.orderBy.map fun term => (term.column, term.direction)
  window := ⟨q.limit, q.offset⟩

theorem Whole.selection_eq_ok (h : Whole q) {s : Selection} :
    c.selection q = .ok s ↔ ∃ condition, c.whereChain q.filters q.visibility c.scope "" = .ok condition ∧
      s = wholeSelection q c condition := by
  have hprojection : Compiler.projection q.columns = pure [.column "*"] := by
    have hstar : Projected.ofText "*" = .column "*" := by decide +kernel
    rw [h.columns, ← hstar]
    rfl
  have hselection : c.selection q = (do
      let condition ← c.whereChain q.filters q.visibility c.scope ""
      pure (wholeSelection q c condition)) := by
    rw [Compiler.selection, hprojection, h.joins, h.groupBy, h.having]
    simp only [Compiler.havingClauses, List.mapM_nil, pure_bind, List.isEmpty_nil, if_true]
    rfl
  rw [hselection, bind_eq_ok]
  exact exists_congr fun _ => and_congr_right fun _ => pure_eq_ok.trans eq_comm

theorem answer_whole (E : Engine) (q : Query) (c : Compiler) (condition : Chain) (store : Store) :
    E.answer c.dialect (wholeSelection q c condition) store =
      Window.cut ⟨q.limit, q.offset⟩ (E.arrange (q.orderBy.map fun term => (term.column, term.direction))
        ((store (c.table q.table)).filter (E.meets c.dialect condition))) := by
  have hproject : E.project [.column "*"] = id := funext E.project_everything
  rw [Engine.answer]
  simp only [wholeSelection, List.isEmpty_nil, Bool.and_self, if_true, hproject, List.map_id]
  exact if_neg (by decide)

/-- Whether a query orders a key before all else, as far as it orders it. -/
def IsLedBy (q : Query) (key : String) : Prop :=
  (∀ term ∈ q.orderBy, term.column ≠ key) ∨ ∃ term rest, q.orderBy = term :: rest ∧ term.column = key

/-- A query whose pages a key bounds: whole rows of one table, so many a page, in an order that begins with the key
unless it does without it. -/
structure Pageable (q : Query) (key : String) (size : Int) : Prop extends Whole q where
  plain : PlainColumn key
  unaliased : ResultName.lastOccurrence? ResultName.aliasWord (Text.lowerAfter [] key.toList) = none
  limit : q.limit = some size
  positive : 1 ≤ size
  offset : q.offset = none
  order : (∀ term ∈ q.orderBy, term.column ≠ key) ∨ ∃ term rest, q.orderBy = term :: rest ∧ term.column = key

end Query

/-! ### Rows behind a cursor -/

/-- Rows with keys of their own. -/
structure Engine.Keys (E : Engine) (key : String) (rows : List Row) : Prop where
  present : ∀ row ∈ rows, (row.get key).isNull = false
  distinct : rows.Pairwise fun a b => E.order (a.get key) (b.get key) ≠ .eq

/-- Whether one key comes before another in a direction. -/
def Engine.isBefore (E : Engine) (direction : Direction) (a b : Value) : Bool :=
  direction.turned (E.order a b) = .lt

/-- Whether a row lies behind a cursor; behind none lies every row. -/
def Engine.isBehind (E : Engine) (direction : Direction) (key : String) (cursor : Value) (row : Row) : Bool :=
  cursor.isNull || E.isBefore direction cursor (row.get key)

namespace Query

/-- The filter that a cursor adds. -/
def bound (direction : Direction) (key : String) (cursor : Value) : Filter :=
  .basic key (if direction = .ascending then ">" else "<") cursor .and

/-- Filters that a bound is added to: more than one of them stand in parentheses. -/
def enclosed (filters : List Filter) : List Filter :=
  if filters.length > 1 then [Filter.grouped filters .and] else filters

theorem keysetQuery_filters (q : Query) {cursor : Value} (h : cursor.isNull = false) (key : String) :
    (keysetQuery q cursor key).filters = enclosed q.filters ++ [bound (q.directionOf key) key cursor] := by
  rw [keysetQuery, h]
  rfl

theorem keysetQuery_orderBy (q : Query) (cursor : Value) (key : String) :
    (keysetQuery q cursor key).orderBy =
      if q.orderBy.any (·.column = key) then q.orderBy else ⟨key, q.directionOf key⟩ :: q.orderBy := by
  rw [keysetQuery]
  cases cursor.isNull <;> cases q.orderBy.any (·.column = key) <;> rfl

theorem keysetQuery_keeps (q : Query) (cursor : Value) (key : String) :
    let page := keysetQuery q cursor key
    page.table = q.table ∧ page.timeout = q.timeout ∧ page.visibility = q.visibility ∧ page.limit = q.limit ∧
      page.offset = q.offset ∧ (q.Whole → page.Whole) := by
  rw [keysetQuery]
  cases cursor.isNull <;> cases q.orderBy.any (·.column = key) <;>
    exact ⟨rfl, rfl, rfl, rfl, rfl, fun h => ⟨h.columns, h.joins, h.groupBy, h.having⟩⟩

/-- The rows of a page have the key under its own name. -/
theorem Pageable.ofColumn_eq {size : Int} (h : q.Pageable key size) : ResultName.ofColumn key = key := by
  rw [ResultName.ofColumn, h.unaliased, Text.splitDots_undotted h.plain.undotted]
  rfl

/-- The pages of a query that a key leads are ordered by the key first, in the direction of the query. -/
theorem IsLedBy.orderBy_eq (h : q.IsLedBy key) (cursor : Value) :
    ∃ rest, (keysetQuery q cursor key).orderBy = ⟨key, q.directionOf key⟩ :: rest := by
  rw [keysetQuery_orderBy]
  rcases h with hnone | ⟨term, rest, hterms, hkey⟩
  · have hany : q.orderBy.any (·.column = key) = false := by
      rw [List.any_eq_false]
      exact fun term hmem => by simpa using hnone term hmem
    rw [hany]
    exact ⟨q.orderBy, rfl⟩
  · have hdirection : q.directionOf key = term.direction := by
      rw [QueryOf.directionOf, hterms, List.find?_cons_of_pos (by simpa using hkey)]
    have hany : q.orderBy.any (·.column = key) = true := by
      rw [hterms, List.any_cons, decide_eq_true hkey, Bool.true_or]
    refine ⟨rest, ?_⟩
    rw [hany, if_pos rfl, hterms, hdirection, ← hkey]

theorem Pageable.orderBy_eq {size : Int} (h : q.Pageable key size) (cursor : Value) :
    ∃ rest, (keysetQuery q cursor key).orderBy = ⟨key, q.directionOf key⟩ :: rest :=
  IsLedBy.orderBy_eq h.order cursor

end Query

/-! ### The condition of a page -/

theorem Sql.Truth.chain_concat {ts : List (Connective × Truth)} (h : ts.length ≤ 1) (t : Truth) :
    Truth.chain (ts ++ [(.and, t)]) = (Truth.chain ts).and t := by
  match ts with
  | [] => simp [Truth.chain, Truth.runsFrom, Truth.any]
  | [(_, s)] => simp [Truth.chain, Truth.runsFrom, Truth.any]

namespace Filter

variable {d : Dialect} {ρ : List Token → Truth}

theorem truths_append (d : Dialect) (ρ : List Token → Truth) (filters others : List Filter) :
    truths d ρ (filters ++ others) = truths d ρ filters ++ truths d ρ others := by
  induction filters with
  | nil => rfl
  | cons filter filters ih =>
      rw [List.cons_append, truths, truths, ih]
      cases filter.truth? d ρ <;> rfl

theorem length_truths_le (d : Dialect) (ρ : List Token → Truth) (filters : List Filter) :
    (truths d ρ filters).length ≤ filters.length := by
  induction filters with
  | nil => exact Nat.le_refl 0
  | cons filter filters ih =>
      rw [truths]
      cases filter.truth? d ρ with
      | some t => exact Nat.succ_le_succ ih
      | none => exact Nat.le_succ_of_le ih

/-- Filters that a bound may be added to, and what they say. -/
theorem truths_enclosed (d : Dialect) (ρ : List Token → Truth) (filters : List Filter) :
    (truths d ρ (Query.enclosed filters)).length ≤ 1 ∧
      Truth.chain (truths d ρ (Query.enclosed filters)) = Truth.chain (truths d ρ filters) := by
  rw [Query.enclosed]
  split
  · refine ⟨length_truths_le d ρ [grouped filters .and], ?_⟩
    rw [truths, grouped, truth?, groupTruths_eq]
    cases htruths : truths d ρ filters with
    | nil => rfl
    | cons t ts => simp [truths, Truth.chain, Truth.runsFrom, Truth.any]
  · rename_i hfew
    exact ⟨Nat.le_trans (length_truths_le d ρ filters) (Nat.le_of_not_lt hfew), rfl⟩

end Filter

namespace Compiler

theorem filterChain_enclosed {filters : List Filter} {chain : Chain} (h : c.filterChain filters = .ok chain) :
    ∃ chain', c.filterChain (Query.enclosed filters) = .ok chain' := by
  rw [Query.enclosed]
  split
  · rw [filterChain, Filter.grouped, condition?, groupChain, h]
    exact ⟨_, rfl⟩
  · exact ⟨chain, h⟩

theorem filterChain_bound (direction : Direction) (key : String) (cursor : Value) :
    ∃ chain, c.filterChain [Query.bound direction key cursor] = .ok chain := by
  cases direction with
  | ascending => exact ⟨_, by rw [filterChain, Query.bound, condition?]; rfl⟩
  | descending => exact ⟨_, by rw [filterChain, Query.bound, condition?]; rfl⟩

end Compiler

/-- What a comparison with a cursor says of a row. -/
theorem Engine.compared_bound (E : Engine) (direction : Direction) {a cursor : Value} (ha : a.isNull = false)
    (hcursor : cursor.isNull = false) :
    E.compared (if direction = .ascending then .greater else .less) a cursor = .yes ↔
      E.isBefore direction cursor a = true := by
  have hlawful := E.lawful
  have hswap : E.order a cursor = (E.order cursor a).swap := hlawful.eq_swap
  rw [Collation.compared, ha, hcursor, Engine.isBefore, hswap]
  cases direction <;> cases E.order cursor a <;> decide

/-- The bound of a cursor is true of the rows behind it. -/
theorem truths_bound (E : Engine) (d : Dialect) (hkey : PlainColumn key) (direction : Direction) {cursor : Value}
    (hcursor : cursor.isNull = false) (row : Row) :
    Filter.truths d (E.truth row) [Query.bound direction key cursor] =
      [(.and, E.compared (if direction = .ascending then .greater else .less) (row.get key) cursor)] := by
  have hgreater : Operator.ofText? ">" = some .greater := by decide
  have hless : Operator.ofText? "<" = some .less := by decide
  cases direction with
  | ascending =>
      rw [← E.comparisonTruth_plain d hkey (by decide) (by decide) hcursor row]
      simp [Filter.truths, Query.bound, Filter.truth?, hgreater, Filter.connective]
  | descending =>
      rw [← E.comparisonTruth_plain d hkey (by decide) (by decide) hcursor row]
      simp [Filter.truths, Query.bound, Filter.truth?, hless, Filter.connective]

/-- The condition of a page is met by the rows of the query that lie behind the cursor. -/
theorem meets_page (E : Engine) (hkey : PlainColumn key) {condition : Chain}
    (h : c.whereChain q.filters q.visibility c.scope "" = .ok condition) (cursor : Value) :
    ∃ bounded, c.whereChain (Query.keysetQuery q cursor key).filters q.visibility c.scope "" = .ok bounded ∧
      ∀ row, (row.get key).isNull = false → E.meets c.dialect bounded row =
        (E.meets c.dialect condition row && E.isBehind (q.directionOf key) key cursor row) := by
  cases hcursor : cursor.isNull with
  | true =>
      have hfilters : (Query.keysetQuery q cursor key).filters = q.filters := by
        rw [Query.keysetQuery, hcursor]
        cases q.orderBy.any (·.column = key) <;> rfl
      refine ⟨condition, by rw [hfilters, h], fun row _ => ?_⟩
      rw [Engine.isBehind, hcursor, Bool.true_or, Bool.and_true]
  | false =>
      obtain ⟨added, own, hadded, hown, -⟩ := whereChain_parts h
      obtain ⟨enclosed, henclosed⟩ := Compiler.filterChain_enclosed hown
      obtain ⟨bound, hbound⟩ := Compiler.filterChain_bound (c := c) (q.directionOf key) key cursor
      have hchain := Compiler.filterChain_append.2 ⟨enclosed, bound, henclosed, hbound, rfl⟩
      rw [← Query.keysetQuery_filters q hcursor key] at hchain
      have hbounded : c.whereChain (Query.keysetQuery q cursor key).filters q.visibility c.scope "" =
          .ok (Compiler.joinChains added (enclosed ++ bound)) :=
        bind_eq_ok.2 ⟨added, hadded, bind_eq_ok.2 ⟨enclosed ++ bound, hchain, rfl⟩⟩
      refine ⟨_, hbounded, fun row hrow => Bool.eq_iff_iff.2 ?_⟩
      obtain ⟨hfew, hsame⟩ := Filter.truths_enclosed c.dialect (E.truth row) q.filters
      rw [E.meets_whereChain hbounded, Bool.and_eq_true, E.meets_whereChain h, Query.keysetQuery_filters q hcursor,
        Filter.truths_append, truths_bound E c.dialect hkey _ hcursor, Truth.chain_concat hfew, hsame,
        ← Truth.and_assoc, Truth.and_eq_yes_iff, E.compared_bound _ hrow hcursor, Engine.isBehind, hcursor,
        Bool.false_or]

/-! ### Rows in the order of the key -/

namespace Engine

variable {direction : Direction} {rows pre post : List Row}

/-- Rows that come one after the other in the order of a key. -/
def Ascend (E : Engine) (direction : Direction) (key : String) (rows : List Row) : Prop :=
  rows.Pairwise fun a b => E.isBefore direction (a.get key) (b.get key) = true

theorem isBefore_asymm {a b : Value} (h : E.isBefore direction a b = true) : E.isBefore direction b a = false := by
  have hlawful := E.lawful
  have hswap : E.order b a = (E.order a b).swap := hlawful.eq_swap
  rw [isBefore, decide_eq_true_iff] at h
  rw [isBefore, hswap, decide_eq_false_iff_not]
  cases direction <;> cases hab : E.order a b <;> rw [hab] at h <;> first | decide | cases h

theorem isBefore_self (E : Engine) (direction : Direction) (a : Value) : E.isBefore direction a a = false := by
  cases h : E.isBefore direction a a with
  | false => rfl
  | true => rw [isBefore_asymm h] at h; exact h.symm

/-- Rows arranged by terms of which the first is the key never step back in its order. -/
theorem arrange_steps (E : Engine) (hkey : PlainColumn key) (direction : Direction) (rest : List (String × Direction))
    (rows : List Row) : (E.arrange ((key, direction) :: rest) rows).Pairwise fun a b =>
      E.isBefore direction (b.get key) (a.get key) = false := by
  have hlawful := E.lawful
  have hreferred : ∀ row : Row, row.referred key = row.get key := by
    intro row
    rw [Row.referred, Text.splitDots_undotted hkey.undotted]
    rfl
  refine (E.arrange_sorted ((key, direction) :: rest) rows).imp ?_
  intro a b hle
  have hswap : E.order (b.get key) (a.get key) = (E.order (a.get key) (b.get key)).swap := hlawful.eq_swap
  rw [Collation.byTerms, hreferred, hreferred] at hle
  rw [isBefore, hswap, decide_eq_false_iff_not]
  cases direction <;> cases hab : E.order (a.get key) (b.get key) <;> rw [hab] at hle <;>
    first | decide | exact absurd rfl hle

/-- Arranged by terms of which the first is the key, rows with keys of their own come in its order. -/
theorem ascend_arrange (hkey : PlainColumn key) (K : E.Keys key rows) (direction : Direction)
    (rest : List (String × Direction)) : E.Ascend direction key (E.arrange ((key, direction) :: rest) rows) := by
  have hlawful := E.lawful
  have hperm := E.arrange_perm ((key, direction) :: rest) rows
  have hdistinct : (E.arrange ((key, direction) :: rest) rows).Pairwise
      fun a b => E.order (a.get key) (b.get key) ≠ .eq := by
    refine (hperm.pairwise_iff ?_).2 K.distinct
    intro a b h heq
    have hswap : E.order (a.get key) (b.get key) = (E.order (b.get key) (a.get key)).swap := hlawful.eq_swap
    rw [heq] at hswap
    exact h hswap
  refine (E.arrange_steps hkey direction rest rows).imp₂ ?_ hdistinct
  intro a b hstep hne
  have hswap : E.order (b.get key) (a.get key) = (E.order (a.get key) (b.get key)).swap := hlawful.eq_swap
  rw [isBefore, hswap, decide_eq_false_iff_not] at hstep
  rw [isBefore, decide_eq_true_iff]
  cases direction <;> cases hab : E.order (a.get key) (b.get key) <;> rw [hab] at hstep <;>
    first | rfl | exact absurd hab hne | exact absurd rfl hstep

/-- Rows in order are told by their members. -/
theorem Ascend.eq_of_perm (h : E.Ascend direction key pre) (h' : E.Ascend direction key post) (hperm : pre.Perm post) :
    pre = post := by
  refine hperm.eq_of_pairwise ?_ h h'
  intro a b _ _ hab hba
  rw [isBefore_asymm hab] at hba
  cases hba

/-- Of rows in order, those behind the key of a row are the ones that follow it. -/
theorem Ascend.filter_behind {last : Row} (h : E.Ascend direction key (pre ++ last :: post))
    (hlast : (last.get key).isNull = false) :
    (pre ++ last :: post).filter (E.isBehind direction key (last.get key)) = post := by
  obtain ⟨-, hrest, hacross⟩ := List.pairwise_append.1 h
  obtain ⟨hpost, -⟩ := List.pairwise_cons.1 hrest
  have hbehind : ∀ row, E.isBehind direction key (last.get key) row =
      E.isBefore direction (last.get key) (row.get key) := by
    intro row
    rw [isBehind, hlast, Bool.false_or]
  have hnone : pre.filter (E.isBehind direction key (last.get key)) = [] := by
    refine List.filter_eq_nil_iff.2 fun row hrow => ?_
    rw [hbehind, isBefore_asymm (hacross row hrow last List.mem_cons_self)]
    exact Bool.false_ne_true
  have hself : E.isBehind direction key (last.get key) last = false := by rw [hbehind, isBefore_self]
  have hall : post.filter (E.isBehind direction key (last.get key)) = post := by
    refine List.filter_eq_self.2 fun row hrow => ?_
    rw [hbehind]
    exact hpost row hrow
  rw [List.filter_append, hnone, List.nil_append, List.filter_cons_of_neg (by rw [hself]; exact Bool.false_ne_true),
    hall]

theorem Keys.filter (K : E.Keys key rows) (test : Row → Bool) : E.Keys key (rows.filter test) :=
  ⟨fun row hrow => K.present row (List.mem_filter.1 hrow).1, K.distinct.filter _⟩

end Engine

/-! ### Going from page to page -/

/-- Pages one after the other from a cursor on, each after the key of the last row before it, up to the first page without
a cursor behind it. -/
inductive Traversal (db : Access (Session σ)) (q : Query) (key : String) : Value → World σ → List Page → World σ → Prop
  | last {cursor : Value} {w w' : World σ} {page : Page}
      (hpage : outcome (Query.keysetPage db q cursor (.text key)) w = (.ok page, w')) (hnext : page.next.isNull = true) :
      Traversal db q key cursor w [page] w'
  | more {cursor : Value} {w w' w'' : World σ} {page : Page} {pages : List Page}
      (hpage : outcome (Query.keysetPage db q cursor (.text key)) w = (.ok page, w')) (hnext : page.next.isNull = false)
      (rest : Traversal db q key page.next w' pages w'') : Traversal db q key cursor w (page :: pages) w''

/-- The statements of a traversal: those for its pages, and the one for all rows at once. -/
def Query.traversing (q : Query) (key : String) (c : Compiler) (s : Statement) : Prop :=
  c.select { q with limit := none } = .ok s ∨ ∃ cursor, c.select (q.keysetQuery cursor key) = .ok s

/-- The rows of a query in the order of its pages. -/
def Query.inOrder (E : Engine) (q : Query) (key : String) (c : Compiler) (condition : Chain) (store : Store) : List Row :=
  E.arrange ((Query.keysetQuery q .null key).orderBy.map fun term => (term.column, term.direction))
    ((store (c.table q.table)).filter (E.meets c.dialect condition))

/-- What comes behind a cursor: all rows if there is none, else those that follow the row whose key it is. -/
def Behind (key : String) (cursor : Value) (rows post : List Row) : Prop :=
  cursor = .null ∧ rows = post ∨ ∃ pre last, rows = pre ++ last :: post ∧ cursor = last.get key

theorem Behind.next {cursor : Value} {rows post page rest : List Row} {last : Row} (h : Behind key cursor rows post)
    (hpost : post = page ++ last :: rest) : Behind key (last.get key) rows rest := by
  subst hpost
  rcases h with ⟨-, rfl⟩ | ⟨pre, before, rfl, -⟩
  · exact .inr ⟨page, last, rfl, rfl⟩
  · exact .inr ⟨pre ++ before :: page, last, by simp, rfl⟩

theorem Behind.subset {cursor : Value} {rows post : List Row} (h : Behind key cursor rows post) : post ⊆ rows := by
  rcases h with ⟨-, rfl⟩ | ⟨pre, last, rfl, -⟩
  · exact fun _ hrow => hrow
  · exact fun _ hrow => List.mem_append_right _ (List.mem_cons_of_mem _ hrow)

variable {size : Int} {condition : Chain} {w : World σ} {store : Store}

theorem ascend_inOrder (P : q.Pageable key size) (K : E.Keys key (store (c.table q.table))) (condition : Chain) :
    E.Ascend (q.directionOf key) key (q.inOrder E key c condition store) := by
  obtain ⟨rest, horder⟩ := P.orderBy_eq .null
  rw [Query.inOrder, horder, List.map_cons]
  exact Engine.ascend_arrange P.plain (K.filter _) _ _

/-- The rows that a page reads are those that lie behind its cursor, in order. -/
theorem answer_page (P : q.Pageable key size) (K : E.Keys key (store (c.table q.table))) {bounded : Chain}
    (cursor : Value) (hmeets : ∀ row, (row.get key).isNull = false → E.meets c.dialect bounded row =
      (E.meets c.dialect condition row && E.isBehind (q.directionOf key) key cursor row)) :
    E.answer c.dialect ((Query.keysetQuery q cursor key).wholeSelection c bounded) store =
      ((q.inOrder E key c condition store).filter (E.isBehind (q.directionOf key) key cursor)).take size.toNat := by
  obtain ⟨htable, -, -, hlimit, hoffset, -⟩ := Query.keysetQuery_keeps q cursor key
  have hsame : (Query.keysetQuery q cursor key).orderBy = (Query.keysetQuery q .null key).orderBy := by
    rw [Query.keysetQuery_orderBy, Query.keysetQuery_orderBy]
  have hfound : (store (c.table q.table)).filter (E.meets c.dialect bounded) =
      ((store (c.table q.table)).filter (E.meets c.dialect condition)).filter
        (E.isBehind (q.directionOf key) key cursor) := by
    rw [List.filter_filter]
    refine List.filter_congr fun row hrow => ?_
    rw [hmeets row (K.present row hrow), Bool.and_comm]
  rw [Query.answer_whole, hlimit, hoffset, P.limit, P.offset, htable, hfound, hsame]
  refine congrArg (List.take size.toNat) ?_
  obtain ⟨rest, horder⟩ := P.orderBy_eq .null
  have hpage := Engine.ascend_arrange P.plain ((K.filter (E.meets c.dialect condition)).filter
    (E.isBehind (q.directionOf key) key cursor)) (q.directionOf key) (rest.map fun term => (term.column, term.direction))
  have hall : E.Ascend (q.directionOf key) key _ := (ascend_inOrder P K condition).filter
    (E.isBehind (q.directionOf key) key cursor)
  rw [horder, List.map_cons]
  refine hpage.eq_of_perm hall ((E.arrange_perm _ _).trans ?_)
  exact ((E.arrange_perm _ _).filter _).symm

/-- The rows behind a cursor are those that follow it. -/
theorem Behind.filter_eq (P : q.Pageable key size) (K : E.Keys key (store (c.table q.table))) {cursor : Value}
    {post : List Row} (h : Behind key cursor (q.inOrder E key c condition store) post) :
    (q.inOrder E key c condition store).filter (E.isBehind (q.directionOf key) key cursor) = post := by
  rcases h with ⟨rfl, hrows⟩ | ⟨pre, last, hrows, rfl⟩
  · rw [hrows]
    exact List.filter_eq_self.2 fun _ _ => rfl
  · -- the cursor is the key of a row of the query, and no other row has that key
    have hascend := ascend_inOrder (E := E) P K condition
    have hmem : last ∈ q.inOrder E key c condition store := by
      rw [hrows]
      exact List.mem_append_right _ List.mem_cons_self
    rw [hrows] at hascend ⊢
    exact hascend.filter_behind ((K.filter _).present last ((E.arrange_perm _ _).mem_iff.1 hmem))

/-- A page holds the first rows behind its cursor. -/
theorem keysetPage_served (S : E.Serves db q.table q.timeout c (q.traversing key c) holds) (hholds : holds w store)
    (P : q.Pageable key size) (K : E.Keys key (store (c.table q.table)))
    (hcondition : c.whereChain q.filters q.visibility c.scope "" = .ok condition) {cursor : Value} {post : List Row}
    (hbehind : Behind key cursor (q.inOrder E key c condition store) post) :
    ∃ w', outcome (Query.keysetPage db q cursor (.text key)) w =
        (.ok ⟨post.take size.toNat, Query.nextCursor q key (post.take size.toNat)⟩, w') ∧ holds w' store := by
  obtain ⟨bounded, hbounded, hmeets⟩ := meets_page E P.plain hcondition cursor
  obtain ⟨htable, htimeout, hvisibility, hlimit, -, hwhole⟩ := Query.keysetQuery_keeps q cursor key
  have hselection : c.selection (Query.keysetQuery q cursor key) =
      .ok ((Query.keysetQuery q cursor key).wholeSelection c bounded) := by
    refine (hwhole P.toWhole).selection_eq_ok.2 ⟨bounded, ?_, rfl⟩
    rw [hvisibility, hbounded]
  have S' : E.Serves db (Query.keysetQuery q cursor key).table (Query.keysetQuery q cursor key).timeout c
      (q.traversing key c) holds := by
    rw [htable, htimeout]
    exact S
  obtain ⟨w', hget, hholds'⟩ := Query.get_served S' hholds hselection
    (.inr ⟨cursor, bind_eq_ok.2 ⟨_, hselection, rfl⟩⟩)
  rw [answer_page P K cursor hmeets, hbehind.filter_eq P K] at hget
  have hprojects : ResultName.projects (.list q.columns) (.text key) = .ok true := by
    rw [P.columns]
    rfl
  have hpage : outcome (Query.keysetPage db q cursor (.text key)) w = outcome (do
      let rows ← Query.get db (Query.keysetQuery q cursor key)
      pure ⟨rows, Query.nextCursor (Query.keysetQuery q cursor key) key rows⟩) w := by
    rw [Query.keysetPage, hprojects]
    rfl
  refine ⟨w', ?_, hholds'⟩
  rw [hpage, outcome_bind_ok hget, outcome_pure, Query.nextCursor, hlimit]
  rfl

/-- From a cursor on the pages hold the rows behind it, in order. -/
theorem traversal_behind (S : E.Serves db q.table q.timeout c (q.traversing key c) holds) (P : q.Pageable key size)
    (hcondition : c.whereChain q.filters q.visibility c.scope "" = .ok condition)
    (K : E.Keys key (store (c.table q.table))) (n : Nat) : ∀ {cursor : Value} {post : List Row} {w : World σ},
    post.length = n → holds w store → Behind key cursor (q.inOrder E key c condition store) post →
      ∃ pages w', Traversal db q key cursor w pages w' ∧ pages.length = post.length / size.toNat + 1 ∧
        pages.flatMap (·.rows) = post ∧ holds w' store := by
  -- on the number of rows behind the cursor, which each full page makes less
  induction n using Nat.strongRecOn with
  | _ n ih =>
      intro cursor post w hlength hholds hbehind
      have hpositive := P.positive
      obtain ⟨w', hpage, hholds'⟩ := keysetPage_served S hholds P K hcondition hbehind
      have hsize : (post.take size.toNat).length = min size.toNat post.length := List.length_take
      by_cases hfull : size.toNat ≤ post.length
      · -- a full page: its last row is the cursor, and what is left is shorter by a page
        rcases List.eq_nil_or_concat' (post.take size.toNat) with hnil | ⟨page, last, hrows⟩
        · rw [hnil, List.length_nil] at hsize
          omega
        have hpost : post = page ++ last :: post.drop size.toNat := by
          rw [← List.singleton_append, ← List.append_assoc, ← hrows, List.take_append_drop]
        have hnext : Query.nextCursor q key (post.take size.toNat) = last.get key := by
          rw [Query.nextCursor, P.limit, hsize, hrows, List.getLast?_concat]
          dsimp only
          rw [if_pos (by omega), P.ofColumn_eq]
        have hlast : (last.get key).isNull = false := by
          refine (K.filter _).present last ((E.arrange_perm _ _).mem_iff.1 (hbehind.subset ?_))
          rw [hpost]
          exact List.mem_append_right _ List.mem_cons_self
        have hleft : (post.drop size.toNat).length = post.length - size.toNat := List.length_drop
        obtain ⟨pages, w'', hrest, hlength', hpages, hholds''⟩ :=
          ih (post.drop size.toNat).length (by omega) rfl hholds' (hbehind.next hpost)
        rw [hnext] at hpage
        refine ⟨_, w'', .more hpage hlast hrest, ?_, ?_, hholds''⟩
        · rw [List.length_cons, hlength', hleft, ← Nat.div_eq_sub_div (by omega) hfull]
        · rw [List.flatMap_cons, hpages]
          exact List.take_append_drop _ _
      · -- the last page, which may be empty: no cursor follows
        have hshort : post.take size.toNat = post := List.take_of_length_le (by omega)
        have hnext : Query.nextCursor q key (post.take size.toNat) = .null := by
          rw [Query.nextCursor, P.limit, hsize]
          cases (post.take size.toNat).getLast? with
          | none => rfl
          | some last => exact if_neg (by omega)
        rw [hnext, hshort] at hpage
        refine ⟨_, w', .last hpage rfl, ?_, ?_, hholds'⟩
        · rw [Nat.div_eq_of_lt (by omega)]
          rfl
        · exact List.append_nil post

/-- Rows of one tenant, two a page. -/
def tenantRows : Query := { table := "t", orderBy := [⟨"tenant", .descending⟩], limit := some 2 }

/-- The compiler of a handle on that tenant. -/
def tenantCompiler : Compiler := Engine.plainCompiler .sqlite [(.text "tenant", .int 1)]

/-- What a driver reads in the statements of a traversal: the parameter behind the tenant is a cursor. -/
def tenantStatement (sql : String) : List Value → Option Statement
  | [_] =>
    if sql = "SELECT * FROM \"t\" WHERE \"tenant\" = ? ORDER BY \"tenant\" DESC" then
      (tenantCompiler.select { tenantRows with limit := none }).toOption
    else (tenantCompiler.select (tenantRows.keysetQuery .null "id")).toOption
  | [_, cursor] => (tenantCompiler.select (tenantRows.keysetQuery cursor "id")).toOption
  | _ => none

theorem tenantStatement_traversing {s : Statement} (h : tenantRows.traversing "id" tenantCompiler s) :
    tenantStatement s.sql s.params = some s := by
  rcases h with hall | ⟨cursor, hpage⟩
  · have hparams : s.params = [.int 1] := (select_shows hall).params_eq.trans rfl
    have hsql : (tenantCompiler.select { tenantRows with limit := none }).toOption.map Statement.sql =
        some "SELECT * FROM \"t\" WHERE \"tenant\" = ? ORDER BY \"tenant\" DESC" := by decide +kernel
    rw [hall] at hsql
    rw [hparams, tenantStatement, if_pos (Option.some.inj hsql), hall]
    rfl
  · have hparams : s.params = .int 1 :: if cursor.isNull then [] else [cursor] := by
      refine (select_shows hpage).params_eq.trans ?_
      cases cursor <;> rfl
    cases hcursor : cursor.isNull with
    | false =>
        rw [hcursor] at hparams
        rw [hparams, if_neg Bool.false_ne_true, tenantStatement, hpage]
        rfl
    | true =>
        obtain rfl : cursor = .null := by cases cursor <;> first | rfl | cases hcursor
        have hsql : (tenantCompiler.select (tenantRows.keysetQuery .null "id")).toOption.map Statement.sql ≠
            some "SELECT * FROM \"t\" WHERE \"tenant\" = ? ORDER BY \"tenant\" DESC" := by decide +kernel
        rw [hpage] at hsql
        rw [hparams, hcursor, if_pos rfl, tenantStatement, if_neg fun heq => hsql (congrArg some heq), hpage]
        rfl

/-- From page to page a query's rows come each once, in the order of the key, on as many full pages as there are and one
more. -/
theorem traversal_complete (S : E.Serves db q.table q.timeout c (q.traversing key c) holds) (hholds : holds w store)
    (P : q.Pageable key size) (K : E.Keys key (store (c.table q.table))) {rows : List Row} {w' : World σ}
    (hrows : outcome (Query.get db { q with limit := none }) w = (.ok rows, w')) :
    ∃ pages w'', Traversal db q key .null w pages w'' ∧ pages.length = rows.length / size.toNat + 1 ∧
      (pages.flatMap (·.rows)).Perm rows ∧ E.Ascend (q.directionOf key) key (pages.flatMap (·.rows)) := by
  have hwhole : Query.Whole { q with limit := none } := ⟨P.columns, P.joins, P.groupBy, P.having⟩
  obtain ⟨s, hselection⟩ := Query.selection_of_get (q := { q with limit := none }) S hholds hrows
  obtain ⟨condition, hcondition, rfl⟩ := hwhole.selection_eq_ok.1 hselection
  obtain ⟨_, hget, -⟩ := Query.get_served (q := { q with limit := none }) S hholds hselection
    (.inl (bind_eq_ok.2 ⟨_, hselection, rfl⟩))
  rw [hrows, Query.answer_whole, P.offset] at hget
  obtain ⟨hanswer, -⟩ := Prod.mk.inj hget
  have hperm : (q.inOrder E key c condition store).Perm rows := by
    rw [Except.ok.inj hanswer]
    exact (E.arrange_perm _ _).trans (E.arrange_perm _ _).symm
  obtain ⟨pages, w'', htraversal, hlength, hpages, -⟩ :=
    traversal_behind S P hcondition K _ rfl hholds (.inl ⟨rfl, rfl⟩)
  refine ⟨pages, w'', htraversal, ?_, ?_, ?_⟩
  · rw [hlength, hperm.length_eq]
  · rw [hpages]
    exact hperm
  · rw [hpages]
    exact ascend_inOrder P K condition

/-- Four of five rows are in the scope; two a page, they take two pages and an empty one. -/
theorem traversal_complete_four_rows :
    let db := Engine.simple.database .sqlite tenantStatement
    let h : Handle := { scope := [(.text "tenant", .int 1)] }
    let row (id tenant : Int) : Row := [(.text "id", .int id), (.text "tenant", .int tenant)]
    let store : Store := fun _ => [row 5 1, row 3 1, row 4 2, row 9 1, row 7 1]
    ∃ pages w', Traversal (db.access h) tenantRows "id" .null { outside := store } pages w' ∧ pages.length = 3 := by
  intro db h row store
  have S : Engine.simple.Serves (db.access h) "t" none tenantCompiler (tenantRows.traversing "id" tenantCompiler)
      (Database.Holds id fun _ => none) :=
    Engine.simple.serves_database .sqlite h.scope "t" fun hsent => tenantStatement_traversing hsent
  have H := Engine.holds_start (fun _ => none) store
  have P : tenantRows.Pageable "id" 2 :=
    { columns := rfl, joins := rfl, groupBy := rfl, having := rfl, limit := rfl, offset := rfl
      plain := ⟨by decide, by decide⟩
      unaliased := by decide +kernel
      positive := by decide
      order := .inl (by decide) }
  have K : Engine.simple.Keys "id" [row 5 1, row 3 1, row 4 2, row 9 1, row 7 1] := ⟨by decide, by decide +kernel⟩
  have hwhole : Query.Whole { tenantRows with limit := none } := ⟨rfl, rfl, rfl, rfl⟩
  have hselection := hwhole.selection_eq_ok (c := tenantCompiler).2
    ⟨[(.and, .ofComparison [.name "tenant"] .equal (.int 1))], rfl, rfl⟩
  obtain ⟨w', hget, -⟩ := Query.get_served (q := { tenantRows with limit := none }) S H hselection
    (.inl (bind_eq_ok.2 ⟨_, hselection, rfl⟩))
  obtain ⟨pages, w'', htraversal, hlength, -⟩ := traversal_complete S H P K hget
  refine ⟨pages, w'', htraversal, ?_⟩
  have hfour : ((store (tenantCompiler.table tenantRows.table)).filter (Engine.simple.meets tenantCompiler.dialect
      [(.and, .ofComparison [.name "tenant"] .equal (.int 1))])).length = 4 := by decide +kernel
  have hrows := (Engine.simple.arrange_perm [("tenant", .descending)] _).length_eq.trans hfour
  rw [hlength, Query.answer_whole]
  exact congrArg (· / 2 + 1) hrows

end Polyquery
