import Polyquery.Proofs.Keyset
import Polyquery.Proofs.Reach

/-! What a page is ordered by. The statement for the page after a cursor is bounded by the cursor in the direction in which
it orders the key, whatever else it is ordered by. Main statement: the key is what it is ordered by first exactly if the
query does not order the key at all, or orders it first; then the key of a page's last row bounds all rows that have been
delivered up to there. -/

namespace Polyquery

open Sql Session Sql.Condition

variable {c : Compiler} {d : Dialect} {q : Query} {key : String} {cursor : Value}

/-! ### The terms of the order -/

namespace Query

/-- The terms of a page's order, each with its direction. -/
def pageOrder (q : Query) (cursor : Value) (key : String) : List (String × Direction) :=
  (keysetQuery q cursor key).orderBy.map fun term => (term.column, term.direction)

/-- The key is what a page is ordered by first exactly if the query does not put another term before it. -/
theorem head?_pageOrder (q : Query) (cursor : Value) (key : String) :
    (q.pageOrder cursor key).head? = some (key, q.directionOf key) ↔ q.IsLedBy key := by
  constructor
  · intro h
    rw [pageOrder, keysetQuery_orderBy] at h
    cases hnamed : q.orderBy.any (·.column = key) with
    | false => exact .inl (by simpa using hnamed)
    | true =>
        rw [if_pos hnamed, List.head?_map] at h
        obtain ⟨term, hhead, hterm⟩ := Option.map_eq_some_iff.1 h
        obtain ⟨rest, hterms⟩ := List.head?_eq_some_iff.1 hhead
        exact .inr ⟨term, rest, hterms, congrArg Prod.fst hterm⟩
  · intro h
    obtain ⟨rest, horder⟩ := h.orderBy_eq cursor
    rw [pageOrder, horder]
    rfl

/-- Every page is ordered by the key somewhere, and by its first term of this kind in the direction of the query. -/
theorem find?_pageOrder (q : Query) (cursor : Value) (key : String) :
    (q.pageOrder cursor key).find? (·.1 = key) = some (key, q.directionOf key) := by
  rw [pageOrder, keysetQuery_orderBy, List.find?_map]
  cases hnamed : q.orderBy.any (·.column = key) with
  | false => simp
  | true =>
      obtain ⟨term, hterm⟩ : ∃ term, q.orderBy.find? (·.column = key) = some term := by
        rw [← Option.isSome_iff_exists, List.find?_isSome]
        simpa using hnamed
      have hkey : term.column = key := by simpa using List.find?_some hterm
      have hdirection : q.directionOf key = term.direction := by rw [QueryOf.directionOf, hterm]
      have hfound : q.orderBy.find? ((fun entry : String × Direction => decide (entry.1 = key)) ∘ fun term =>
          (term.column, term.direction)) = some term := hterm
      rw [if_pos rfl, hfound, hdirection, ← hkey]
      rfl

end Query

/-! ### The bound of the cursor -/

namespace Compiler

theorem length_filterChain_le {filters : List Filter} {chain : Chain} (h : c.filterChain filters = .ok chain) :
    chain.length ≤ filters.length := by
  induction filters generalizing chain with
  | nil =>
      rw [filterChain] at h
      cases pure_eq_ok.1 h
      exact Nat.le_refl 0
  | cons filter filters ih =>
      obtain ⟨condition?, rest, -, hrest, rfl⟩ := filterChain_cons.1 h
      cases condition? with
      | none => exact Nat.le_succ_of_le (ih hrest)
      | some condition => exact Nat.succ_le_succ (ih hrest)

end Compiler

/-- The operator by which a cursor bounds a page. -/
def Direction.beyond (direction : Direction) : Operator := if direction = .ascending then .greater else .less

theorem filterChain_bound_eq (c : Compiler) (direction : Direction) (key : String) (cursor : Value) :
    c.filterChain [Query.bound direction key cursor] =
      .ok [(.and, .ofComparison (Fragment.reference key) direction.beyond cursor)] := by
  cases direction with
  | ascending =>
      rw [Compiler.filterChain, Query.bound, Compiler.condition?]
      rfl
  | descending =>
      rw [Compiler.filterChain, Query.bound, Compiler.condition?]
      rfl

theorem Query.length_enclosed_le (filters : List Filter) : (Query.enclosed filters).length ≤ 1 := by
  rw [Query.enclosed]
  split
  · exact Nat.le_refl 1
  · omega

theorem conjuncts_all_concat (d : Dialect) (conditions : List Condition) (condition : Condition) :
    (chainExpr d (Chain.all conditions ++ [(.and, condition)])).conjuncts =
      (conditions.flatMap fun condition => (condition.expr d).conjuncts) ++ (condition.expr d).conjuncts := by
  rw [all_concat, conjuncts_chainExpr_all (by simp), List.flatMap_append, List.flatMap_singleton]

/-- Behind at most one condition of the caller, one more that must hold is a conjunct. -/
theorem conjuncts_joinChains_concat (d : Dialect) (added : List Condition) {front : Chain} (hfew : front.length ≤ 1)
    (condition : Condition) :
    ∀ e ∈ (condition.expr d).conjuncts,
      e ∈ (chainExpr d (Compiler.joinChains added (front ++ [(.and, condition)]))).conjuncts := by
  intro e he
  match front, hfew with
  | [], _ =>
      rw [List.nil_append, Compiler.joinChains, conjuncts_all_concat]
      exact List.mem_append_right _ he
  | [(connective, first)], _ =>
      have hpair : e ∈ (chainExpr d [(connective, first), (.and, condition)]).conjuncts := by
        have hboth := List.mem_append_right ([first].flatMap fun condition => (condition.expr d).conjuncts) he
        rwa [← conjuncts_all_concat] at hboth
      cases added with
      | nil => exact hpair
      | cons other added =>
          -- the caller's two conditions stand in parentheses, which say what the two say
          change e ∈ (chainExpr d (Chain.all (other :: added) ++
            [(.and, .group [(connective, first), (.and, condition)])])).conjuncts
          rw [conjuncts_all_concat, expr]
          exact List.mem_append_right _ hpair

theorem joinChains_ne_nil (added : List Condition) {own : Chain} (h : own ≠ []) : Compiler.joinChains added own ≠ [] := by
  match own with
  | [] => exact absurd rfl h
  | [_] => exact List.append_ne_nil_of_right_ne_nil _ (List.cons_ne_nil _ _)
  | first :: second :: rest =>
      change (if added.isEmpty then first :: second :: rest else _) ≠ []
      split
      · exact List.cons_ne_nil _ _
      · exact List.append_ne_nil_of_right_ne_nil _ (List.cons_ne_nil _ _)

/-- The bound of a cursor is a conjunct of a page's condition. -/
theorem bound_mem_conjuncts {visibility : Visibility} {scope : Row} {qualifier : String} {condition : Chain}
    (hcursor : cursor.isNull = false)
    (h : c.whereChain (Query.keysetQuery q cursor key).filters visibility scope qualifier = .ok condition) :
    ∃ e, readCondition c.dialect (condition.fragment.text c.dialect) condition.fragment.params = some (some e) ∧
      .atom (Atom.comparison c.dialect (Fragment.reference key) (q.directionOf key).beyond cursor) ∈ e.conjuncts := by
  have hreadable := whereChain_readable h
  obtain ⟨added, own, -, hown, rfl⟩ := whereChain_parts h
  rw [Query.keysetQuery_filters q hcursor key] at hown
  obtain ⟨front, back, hfront, hback, rfl⟩ := Compiler.filterChain_append.1 hown
  cases (filterChain_bound_eq c _ key cursor).symm.trans hback
  have hfew : front.length ≤ 1 := Nat.le_trans (Compiler.length_filterChain_le hfront) (Query.length_enclosed_le _)
  have hne := joinChains_ne_nil added (List.append_ne_nil_of_right_ne_nil front (List.cons_ne_nil (Connective.and,
    ofComparison (Fragment.reference key) (q.directionOf key).beyond cursor) []))
  refine ⟨_, (ReadableMembers.sentence _ hne (readableMembers_iff.2 hreadable)).readCondition, ?_⟩
  have hatom : comparisonAtom c.dialect (Fragment.reference key) (q.directionOf key).beyond cursor =
      Atom.comparison c.dialect (Fragment.reference key) (q.directionOf key).beyond cursor := by
    cases cursor with
    | null => cases hcursor
    | _ => rfl
  refine conjuncts_joinChains_concat c.dialect added hfew _ _ ?_
  rw [expr_ofComparison, hatom]
  exact List.mem_singleton_self _

/-! ### The rows of the pages -/

namespace Engine

variable {E : Engine} {direction : Direction}

theorem isBefore_trans {a b b' : Value} (h : E.isBefore direction a b = true) (h' : E.isBefore direction b b' = true) :
    E.isBefore direction a b' = true := by
  have hlawful := E.lawful
  rw [isBefore, decide_eq_true_iff] at *
  cases direction with
  | ascending =>
      have hlt : E.order a b = .lt := h
      have hlt' : E.order b b' = .lt := h'
      have hall : E.order a b' = .lt := Std.TransCmp.lt_trans hlt hlt'
      exact hall
  | descending =>
      have hgt : E.order a b' = .gt := Std.TransCmp.gt_trans (Ordering.swap_eq_lt.1 h) (Ordering.swap_eq_lt.1 h')
      exact Ordering.swap_eq_lt.2 hgt

theorem cut_sublist (w : Window) (rows : List Row) : (w.cut rows).Sublist rows := by
  rw [Window.cut]
  cases w.limit with
  | none => exact List.drop_sublist _ _
  | some limit => exact (List.take_sublist _ _).trans (List.drop_sublist _ _)

end Engine

/-- The rows of a page come in the order of the key, if the query is led by it, and lie behind the cursor. -/
theorem answer_keysetQuery (E : Engine) (W : q.Whole) (hkey : PlainColumn key) {s : Selection}
    (h : c.selection (q.keysetQuery cursor key) = .ok s) (store : Store) :
    (q.IsLedBy key → (E.answer c.dialect s store).Pairwise fun a b =>
      E.isBefore (q.directionOf key) (b.get key) (a.get key) = false) ∧
    (cursor.isNull = false → ∀ row ∈ E.answer c.dialect s store,
      E.isBefore (q.directionOf key) cursor (row.get key) = true) := by
  obtain ⟨-, -, hvisibility, -, -, hwhole⟩ := Query.keysetQuery_keeps q cursor key
  obtain ⟨condition, hcondition, rfl⟩ := (hwhole W).selection_eq_ok.1 h
  rw [Query.answer_whole]
  refine ⟨fun hled => ?_, fun hcursor row hrow => ?_⟩
  · obtain ⟨rest, horder⟩ := hled.orderBy_eq cursor
    rw [horder]
    exact (E.arrange_steps hkey _ _ _).sublist (Engine.cut_sublist _ _)
  · have hfound := (E.arrange_perm _ _).mem_iff.1 ((Engine.cut_sublist _ _).subset hrow)
    have hmeets := (E.meets_whereChain hcondition row).1 (List.mem_filter.1 hfound).2
    rw [Query.keysetQuery_filters q hcursor, Filter.truths_append, truths_bound E c.dialect hkey _ hcursor,
      Truth.chain_concat (Filter.truths_enclosed c.dialect (E.truth row) q.filters).1, ← Truth.and_assoc,
      Truth.and_eq_yes_iff] at hmeets
    have hrowkey : (row.get key).isNull = false := by
      cases hnull : (row.get key).isNull with
      | false => rfl
      | true =>
          have hunknown := hmeets.2
          rw [Collation.compared, hnull] at hunknown
          cases hunknown
    exact (E.compared_bound _ hrowkey hcursor).1 hmeets.2

/-- Rows that have been delivered page after page, each from the store as it was then and each after the key of the last row
before it, which is the cursor behind them. -/
inductive Delivered (E : Engine) (c : Compiler) (q : Query) (key : String) : Value → List Row → Prop
  | start (cursor : Value) : Delivered E c q key cursor []
  | page {cursor : Value} {rows page : List Row} {last : Row} {s : Selection} (store : Store)
      (before : Delivered E c q key cursor rows) (h : c.selection (q.keysetQuery cursor key) = .ok s)
      (hpage : E.answer c.dialect s store = page ++ [last]) (hkey : (last.get key).isNull = false) :
      Delivered E c q key (last.get key) (rows ++ (page ++ [last]))

/-- If no row that has been delivered is beyond the cursor, none is beyond the last row of the page behind it. -/
theorem bounded_page {E : Engine} (W : q.Whole) (hkey : PlainColumn key) (hled : q.IsLedBy key) {rows page : List Row}
    {last : Row} {s : Selection} {store : Store} (h : c.selection (q.keysetQuery cursor key) = .ok s)
    (hpage : E.answer c.dialect s store = page ++ [last]) (hcursor : rows ≠ [] → cursor.isNull = false)
    (hrows : ∀ row ∈ rows, E.isBefore (q.directionOf key) cursor (row.get key) = false) :
    ∀ row ∈ rows ++ (page ++ [last]), E.isBefore (q.directionOf key) (last.get key) (row.get key) = false := by
  obtain ⟨horder, hbehind⟩ := answer_keysetQuery E W hkey h store
  have horder := horder hled
  rw [hpage] at horder hbehind
  intro row hrow
  rcases List.mem_append.1 hrow with hearlier | hsame
  · have hlast := hbehind (hcursor (List.ne_nil_of_mem hearlier)) last List.mem_concat_self
    rw [← Bool.not_eq_true]
    intro hbeyond
    have hcontra := Engine.isBefore_trans hlast hbeyond
    rw [hrows row hearlier] at hcontra
    cases hcontra
  · rcases List.mem_append.1 hsame with hfront | hself
    · exact (List.pairwise_append.1 horder).2.2 row hfront last (List.mem_singleton_self _)
    · cases List.mem_singleton.1 hself
      exact Engine.isBefore_self E _ _

theorem Delivered.bounded {E : Engine} (W : q.Whole) (hkey : PlainColumn key) (hled : q.IsLedBy key) {rows : List Row}
    (h : Delivered E c q key cursor rows) :
    (rows ≠ [] → cursor.isNull = false) ∧
      ∀ row ∈ rows, E.isBefore (q.directionOf key) cursor (row.get key) = false := by
  induction h with
  | start => exact ⟨fun hne => absurd rfl hne, fun _ hrow => by cases hrow⟩
  | page store before h hpage hlast ih => exact ⟨fun _ => hlast, bounded_page W hkey hled h hpage ih.1 ih.2⟩

/-- The statement for the page after a cursor is ordered by the key somewhere, in the direction in which the cursor bounds
it, and by the key first exactly if the query orders nothing before it. The bound is a conjunct of its condition, beside
whatever the caller asks for. Over one table, in an order led by the key, the last row of each page bounds all rows that
have been delivered, whatever becomes of the table between the pages. -/
theorem select_keysetQuery {s : Statement} (h : c.select (q.keysetQuery cursor key) = .ok s) :
    ∃ selection, s = ⟨c.dialect, .select, .select selection⟩ ∧
      (selection.orderBy.head? = some (key, q.directionOf key) ↔ q.IsLedBy key) ∧
      selection.orderBy.find? (·.1 = key) = some (key, q.directionOf key) ∧
      (cursor.isNull = false → ∃ e,
        readCondition c.dialect (selection.condition.fragment.text c.dialect) selection.condition.fragment.params =
          some (some e) ∧
        .atom (Atom.comparison c.dialect (Fragment.reference key) (q.directionOf key).beyond cursor) ∈ e.conjuncts) ∧
      (q.IsLedBy key → q.Whole → PlainColumn key → ∀ (E : Engine) rows store page last,
        Delivered E c q key cursor rows → E.answer c.dialect selection store = page ++ [last] →
          ∀ row ∈ rows ++ (page ++ [last]), E.isBefore (q.directionOf key) (last.get key) (row.get key) = false) := by
  obtain ⟨selection, hselection, hs⟩ := bind_eq_ok.1 h
  cases pure_eq_ok.1 hs
  obtain ⟨⟨qualifier, hwhere⟩, horder⟩ := selection_parts hselection
  refine ⟨selection, rfl, ?_, ?_, fun hcursor => ?_, fun hled W hkey E rows store page last hrows hpage => ?_⟩
  · rw [horder]
    exact q.head?_pageOrder cursor key
  · rw [horder]
    exact q.find?_pageOrder cursor key
  · exact bound_mem_conjuncts hcursor hwhere
  · obtain ⟨hcursor, hbounded⟩ := hrows.bounded W hkey hled
    exact bounded_page W hkey hled hselection hpage hcursor hbounded

/-- The page of an engine over integers and texts, from rows that are in order already. -/
theorem Engine.answer_simple {condition : Chain} {store : Store} {found : List Row}
    (hfound : (store (c.table q.table)).filter (Engine.simple.meets c.dialect condition) = found)
    (hsorted : found.Pairwise fun a b =>
      (Collation.simple.byTerms (q.orderBy.map fun term => (term.column, term.direction)) a b).isLE = true) :
    Engine.simple.answer c.dialect (q.wholeSelection c condition) store = Window.cut ⟨q.limit, q.offset⟩ found := by
  have harranged : Engine.simple.arrange (q.orderBy.map fun term => (term.column, term.direction)) found = found :=
    List.mergeSort_of_pairwise hsorted
  rw [Query.answer_whole, hfound, harranged]

/-- Users by number and name. -/
def userRow (id : Int) (name : String) : Row := [(.text "id", .int id), (.text "name", .text name)]

/-- Two pages from the highest number down. -/
theorem select_keysetQuery_descending :
    let c : Compiler := { dialect := .sqlite }
    let q : Query := { table := "users", orderBy := [⟨"id", .descending⟩, ⟨"name", .ascending⟩], limit := some 2 }
    ∃ s selection, c.select (q.keysetQuery (.int 9) "id") = .ok s ∧ s.command = .select selection ∧
      s.sql = "SELECT * FROM \"users\" WHERE \"id\" < ? ORDER BY \"id\" DESC, \"name\" ASC LIMIT 2" ∧
      Engine.simple.answer c.dialect selection (fun _ => [userRow 10 "d", userRow 7 "a", userRow 5 "b"]) =
        [userRow 7 "a"] ++ [userRow 5 "b"] ∧
      ∀ row ∈ [userRow 12 "c", userRow 9 "b"] ++ ([userRow 7 "a"] ++ [userRow 5 "b"]),
        Engine.simple.isBefore .descending (.int 5) (row.get "id") = false := by
  intro c q
  have W : q.Whole := ⟨rfl, rfl, rfl, rfl⟩
  have hfirst := ((Query.keysetQuery_keeps q .null "id").2.2.2.2.2 W).selection_eq_ok (c := c) |>.2 ⟨[], rfl, rfl⟩
  have hpage : Engine.simple.answer c.dialect ((q.keysetQuery .null "id").wholeSelection c [])
      (fun _ => [userRow 12 "c", userRow 9 "b"]) = [userRow 12 "c"] ++ [userRow 9 "b"] :=
    Engine.answer_simple (List.filter_eq_self.2 (by decide +kernel)) (by decide +kernel)
  have hdelivered := Delivered.page _ (.start .null) hfirst hpage rfl
  have hwhere : c.whereChain (q.keysetQuery (.int 9) "id").filters .live [] "" =
      .ok [(.and, .ofComparison (Fragment.reference "id") .less (.int 9))] :=
    bind_eq_ok.2 ⟨[], rfl, bind_eq_ok.2 ⟨_, filterChain_bound_eq c .descending "id" (.int 9), rfl⟩⟩
  have hsecond := ((Query.keysetQuery_keeps q (.int 9) "id").2.2.2.2.2 W).selection_eq_ok.2 ⟨_, hwhere, rfl⟩
  have hs : c.select (q.keysetQuery (.int 9) "id") = .ok _ := bind_eq_ok.2 ⟨_, hsecond, rfl⟩
  have hfound : [userRow 10 "d", userRow 7 "a", userRow 5 "b"].filter (Engine.simple.meets c.dialect
      [(.and, .ofComparison (Fragment.reference "id") .less (.int 9))]) = [userRow 7 "a", userRow 5 "b"] :=
    (List.filter_cons_of_neg (by decide +kernel)).trans (List.filter_eq_self.2 (by decide +kernel))
  have hrest : Engine.simple.answer c.dialect ((q.keysetQuery (.int 9) "id").wholeSelection c
      [(.and, .ofComparison (Fragment.reference "id") .less (.int 9))])
      (fun _ => [userRow 10 "d", userRow 7 "a", userRow 5 "b"]) =
        Window.cut ⟨some 2, none⟩ [userRow 7 "a", userRow 5 "b"] :=
    Engine.answer_simple hfound (by decide +kernel)
  obtain ⟨selection, hselection, -, -, -, hbounded⟩ := select_keysetQuery hs
  cases hselection
  refine ⟨_, _, hs, rfl, by decide +kernel, hrest, ?_⟩
  exact hbounded (.inr ⟨_, _, rfl, rfl⟩) W ⟨by decide, by decide⟩ Engine.simple _ _ _ _ hdelivered hrest

/-- Where the query puts another term before the key, the page is ordered by that term, and a row on it may lie beyond its
last row: the pages behind leave out the rows between the two. -/
theorem keysetQuery_behind_name :
    let c : Compiler := { dialect := .sqlite }
    let q : Query := { table := "users", orderBy := [⟨"name", .ascending⟩, ⟨"id", .ascending⟩], limit := some 2 }
    ResultName.projects (.list q.columns) (.text "id") = .ok true ∧
      (∃ s, c.select (q.keysetQuery (.int 10) "id") = .ok s ∧
        s.sql = "SELECT * FROM \"users\" WHERE \"id\" > ? ORDER BY \"name\" ASC, \"id\" ASC LIMIT 2") ∧
      ∃ selection, c.selection (q.keysetQuery .null "id") = .ok selection ∧
        Engine.simple.answer .sqlite selection (fun _ => [userRow 3 "a", userRow 1 "b"]) =
          [userRow 3 "a", userRow 1 "b"] ∧
        Engine.simple.isBefore .ascending (.int 1) (.int 3) = true := by
  intro c q
  have W : q.Whole := ⟨rfl, rfl, rfl, rfl⟩
  have hwhere : c.whereChain (q.keysetQuery (.int 10) "id").filters .live [] "" =
      .ok [(.and, .ofComparison (Fragment.reference "id") .greater (.int 10))] :=
    bind_eq_ok.2 ⟨[], rfl, bind_eq_ok.2 ⟨_, filterChain_bound_eq c .ascending "id" (.int 10), rfl⟩⟩
  have hselection := ((Query.keysetQuery_keeps q (.int 10) "id").2.2.2.2.2 W).selection_eq_ok.2 ⟨_, hwhere, rfl⟩
  have hfirst := ((Query.keysetQuery_keeps q .null "id").2.2.2.2.2 W).selection_eq_ok (c := c) |>.2 ⟨[], rfl, rfl⟩
  have hs : c.select (q.keysetQuery (.int 10) "id") = .ok _ := bind_eq_ok.2 ⟨_, hselection, rfl⟩
  have hpage : Engine.simple.answer c.dialect ((q.keysetQuery .null "id").wholeSelection c [])
      (fun _ => [userRow 3 "a", userRow 1 "b"]) = [userRow 3 "a", userRow 1 "b"] :=
    Engine.answer_simple (List.filter_eq_self.2 (by decide +kernel)) (by decide +kernel)
  exact ⟨rfl, ⟨_, hs, by decide +kernel⟩, _, hfirst, hpage, by decide +kernel⟩

end Polyquery
