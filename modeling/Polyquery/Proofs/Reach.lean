import Polyquery.Proofs.Engine
import Polyquery.Proofs.Placement

/-! The rows that a statement may write. Updates, deletions, restorations and writes into documents find their rows by a
condition at the end of the text. Main statement: each equality of the scope is a conjunct of that condition, so that no
engine changes or removes a row outside of the scope; an upsert in one statement has no such condition. -/

namespace Polyquery

open Sql Session

variable {c : Compiler} {d : Dialect}

namespace Sql

/-- The operands between the outermost `AND`s of an expression. -/
def Expr.conjuncts {α : Type} : Expr α → List (Expr α)
  | both left right => left.conjuncts ++ right.conjuncts
  | e => [e]

theorem Expr.conjuncts_join {α : Type} (e : Expr α) (others : List (Expr α)) :
    (e.join (others.map fun other => (.and, other))).conjuncts = e.conjuncts ++ others.flatMap conjuncts := by
  induction others generalizing e with
  | nil => rw [List.map_nil, join, List.flatMap_nil, List.append_nil]
  | cons other others ih => rw [List.map_cons, join, ih, conjuncts, List.append_assoc, List.flatMap_cons]

namespace Condition

/-- The atom of a comparison in which null is not a value. -/
def comparisonAtom (d : Dialect) (subject : Fragment) (op : Operator) (value : Value) : List Token :=
  match value, op.nullTest? with
  | .null, some negated => Atom.nullTest d subject negated
  | _, _ => Atom.comparison d subject op value

theorem expr_ofComparison (d : Dialect) (subject : Fragment) (op : Operator) (value : Value) :
    (ofComparison subject op value).expr d = .atom (comparisonAtom d subject op value) := by
  cases value with
  | null => cases op <;> rfl
  | _ => rfl

/-- Conditions all of which must hold are the conjuncts of what they say together. -/
theorem conjuncts_chainExpr_all {conditions : List Condition} (hne : conditions ≠ []) :
    (chainExpr d (Chain.all conditions)).conjuncts = conditions.flatMap fun condition => (condition.expr d).conjuncts := by
  cases conditions with
  | nil => exact absurd rfl hne
  | cons condition conditions =>
      have hrest : restExpr d (Chain.all conditions) =
          (conditions.map fun condition => condition.expr d).map fun e => (.and, e) := by
        rw [restExpr_eq_map, Chain.all, List.map_map, List.map_map]
        rfl
      rw [Chain.all, List.map_cons, chainExpr, ← Chain.all, hrest, Expr.conjuncts_join, List.flatMap_map,
        List.flatMap_cons]

end Condition

end Sql

open Sql.Condition

/-- Behind added conditions the caller's are one more that must hold. -/
theorem joinChains_eq_all {added : List Condition} (hne : added ≠ []) (own : Chain) :
    ∃ more, Compiler.joinChains added own = Chain.all (added ++ more) := by
  cases own with
  | nil => exact ⟨[], by rw [Compiler.joinChains, List.append_nil]⟩
  | cons first rest =>
      cases rest with
      | nil => exact ⟨[first.2], all_concat added first.2⟩
      | cons second rest =>
          refine ⟨[.group (first :: second :: rest)], Eq.trans ?_ (all_concat added _)⟩
          exact if_neg (by simpa using hne)

/-- The equality of an entry of the scope, as it is read in a condition. -/
def scopeAtom (d : Dialect) (entry : Value × Value) : List Token :=
  comparisonAtom d ((Compiler.scopeColumn "" entry.1).toOption.getD []) .equal entry.2

/-- In a scope the condition of a statement is not empty, and its equalities are conjuncts of it. -/
theorem whereChain_conjuncts {filters : List Filter} {visibility : Visibility} {chain : Chain} (hscope : c.scope ≠ [])
    (h : c.whereChain filters visibility c.scope "" = .ok chain) :
    ∃ e, chain ≠ [] ∧ readCondition c.dialect (chain.fragment.text c.dialect) chain.fragment.params = some (some e) ∧
      ∀ entry ∈ c.scope, .atom (scopeAtom c.dialect entry) ∈ e.conjuncts := by
  have hreadable := whereChain_readable h
  obtain ⟨added, own, hadded, -, rfl⟩ := whereChain_parts h
  obtain ⟨equalities, hequalities, hadded⟩ := Compiler.addedConditions_parts hadded
  -- the equalities are among the added conditions, so that the caller's `OR` stands in parentheses behind them
  have hequal : equalities ≠ [] := mt (eq_nil_iff_of_mapM hequalities).1 hscope
  have hne : added ≠ [] := by
    rw [hadded]
    exact List.append_ne_nil_of_left_ne_nil hequal _
  obtain ⟨more, hchain⟩ := joinChains_eq_all hne own
  have hlong : added ++ more ≠ [] := List.append_ne_nil_of_left_ne_nil hne _
  have hchainne : Compiler.joinChains added own ≠ [] := by
    rw [hchain]
    exact fun h => hlong (List.map_eq_nil_iff.1 h)
  refine ⟨chainExpr c.dialect (Compiler.joinChains added own), hchainne,
    (ReadableMembers.sentence _ hchainne (readableMembers_iff.2 hreadable)).readCondition, fun entry hentry => ?_⟩
  obtain ⟨condition, hmem, hcondition⟩ := exists_mem_of_mapM hequalities entry hentry
  obtain ⟨subject, hsubject, rfl⟩ := map_eq_ok.1 hcondition
  have hatom : (Condition.ofComparison subject .equal entry.2).expr c.dialect = .atom (scopeAtom c.dialect entry) := by
    rw [expr_ofComparison, scopeAtom, hsubject]
    rfl
  rw [hchain, conjuncts_chainExpr_all hlong]
  refine List.mem_flatMap.2 ⟨.ofComparison subject .equal entry.2, List.mem_append_left _ ?_, ?_⟩
  · rw [hadded]
    exact List.mem_append_left _ hmem
  · rw [hatom]
    exact List.mem_singleton_self _

/-! ### Rows that are written -/

/-- Rows before and after a statement: each stays as it is, or it passes a test and is changed or removed. -/
inductive Touched (test : Row → Prop) : List Row → List Row → Prop
  | nil : Touched test [] []
  | kept (row : Row) {rows rows' : List Row} (rest : Touched test rows rows') : Touched test (row :: rows) (row :: rows')
  | changed {row : Row} (h : test row) (row' : Row) {rows rows' : List Row} (rest : Touched test rows rows') :
    Touched test (row :: rows) (row' :: rows')
  | removed {row : Row} (h : test row) {rows rows' : List Row} (rest : Touched test rows rows') :
    Touched test (row :: rows) rows'

namespace Touched

variable {test : Row → Prop}

theorem refl (rows : List Row) : Touched test rows rows := by
  induction rows with
  | nil => exact .nil
  | cons row rows ih => exact .kept row ih

theorem map {found : Row → Bool} (h : ∀ row, found row = true → test row) (change : Row → Row) (rows : List Row) :
    Touched test rows (rows.map fun row => if found row then change row else row) := by
  induction rows with
  | nil => exact .nil
  | cons row rows ih =>
      rw [List.map_cons]
      by_cases hfound : found row = true
      · rw [if_pos hfound]
        exact .changed (h row hfound) _ ih
      · rw [if_neg hfound]
        exact .kept row ih

theorem filter {found : Row → Bool} (h : ∀ row, found row = true → test row) (rows : List Row) :
    Touched test rows (rows.filter fun row => !found row) := by
  induction rows with
  | nil => exact .nil
  | cons row rows ih =>
      cases hfound : found row with
      | true =>
          rw [List.filter_cons_of_neg (by simp [hfound])]
          exact .removed (h row hfound) ih
      | false =>
          rw [List.filter_cons_of_pos (by simp [hfound])]
          exact .kept row ih

/-- A row for which another one stands is changed. -/
theorem one {row row' : Row} (h : Touched test [row] [row']) : row = row' ∨ test row := by
  cases h with
  | kept => exact .inl rfl
  | changed htest => exact .inr htest
  | removed htest => exact .inr htest

end Touched

/-- Whether all equalities of a scope are true of a row. -/
def Engine.InScope (E : Engine) (c : Compiler) (row : Row) : Prop :=
  ∀ t ∈ scopeTruths c.dialect (E.truth row) c.scope "", t = .yes

theorem inScope_of_meets (E : Engine) {filters : List Filter} {visibility : Visibility} {chain : Chain}
    (h : c.whereChain filters visibility c.scope "" = .ok chain) (row : Row) (hmeets : E.meets c.dialect chain row = true) :
    E.InScope c row := by
  have htruth := (E.meets_whereChain h row).1 hmeets
  rw [Truth.and_eq_yes_iff, Truth.and_eq_yes_iff, Truth.all_eq_yes_iff] at htruth
  exact htruth.1.1

/-! ### Statements that find rows by a condition -/

/-- The condition by which a command finds the rows that it writes. -/
def Sql.Command.found? : Command → Option Chain
  | .update change => some change.condition
  | .delete removal => some removal.condition
  | .select _ | .insert _ => none

/-- A statement whose rows are found by the condition of a compiler. -/
def Finds (c : Compiler) (s : Statement) : Prop :=
  s.dialect = c.dialect ∧ ∃ filters visibility condition, s.command.found? = some condition ∧
    c.whereChain filters visibility c.scope "" = .ok condition

theorem Compiler.Makes.finds {r : Request} {command : Command} (h : c.Makes r command) (hfinds : r.findsRows = true) :
    ∃ filters visibility condition, command.found? = some condition ∧
      c.whereChain filters visibility c.scope "" = .ok condition := by
  cases h with
  | selection => cases hfinds
  | insertion hnew =>
      rw [hnew] at hfinds
      cases hfinds
  | change r hcondition => exact ⟨_, _, _, rfl, hcondition⟩
  | removal r hcondition => exact ⟨_, _, _, rfl, hcondition⟩

theorem compile_finds {r : Request} {s : Statement} (hfinds : r.findsRows = true) (h : c.compile r = .ok (some s)) :
    Finds c s :=
  ⟨(made_of_compile h).dialect, (made_of_compile h).command.finds hfinds⟩

/-- The condition stands at the end of a command, behind its keyword. -/
theorem suffix_found {command : Command} {condition : Chain} (h : command.found? = some condition)
    (hne : condition ≠ []) : Piece.words " WHERE " :: condition.fragment <:+ command.fragment d := by
  have hclause : whereClause condition = Piece.words " WHERE " :: condition.fragment :=
    if_neg (by simpa using hne)
  cases command with
  | select => cases h
  | insert => cases h
  | update change =>
      cases h
      rw [← hclause]
      exact List.suffix_append _ _
  | delete removal =>
      cases h
      rw [← hclause]
      exact List.suffix_append _ _

/-- An engine writes only rows in the scope. -/
theorem touched_effect (E : Engine) {s : Statement} (h : Finds c s) (store : Store) (table : String) :
    Touched (E.InScope c) (store table) (E.effect s store table) := by
  obtain ⟨hdialect, filters, visibility, condition, hfound, hcondition⟩ := h
  have hmeets := inScope_of_meets E hcondition
  obtain ⟨dialect, operation, command⟩ := s
  cases hdialect
  cases command with
  | select => cases hfound
  | insert => cases hfound
  | update change =>
      cases hfound
      by_cases htable : table = change.table
      · subst htable
        change Touched _ _ (Engine.put change.table _ store change.table)
        rw [Engine.put_self]
        exact .map hmeets _ _
      · change Touched _ _ (Engine.put change.table _ store table)
        rw [Engine.put_other htable]
        exact .refl _
  | delete removal =>
      cases hfound
      by_cases htable : table = removal.table
      · subst htable
        change Touched _ _ (Engine.put removal.table _ store removal.table)
        rw [Engine.put_self]
        exact .filter hmeets _
      · change Touched _ _ (Engine.put removal.table _ store table)
        rw [Engine.put_other htable]
        exact .refl _

/-- An update, a deletion, a restoration or a write into documents ends with a condition of which every equality of the
scope is a conjunct, and whatever the engine and the rows, those that it changes or removes are in the scope. -/
theorem compile_reach {r : Request} {s : Statement} (hfinds : r.findsRows = true) (hscope : c.scope ≠ [])
    (h : c.compile r = .ok (some s)) :
    (∃ condition e lexemes, s.command.found? = some condition ∧ readLexemes c.dialect s.sql s.params = some lexemes ∧
      Fragment.lexemes c.dialect (Piece.words " WHERE " :: condition.fragment) <:+ lexemes ∧
      readCondition c.dialect (condition.fragment.text c.dialect) condition.fragment.params = some (some e) ∧
      ∀ entry ∈ c.scope, .atom (scopeAtom c.dialect entry) ∈ e.conjuncts) ∧
    ∀ (E : Engine) (store : Store) (table : String), Touched (E.InScope c) (store table) (E.effect s store table) := by
  have hstatement := compile_finds hfinds h
  obtain ⟨hdialect, filters, visibility, condition, hfound, hcondition⟩ := compile_finds hfinds h
  obtain ⟨e, hne, hread, hconjuncts⟩ := whereChain_conjuncts hscope hcondition
  have hclosed : r.RawClosed c.dialect := by
    cases r with
    | select => cases hfinds
    | _ => trivial
  obtain ⟨-, hlegible⟩ := compile_legible hclosed h
  refine ⟨⟨condition, e, s.fragment.lexemes c.dialect, hfound, ?_, ?_, hread, hconjuncts⟩, fun E store table =>
    touched_effect E hstatement store table⟩
  · rw [Statement.sql, Statement.params, hdialect]
    exact hlegible.readLexemes
  · exact suffix_lexemes (suffix_found hfound hne)

/-- An update with an `OR` between its filters. -/
theorem compile_reach_two_filters :
    let c : Compiler := { dialect := .sqlite, scope := [(.text "tenant", .int 7)] }
    let q : Query := { table := "t", filters := [.basic "a" "=" (.int 1) .and, .isNull "b" false .or] }
    ∃ s, c.compile (.update q [(.text "x", .int 0)] .update) = .ok (some s) ∧
      s.sql = "UPDATE \"t\" SET \"x\" = ? WHERE \"tenant\" = ? AND (\"a\" = ? OR \"b\" IS NULL)" ∧
      ∀ store table, Touched (Engine.simple.InScope c) (store table) (Engine.simple.effect s store table) := by
  intro c q
  obtain ⟨s, hs, hsql⟩ : ∃ s, c.compile (.update q [(.text "x", .int 0)] .update) = .ok (some s) ∧
      s.sql = "UPDATE \"t\" SET \"x\" = ? WHERE \"tenant\" = ? AND (\"a\" = ? OR \"b\" IS NULL)" :=
    ⟨_, rfl, by decide +kernel⟩
  exact ⟨s, hs, hsql, (compile_reach rfl (List.cons_ne_nil _ _) hs).2 Engine.simple⟩

/-- An upsert in one statement finds its row without regard to the scope, and overwrites a row of another tenant. -/
theorem upsert_leaves_scope :
    let c : Compiler := { dialect := .sqlite, scope := [(.text "tenant", .int 7)] }
    let before : Row := [(.text "id", .int 1), (.text "name", .text "a"), (.text "tenant", .int 8)]
    ∃ s, c.compile (.upsert "t" [(.text "id", .int 1), (.text "name", .text "x")] (.list [.text "id"]) .null) =
        .ok (some s) ∧
      ¬Touched (Engine.simple.InScope c) [before] (Engine.simple.effect s (fun _ => [before]) "t") := by
  intro c before
  refine ⟨_, rfl, fun h => ?_⟩
  have hafter : Touched (Engine.simple.InScope c) [before]
      [[(.text "id", .int 1), (.text "name", .text "x"), (.text "tenant", .int 8)]] := h
  rcases hafter.one with hsame | hscope
  · have hname : Value.text "a" = .text "x" := congrArg (Row.get "name") hsame
    exact absurd (Value.text.inj hname) (by decide)
  · exact absurd (hscope .no (by decide)) (by decide)

end Polyquery
