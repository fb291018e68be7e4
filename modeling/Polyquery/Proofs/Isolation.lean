import Polyquery.Proofs.Compiled
import Polyquery.Proofs.ConditionReading
import Polyquery.Proofs.Lowering

/-! The rows that a statement reaches. What a compiler adds to the caller's filters is stated here on the scope, the
visibility and the filters themselves. Main statement: the condition of a statement, read as SQL reads it, is the
conjunction of the scope, the visibility and the caller's filters, each nested group one operand of them. So no filter
leads to rows outside of the scope. -/

namespace Polyquery

open Sql

variable {d : Dialect} {ρ : List Token → Truth} {c : Compiler}

/-! ### What is asked for -/

/-- The truth of a comparison in which null is not a value: equality with it tests for it. -/
def comparisonTruth (d : Dialect) (ρ : List Token → Truth) (subject : Fragment) (op : Operator) (value : Value) :
    Truth :=
  match value, op.nullTest? with
  | .null, some negated => ρ (Atom.nullTest d subject negated)
  | _, _ => ρ (Atom.comparison d subject op value)

/-- The truth of the equalities of a scope. -/
def scopeTruths (d : Dialect) (ρ : List Token → Truth) (scope : Row) (qualifier : String) : List Truth :=
  scope.map fun (column, value) =>
    comparisonTruth d ρ ((Compiler.scopeColumn qualifier column).toOption.getD []) .equal value

/-- The truth of the test for the rows that a query may see. -/
def visibilityTruth (d : Dialect) (ρ : List Token → Truth) (softDelete : Option SoftDelete) (visibility : Visibility)
    (qualifier : String) : Truth :=
  match softDelete with
  | none => .yes
  | some s =>
    let column := Compiler.addedColumn qualifier s.column
    match visibility, s.mode with
    | .withTrashed, _ => .yes
    | .onlyTrashed, .timestamp => ρ (Atom.nullTest d column true)
    | .live, .timestamp => ρ (Atom.nullTest d column false)
    | .onlyTrashed, .boolean => ρ (Atom.comparison d column .equal s.deletedValue)
    | .live, .boolean =>
      (ρ (Atom.nullTest d column false)).or (ρ (Atom.comparison d column .different s.deletedValue))

/-- The text at a path whose first part is a column. -/
def pathSubject (d : Dialect) (path : String) : Fragment :=
  let parts := Text.splitDots path
  (jsonExtract d (Fragment.reference (parts.headD "")) (JsonPath.validate parts.tail)).toOption.getD []

namespace Filter

mutual

/-- The truth of a filter; a group in which there is nothing has none. -/
def truth? (d : Dialect) (ρ : List Token → Truth) : Filter → Option Truth
  | basic column operator value _ =>
    (Operator.ofText? operator).map fun op => comparisonTruth d ρ (Fragment.reference column) op value
  | isIn column values negated _ =>
    some (if values.isEmpty then ρ (Atom.constant negated)
      else ρ (Atom.membership d (Fragment.reference column) values negated))
  | isNull column negated _ => some (ρ (Atom.nullTest d (Fragment.reference column) negated))
  | between column low high negated _ => some (ρ (Atom.range d (Fragment.reference column) low high negated))
  | json path operator value _ =>
    (Operator.ofText? operator).map fun op => comparisonTruth d ρ (pathSubject d path) op value
  | group query _ =>
    if (groupTruths d ρ query).isEmpty then none else some (Truth.chain (groupTruths d ρ query))
  | other _ => none

/-- The truth of the filters of a nested query. -/
def groupTruths (d : Dialect) (ρ : List Token → Truth) : QueryOf Filter → List (Connective × Truth)
  | ⟨_, _, filters, _, _, _, _, _, _, _, _⟩ => truths d ρ filters

/-- The truth of filters behind their connectives, without the groups in which there is nothing. -/
def truths (d : Dialect) (ρ : List Token → Truth) : List Filter → List (Connective × Truth)
  | [] => []
  | filter :: rest =>
    match filter.truth? d ρ with
    | some t => (filter.connective, t) :: truths d ρ rest
    | none => truths d ρ rest

end

end Filter

/-! ### Chains and their truth -/

namespace Sql

namespace Condition

theorem restExpr_eq_map (d : Dialect) (rest : List (Connective × Condition)) :
    restExpr d rest = rest.map fun (connective, condition) => (connective, condition.expr d) := by
  induction rest with
  | nil => rfl
  | cons member rest ih => rw [restExpr, ih, List.map_cons]

/-- The truth values of a chain's members. -/
def chainTruths (d : Dialect) (ρ : List Token → Truth) (chain : Chain) : List (Connective × Truth) :=
  chain.map fun (connective, condition) => (connective, (condition.expr d).value ρ)

theorem value_chainExpr {chain : Chain} (hne : chain ≠ []) :
    (chainExpr d chain).value ρ = Truth.chain (chainTruths d ρ chain) := by
  cases chain with
  | nil => exact absurd rfl hne
  | cons member rest =>
      rw [chainExpr, Expr.value_join, restExpr_eq_map, List.map_map]
      rfl

theorem value_ofComparison (subject : Fragment) (op : Operator) (value : Value) :
    ((ofComparison subject op value).expr d).value ρ = comparisonTruth d ρ subject op value := by
  cases value with
  | null => cases op <;> rfl
  | _ => rfl

theorem readable_ofComparison {subject : Fragment} (h : Subject d subject) (op : Operator) (value : Value) :
    (ofComparison subject op value).Readable d := by
  unfold ofComparison
  split <;> exact h

end Condition

open Condition Reading

/-- A text that is read as a condition. -/
theorem Reading.Sentence.readCondition {f : Fragment} {e : Expr (List Token)} (h : Sentence d f e) :
    readCondition d (f.text d) f.params = some (some e) := by
  obtain ⟨items, hreads, hitems⟩ := h.reads
  rw [Sql.readCondition, h.legible.readLexemes]
  cases hlexemes : f.lexemes d with
  | nil =>
      rw [Fragment.tokens, hlexemes] at hreads
      cases hreads
      cases hitems
  | cons lexeme rest =>
      rw [Fragment.tokens, hlexemes] at hreads
      dsimp only
      rw [hreads.condition?, hitems, Option.map_some]

/-- The text of a chain is read as the chain; an empty text is true. -/
theorem Chain.readCondition {chain : Chain} (h : ∀ member ∈ chain, member.2.Readable d) :
    ∃ e, readCondition d (chain.fragment.text d) chain.fragment.params = some e ∧
      ∀ ρ, Expr.truth ρ e = Truth.chain (chainTruths d ρ chain) := by
  by_cases hne : chain = []
  · subst hne
    refine ⟨none, ?_, fun ρ => rfl⟩
    have hempty : Fragment.Legible d (Chain.fragment []) := Fragment.legible_nil d
    rw [Sql.readCondition, hempty.readLexemes]
    rfl
  · refine ⟨some (chainExpr d chain), ?_, fun ρ => value_chainExpr hne⟩
    exact (ReadableMembers.sentence chain hne (readableMembers_iff.2 h)).readCondition

end Sql

open Sql.Condition

/-! ### The caller's filters -/

theorem Filter.groupTruths_eq (query : QueryOf Filter) :
    groupTruths d ρ query = truths d ρ query.filters := by
  cases query
  rw [groupTruths]

/-- A filter and a condition that says the same. -/
def Faithful (d : Dialect) (filter : Filter) (condition? : Option Condition) : Prop :=
  (∀ condition ∈ condition?, condition.Readable d) ∧
    ∀ ρ, condition?.map (fun condition => (condition.expr d).value ρ) = filter.truth? d ρ

/-- Filters and a chain that says the same. -/
def FaithfulChain (d : Dialect) (filters : List Filter) (chain : Chain) : Prop :=
  (∀ member ∈ chain, member.2.Readable d) ∧ ∀ ρ, chainTruths d ρ chain = Filter.truths d ρ filters

theorem faithful_ofComparison {filter : Filter} {subject : Fragment} {op : Operator} {value : Value}
    (h : Subject d subject) (hfilter : ∀ ρ, filter.truth? d ρ = some (comparisonTruth d ρ subject op value)) :
    Faithful d filter (some (ofComparison subject op value)) := by
  refine ⟨?_, fun ρ => ?_⟩
  · rintro _ ⟨⟩
    exact readable_ofComparison h op value
  · rw [hfilter, Option.map_some, value_ofComparison]

theorem faithful_lowering (c : Compiler) : Lowering c (Faithful c.dialect) (FaithfulChain c.dialect) where
  basic hop := faithful_ofComparison (subject_reference _ _) fun ρ => by rw [Filter.truth?, hop, Option.map_some]
  isIn _ hvalues := by
    refine ⟨fun _ hc => by cases hc; exact subject_reference _ _, fun ρ => ?_⟩
    rw [Filter.truth?, hvalues]
    rfl
  isInNothing _ := ⟨fun _ hc => by cases hc; trivial, fun ρ => rfl⟩
  isNull := ⟨fun _ hc => by cases hc; exact subject_reference _ _, fun ρ => rfl⟩
  between := ⟨fun _ hc => by cases hc; exact subject_reference _ _, fun ρ => rfl⟩
  json hop hsubject := by
    refine faithful_ofComparison (subject_jsonExtract hsubject) fun ρ => ?_
    rw [Filter.truth?, hop, Option.map_some, pathSubject, hsubject]
    rfl
  group {query connective chain} h := by
    obtain ⟨hreadable, htruths⟩ := h
    cases chain with
    | nil =>
        refine ⟨nofun, fun ρ => ?_⟩
        rw [Filter.truth?, Filter.groupTruths_eq, ← htruths ρ]
        rfl
    | cons member rest =>
        have hne := List.cons_ne_nil member rest
        refine ⟨fun _ hc => by cases hc; exact ⟨hne, readableMembers_iff.2 hreadable⟩, fun ρ => ?_⟩
        rw [Filter.truth?, Filter.groupTruths_eq, ← htruths ρ, ← value_chainExpr hne]
        rfl
  nil := ⟨nofun, fun ρ => rfl⟩
  leftOut hfilter hrest := by
    refine ⟨hrest.1, fun ρ => ?_⟩
    rw [Filter.truths, ← hfilter.2 ρ]
    exact hrest.2 ρ
  cons {filter rest condition chain} hfilter hrest := by
    refine ⟨List.forall_mem_cons.2 ⟨hfilter.1 condition rfl, hrest.1⟩, fun ρ => ?_⟩
    rw [Filter.truths, ← hfilter.2 ρ, ← hrest.2 ρ]
    rfl

/-- The chain of filters says what the filters say. -/
theorem faithful_filterChain {filters : List Filter} {chain : Chain} (h : c.filterChain filters = .ok chain) :
    FaithfulChain c.dialect filters chain :=
  (faithful_lowering c).filterChain filters chain h

/-! ### Added conditions -/

theorem subject_addedColumn (d : Dialect) (qualifier column : String) :
    Subject d (Compiler.addedColumn qualifier column) := by
  rw [Compiler.addedColumn]
  split <;> exact subject_reference d _

theorem subject_scopeColumn {qualifier : String} {column : Value} {subject : Fragment}
    (h : Compiler.scopeColumn qualifier column = .ok subject) : Subject d subject := by
  rw [Compiler.scopeColumn.eq_def] at h
  split at h
  case h_1 name =>
    cases h
    exact subject_addedColumn d qualifier name
  case h_2 members =>
    split at h
    · cases h
    · cases h
      exact subject_reference d _
  case h_3 =>
    split at h
    · obtain ⟨name, -, rfl⟩ := map_eq_ok.1 h
      exact subject_reference d name
    · cases h

/-- The truth values of conditions. -/
def conditionTruths (d : Dialect) (ρ : List Token → Truth) (conditions : List Condition) : List Truth :=
  conditions.map fun condition => (condition.expr d).value ρ

theorem scope_equalities {scope : Row} {qualifier : String} {equalities : List Condition}
    (h : scope.mapM (Compiler.scopeCondition qualifier) = .ok equalities) :
    (∀ condition ∈ equalities, condition.Readable d) ∧
      ∀ ρ, conditionTruths d ρ equalities = scopeTruths d ρ scope qualifier := by
  have hall := mapM_eq_ok.1 h
  clear h
  induction hall with
  | nil => exact ⟨nofun, fun ρ => rfl⟩
  | @cons entry condition scope equalities hentry _ ih =>
      obtain ⟨column, value⟩ := entry
      obtain ⟨hreadable, htruths⟩ := ih
      obtain ⟨subject, hsubject, rfl⟩ := map_eq_ok.1 hentry
      refine ⟨List.forall_mem_cons.2 ⟨readable_ofComparison (subject_scopeColumn hsubject) _ _, hreadable⟩,
        fun ρ => ?_⟩
      have hfirst : (Compiler.scopeColumn qualifier column).toOption.getD [] = subject := by
        rw [hsubject]
        rfl
      rw [conditionTruths, List.map_cons, value_ofComparison, ← conditionTruths, htruths, ← hfirst]
      rfl

theorem visibility_test (softDelete : Option SoftDelete) (visibility : Visibility) (qualifier : String) :
    let conditions := (softDelete.bind fun s => Compiler.visibilityCondition? s visibility qualifier).toList
    (∀ condition ∈ conditions, condition.Readable d) ∧
      ∀ ρ, Truth.all (conditionTruths d ρ conditions) = visibilityTruth d ρ softDelete visibility qualifier := by
  cases softDelete with
  | none => exact ⟨List.forall_mem_nil _, fun ρ => rfl⟩
  | some s =>
      have hsubject := subject_addedColumn d qualifier s.column
      have hone : ∀ {condition : Condition}, condition.Readable d → ∀ other ∈ [condition], other.Readable d :=
        fun h => List.forall_mem_singleton.2 h
      simp only [Option.bind_some, Compiler.visibilityCondition?, visibilityTruth]
      cases visibility <;> cases s.mode
      case live.timestamp => exact ⟨hone hsubject, fun ρ => Truth.and_yes _⟩
      case live.boolean =>
        exact ⟨hone ⟨List.cons_ne_nil _ _, hsubject, hsubject, trivial⟩, fun ρ => Truth.and_yes _⟩
      case withTrashed.timestamp => exact ⟨List.forall_mem_nil _, fun ρ => rfl⟩
      case withTrashed.boolean => exact ⟨List.forall_mem_nil _, fun ρ => rfl⟩
      case onlyTrashed.timestamp => exact ⟨hone hsubject, fun ρ => Truth.and_yes _⟩
      case onlyTrashed.boolean => exact ⟨hone hsubject, fun ρ => Truth.and_yes _⟩

/-- The conditions that are added say what the scope and the visibility say. -/
theorem addedConditions_truth {scope : Row} {visibility : Visibility} {qualifier : String} {added : List Condition}
    (h : c.addedConditions scope visibility qualifier = .ok added) :
    (∀ condition ∈ added, condition.Readable d) ∧
      ∀ ρ, Truth.all (conditionTruths d ρ added) =
        (Truth.all (scopeTruths d ρ scope qualifier)).and (visibilityTruth d ρ c.softDelete visibility qualifier) := by
  obtain ⟨equalities, hequalities, rfl⟩ := Compiler.addedConditions_parts h
  obtain ⟨hscope, hscopeTruths⟩ := scope_equalities (d := d) hequalities
  obtain ⟨htest, htestTruth⟩ := visibility_test (d := d) c.softDelete visibility qualifier
  refine ⟨fun condition hmem => (List.mem_append.1 hmem).elim (hscope condition) (htest condition), fun ρ => ?_⟩
  rw [conditionTruths, List.map_append, Truth.all_append, ← conditionTruths, ← conditionTruths, hscopeTruths,
    htestTruth]

/-! ### Added conditions and the caller's together -/

theorem chainTruths_all (conditions : List Condition) :
    chainTruths d ρ (Chain.all conditions) = (conditionTruths d ρ conditions).map fun t => (.and, t) := by
  rw [chainTruths, Chain.all, conditionTruths, List.map_map, List.map_map]
  rfl

theorem chain_chainTruths_all (conditions : List Condition) :
    Truth.chain (chainTruths d ρ (Chain.all conditions)) = Truth.all (conditionTruths d ρ conditions) := by
  rw [chainTruths_all, Truth.chain_all]

theorem readable_all {conditions : List Condition} (h : ∀ condition ∈ conditions, condition.Readable d) :
    ∀ member ∈ Chain.all conditions, member.2.Readable d := by
  intro member hmem
  obtain ⟨condition, hcondition, rfl⟩ := List.mem_map.1 hmem
  exact h condition hcondition

theorem all_concat (conditions : List Condition) (condition : Condition) :
    Chain.all conditions ++ [(.and, condition)] = Chain.all (conditions ++ [condition]) := by
  rw [Chain.all, Chain.all, List.map_append, List.map_singleton]

/-- Added conditions and one more operand. -/
theorem chain_all_concat (added : List Condition) (condition : Condition) :
    Truth.chain (chainTruths d ρ (Chain.all added ++ [(.and, condition)])) =
      (Truth.all (conditionTruths d ρ added)).and ((condition.expr d).value ρ) := by
  rw [all_concat, chain_chainTruths_all, conditionTruths, List.map_append, Truth.all_append, ← conditionTruths]
  exact congrArg _ (Truth.and_yes _)

/-- Joined, the added conditions hold and the caller's chain does. -/
theorem joinChains_truth {added : List Condition} {own : Chain}
    (hadded : ∀ condition ∈ added, condition.Readable d) (hown : ∀ member ∈ own, member.2.Readable d) :
    (∀ member ∈ Compiler.joinChains added own, member.2.Readable d) ∧
      ∀ ρ, Truth.chain (chainTruths d ρ (Compiler.joinChains added own)) =
        (Truth.all (conditionTruths d ρ added)).and (Truth.chain (chainTruths d ρ own)) := by
  match own with
  | [] =>
      refine ⟨readable_all hadded, fun ρ => ?_⟩
      rw [Compiler.joinChains, chain_chainTruths_all]
      exact (Truth.and_yes _).symm
  | [(connective, condition)] =>
      refine ⟨List.forall_mem_append.2 ⟨readable_all hadded, ?_⟩, fun ρ => ?_⟩
      · exact List.forall_mem_singleton.2 (hown (connective, condition) List.mem_cons_self)
      · rw [Compiler.joinChains, chain_all_concat]
        refine congrArg _ ?_
        simp [chainTruths, Truth.chain, Truth.runsFrom, Truth.any]
  | first :: second :: rest =>
      cases added with
      | nil => exact ⟨hown, fun ρ => rfl⟩
      | cons condition added =>
          refine ⟨List.forall_mem_append.2 ⟨readable_all hadded, ?_⟩, fun ρ => ?_⟩
          · exact List.forall_mem_singleton.2 ⟨List.cons_ne_nil _ _, readableMembers_iff.2 hown⟩
          · rw [← value_chainExpr (List.cons_ne_nil first (second :: rest))]
            exact chain_all_concat (condition :: added) (.group (first :: second :: rest))

/-- The condition and the order of a selection are those of its query. -/
theorem selection_parts {q : Query} {s : Selection} (h : c.selection q = .ok s) :
    (∃ qualifier, c.whereChain q.filters q.visibility c.scope qualifier = .ok s.condition) ∧
      s.orderBy = q.orderBy.map fun term => (term.column, term.direction) :=
  ⟨⟨_, (selects_of_selection h).condition⟩, (selects_of_selection h).orderBy⟩

/-- The condition of a statement is about subjects only. -/
theorem whereChain_readable {filters : List Filter} {visibility : Visibility} {scope : Row} {qualifier : String}
    {chain : Chain} (h : c.whereChain filters visibility scope qualifier = .ok chain) :
    ∀ member ∈ chain, member.2.Readable c.dialect := by
  obtain ⟨added, own, hadded, hown, rfl⟩ := whereChain_parts h
  exact (joinChains_truth (addedConditions_truth hadded).1 (faithful_filterChain hown).1).1

/-- The condition of a statement is read as the conjunction of the scope, the visibility and the caller's filters.
Where it is true, so are all of the scope and the visibility. -/
theorem whereChain_reading {filters : List Filter} {visibility : Visibility} {scope : Row} {qualifier : String}
    {chain : Chain} (h : c.whereChain filters visibility scope qualifier = .ok chain) :
    ∃ e, readCondition c.dialect (chain.fragment.text c.dialect) chain.fragment.params = some e ∧
      ∀ ρ, Expr.truth ρ e =
          ((Truth.all (scopeTruths c.dialect ρ scope qualifier)).and
            (visibilityTruth c.dialect ρ c.softDelete visibility qualifier)).and
              (Truth.chain (Filter.truths c.dialect ρ filters)) ∧
        (Expr.truth ρ e = .yes → (∀ t ∈ scopeTruths c.dialect ρ scope qualifier, t = .yes) ∧
          visibilityTruth c.dialect ρ c.softDelete visibility qualifier = .yes) := by
  obtain ⟨added, own, hadded, hown, rfl⟩ := whereChain_parts h
  obtain ⟨haddedReadable, haddedTruth⟩ := addedConditions_truth (d := c.dialect) hadded
  obtain ⟨hownReadable, hownTruth⟩ := faithful_filterChain hown
  obtain ⟨hreadable, htruth⟩ := joinChains_truth haddedReadable hownReadable
  obtain ⟨e, hread, he⟩ := Chain.readCondition hreadable
  have hvalue : ∀ ρ, Expr.truth ρ e =
      ((Truth.all (scopeTruths c.dialect ρ scope qualifier)).and
        (visibilityTruth c.dialect ρ c.softDelete visibility qualifier)).and
          (Truth.chain (Filter.truths c.dialect ρ filters)) := by
    intro ρ
    rw [he, htruth, haddedTruth, hownTruth]
  refine ⟨e, hread, fun ρ => ⟨hvalue ρ, fun hyes => ?_⟩⟩
  rw [hvalue, Truth.and_eq_yes_iff, Truth.and_eq_yes_iff, Truth.all_eq_yes_iff] at hyes
  exact hyes.1

/-- Two filters with an `OR` between them, in a scope of one column. -/
theorem whereChain_reading_two_filters :
    ∃ chain, Compiler.whereChain ⟨.sqlite, [], some { column := "gone" }, 1000, "", .null⟩
        [.basic "a" "=" (.int 1) .and, .isNull "b" false .or] .live [(.text "tenant", .int 7)] "" = .ok chain ∧
      chain.fragment.text .sqlite = "\"tenant\" = ? AND \"gone\" IS NULL AND (\"a\" = ? OR \"b\" IS NULL)" ∧
      ∃ e, readCondition .sqlite (chain.fragment.text .sqlite) chain.fragment.params = some e ∧
        ∀ ρ, Expr.truth ρ e = .yes →
          ∀ t ∈ scopeTruths .sqlite ρ [(.text "tenant", .int 7)] "", t = .yes := by
  refine ⟨_, rfl, rfl, ?_⟩
  obtain ⟨e, he, htruth⟩ := @whereChain_reading ⟨.sqlite, [], some { column := "gone" }, 1000, "", .null⟩
    [.basic "a" "=" (.int 1) .and, .isNull "b" false .or] .live [(.text "tenant", .int 7)] "" _ rfl
  exact ⟨e, he, fun ρ h => ((htruth ρ).2 h).1⟩

end Polyquery
