import Polyquery.Proofs.Lowering

/-! What may be refused in a query: the operators of its joins, of its filters at any depth and of its conditions on groups,
lists of values, paths into documents, and what stands in the place of a filter. Main statement: a query is refused for the
first of these, in the order in which they are stated, that cannot be taken. -/

namespace Polyquery

open Sql

/-! ### How computations fail -/

section Failing

variable {ε α β : Type}

/-- How a computation fails, if it does. -/
def failure? : Except ε α → Option ε
  | .ok _ => none
  | .error e => some e

theorem failure?_eq_some {x : Except ε α} {e : ε} : failure? x = some e ↔ x = .error e := by
  cases x <;> simp [failure?]

theorem failure?_eq_none {x : Except ε α} : failure? x = none ↔ ∃ a, x = .ok a := by
  cases x <;> simp [failure?]

/-- A computation fails as its first step does, or else as what follows. -/
theorem failure?_bind {x : Except ε α} {f : α → Except ε β} {later : Option ε} (h : ∀ a, failure? (f a) = later) :
    failure? (x >>= f) = (failure? x).or later := by
  cases x with
  | ok a => exact h a
  | error e => rfl

theorem failure?_bind_pure (x : Except ε α) (f : α → β) : failure? (x >>= fun a => pure (f a)) = failure? x := by
  cases x <;> rfl

theorem failure?_mapM (f : α → Except ε β) (as : List α) :
    failure? (as.mapM f) = as.findSome? fun a => failure? (f a) := by
  induction as with
  | nil => rfl
  | cons a as ih =>
      rw [List.mapM_cons, failure?_bind fun b => failure?_bind_pure (as.mapM f) (b :: ·), ih, List.findSome?_cons]
      cases failure? (f a) <;> rfl

theorem failure?_mapM_eq_none {f : α → Except ε β} {as : List α} (h : ∀ a ∈ as, ∃ b, f a = .ok b) :
    failure? (as.mapM f) = none := by
  rw [failure?_mapM, List.findSome?_eq_none_iff]
  exact fun a ha => failure?_eq_none.2 (h a ha)

end Failing

/-! ### What a query demands -/

/-- What may be refused in a query. -/
inductive Demand where
  | operator (text : String)
  | list (column : String) (values : List Value) (negated : Bool)
  | path (operator path : String)
  | node (value : Value)

namespace Filter

mutual

/-- What may be refused in a filter. -/
def demands : Filter → List Demand
  | basic _ operator _ _ => [.operator operator]
  | isIn column values negated _ => [.list column values negated]
  | isNull .. | between .. => []
  | json path operator _ _ => [.path operator path]
  | group query _ => groupDemands query
  | other value => [.node value]

/-- What may be refused in the filters of a nested query. -/
def groupDemands : QueryOf Filter → List Demand
  | ⟨_, _, filters, _, _, _, _, _, _, _, _⟩ => rowDemands filters

/-- What may be refused in filters, one filter after the other. -/
def rowDemands : List Filter → List Demand
  | [] => []
  | filter :: rest => filter.demands ++ rowDemands rest

end

theorem groupDemands_eq (query : QueryOf Filter) : groupDemands query = rowDemands query.filters := by
  cases query
  rw [groupDemands]

end Filter

/-- What may be refused in a query: its joins, then its filters, then its conditions on groups. -/
def Query.demands (q : Query) : List Demand :=
  q.joins.map (fun join => .operator join.operator) ++
    (Filter.rowDemands q.filters ++ q.having.map fun clause => .operator clause.operator)

namespace Demand

variable {c : Compiler}

/-- A segment of a path is a word of letters, digits and underscores; one line feed may follow it. -/
def IsSegment (segment : String) : Prop :=
  ∃ word, word ≠ [] ∧ (∀ ch ∈ word, JsonPath.isPathChar ch = true) ∧
    (segment.toList = word ∨ segment.toList = word ++ ['\n'])

/-- How a compiler refuses what it cannot take. The operator of a path comes before the path, and a dialect without paths
before what is wrong with it. -/
inductive Refused (c : Compiler) : Demand → Failure → Prop
  | operator {text : String} (h : Operator.normalized text ∉ operatorSpellings) :
      Refused c (.operator text) (.invalid (.operator (.text text)))
  | list {column : String} {values : List Value} {negated : Bool} (h : c.maxInValues < values.length) :
      Refused c (.list column values negated) (.invalid (.listTooLong column values.length c.maxInValues))
  | pathOperator {operator path : String} (h : Operator.normalized operator ∉ operatorSpellings) :
      Refused c (.path operator path) (.invalid (.operator (.text operator)))
  | unsupported {operator path : String} (h : Operator.normalized operator ∈ operatorSpellings)
      (hdialect : c.dialect = .ansi) :
      Refused c (.path operator path) (.unsupported "JSON path extraction" c.dialect.name)
  | noSegments {operator path : String} (h : Operator.normalized operator ∈ operatorSpellings)
      (hdialect : c.dialect ≠ .ansi) (hpath : (Text.splitDots path).tail = []) :
      Refused c (.path operator path) (.invalid .noPathSegments)
  | segment {operator path segment : String} {before after : List String}
      (h : Operator.normalized operator ∈ operatorSpellings) (hdialect : c.dialect ≠ .ansi)
      (hpath : (Text.splitDots path).tail = before ++ segment :: after) (hbefore : ∀ s ∈ before, IsSegment s)
      (hsegment : ¬IsSegment segment) :
      Refused c (.path operator path) (.invalid (.pathSegment segment))
  | node {value : Value} : Refused c (.node value) (.uncompilable (.notAFilter value.kindName))

/-- How a demand fails, if it does. -/
def refusal? (c : Compiler) : Demand → Option Failure
  | operator text => failure? (Operator.ofValue (.text text))
  | list column values _ =>
    if c.maxInValues < values.length then some (.invalid (.listTooLong column values.length c.maxInValues)) else none
  | path comparison route =>
    (failure? (Operator.ofValue (.text comparison))).or
      (failure? (jsonExtract c.dialect (Fragment.reference ((Text.splitDots route).headD ""))
        (JsonPath.validate (Text.splitDots route).tail)))
  | node value => some (.uncompilable (.notAFilter value.kindName))

theorem failure?_ofValue (text : String) : failure? (Operator.ofValue (.text text)) =
    if Operator.normalized text ∈ operatorSpellings then none else some (.invalid (.operator (.text text))) := by
  have hall : ∀ s, s ∈ operatorSpellings ↔ ∃ op ∈ Operator.all, op.spelling = s := by
    intro s
    have hperm : operatorSpellings.Perm (Operator.all.map Operator.spelling) := by decide
    rw [hperm.mem_iff, List.mem_map]
  cases hop : Operator.ofText? text with
  | some op =>
      have hfound := List.find?_some hop
      rw [ofValue_of_ofText? hop, if_pos ((hall _).2 ⟨op, List.mem_of_find?_eq_some hop, by simpa using hfound⟩)]
      rfl
  | none =>
      have hnone : Operator.normalized text ∉ operatorSpellings := by
        rw [hall]
        rintro ⟨op, hmem, hspelling⟩
        exact List.find?_eq_none.1 hop op hmem (by simpa using hspelling)
      have hplain : (Value.text text).plain = text := rfl
      rw [if_neg hnone, Operator.ofValue, hplain, hop]
      rfl

theorem isSegment_iff {segment : String} : JsonPath.isSegment segment = true ↔ IsSegment segment := by
  simp only [JsonPath.isSegment, Bool.and_eq_true, Bool.not_eq_true', List.isEmpty_eq_false_iff, List.all_eq_true]
  constructor
  · rintro ⟨hne, hall⟩
    refine ⟨_, hne, hall, ?_⟩
    split
    · rename_i hlast
      exact .inr (List.dropLast_append_getLast? _ hlast).symm
    · exact .inl rfl
  · rintro ⟨word, hne, hall, hword | hword⟩
    · have hlast : segment.toList.getLast? ≠ some '\n' := by
        rw [hword]
        intro hlast
        exact absurd (hall _ (List.mem_of_getLast? hlast)) (by decide)
      rw [if_neg hlast, hword]
      exact ⟨hne, hall⟩
    · rw [hword, List.getLast?_concat, if_pos rfl, List.dropLast_concat]
      exact ⟨hne, hall⟩

theorem failure?_checked (segment : String) : failure? (JsonPath.checked segment) =
    if JsonPath.isSegment segment then none else some (.invalid (.pathSegment segment)) := by
  rw [JsonPath.checked]
  split <;> rfl

theorem failure?_validate {segments : List String} {f : Failure} : failure? (JsonPath.validate segments) = some f ↔
    (segments = [] ∧ f = .invalid .noPathSegments) ∨ ∃ before segment after, segments = before ++ segment :: after ∧
      (∀ s ∈ before, IsSegment s) ∧ ¬IsSegment segment ∧ f = .invalid (.pathSegment segment) := by
  cases segments with
  | nil => simp [JsonPath.validate, failure?, eq_comm]
  | cons first rest =>
      have hvalidate : JsonPath.validate (first :: rest) = (first :: rest).mapM JsonPath.checked := rfl
      rw [hvalidate, failure?_mapM, List.findSome?_eq_some_iff]
      simp only [failure?_checked, List.cons_ne_nil, false_and, false_or, ← isSegment_iff]
      refine exists_congr fun before => exists_congr fun segment => exists_congr fun after => and_congr_right fun _ => ?_
      rw [and_comm]
      refine and_congr (by simp) ?_
      cases JsonPath.isSegment segment with
      | true => simp
      | false => simp [eq_comm]

theorem failure?_jsonExtract (d : Dialect) (column : Fragment) (segments : Except Failure (List String)) :
    failure? (jsonExtract d column segments) =
      if d = .ansi then some (.unsupported "JSON path extraction" d.name) else failure? segments := by
  cases d with
  | ansi => rfl
  | _ => exact failure?_bind_pure segments _

theorem refusal?_path {comparison path : String} {f : Failure} :
    (Demand.path comparison path).refusal? c = some f ↔ (Demand.path comparison path).Refused c f := by
  rw [refusal?, failure?_ofValue, failure?_jsonExtract]
  by_cases hop : Operator.normalized comparison ∈ operatorSpellings
  · rw [if_pos hop, Option.none_or]
    by_cases hdialect : c.dialect = .ansi
    · rw [if_pos hdialect]
      constructor
      · rintro ⟨⟩
        exact .unsupported hop hdialect
      · intro h
        cases h with
        | pathOperator h => exact absurd hop h
        | unsupported => rfl
        | noSegments _ h => exact absurd hdialect h
        | segment _ h => exact absurd hdialect h
    · rw [if_neg hdialect, failure?_validate]
      constructor
      · rintro (⟨hpath, rfl⟩ | ⟨before, segment, after, hpath, hbefore, hsegment, rfl⟩)
        · exact .noSegments hop hdialect hpath
        · exact .segment hop hdialect hpath hbefore hsegment
      · intro h
        cases h with
        | pathOperator h => exact absurd hop h
        | unsupported _ h => exact absurd h hdialect
        | noSegments _ _ hpath => exact .inl ⟨hpath, rfl⟩
        | segment _ _ hpath hbefore hsegment => exact .inr ⟨_, _, _, hpath, hbefore, hsegment, rfl⟩
  · rw [if_neg hop, Option.some_or]
    constructor
    · rintro ⟨⟩
      exact .pathOperator hop
    · intro h
      cases h with
      | pathOperator => rfl
      | unsupported h | noSegments h | segment h => exact absurd h hop

theorem refusal?_eq_some {demand : Demand} {f : Failure} : demand.refusal? c = some f ↔ demand.Refused c f := by
  cases demand with
  | operator text =>
      rw [refusal?, failure?_ofValue]
      constructor
      · intro h
        split at h <;> cases h
        exact .operator ‹_›
      · intro h
        cases h with
        | operator h => rw [if_neg h]
  | list column values negated =>
      rw [refusal?]
      constructor
      · intro h
        split at h <;> cases h
        exact .list ‹_›
      · intro h
        cases h with
        | list h => rw [if_pos h]
  | path comparison path => exact refusal?_path
  | node value =>
      constructor
      · rintro ⟨⟩
        exact .node
      · rintro ⟨⟩
        rfl

theorem refusal?_eq_none {demand : Demand} : demand.refusal? c = none ↔ ∀ f, ¬demand.Refused c f := by
  rw [Option.eq_none_iff_forall_ne_some]
  exact forall_congr' fun f => not_congr refusal?_eq_some

end Demand

namespace Compiler

variable {c : Compiler}

/-! ### From filters to queries -/

mutual

theorem failure?_condition? (c : Compiler) : (filter : Filter) →
    failure? (c.condition? filter) = filter.demands.findSome? (Demand.refusal? c)
  | .basic column operator value _ => by
      rw [condition?, failure?_bind_pure, Filter.demands, List.findSome?_singleton, Demand.refusal?]
  | .isIn column values negated _ => by
      rw [condition?, Filter.demands, List.findSome?_singleton, Demand.refusal?]
      split
      · rfl
      · split <;> rfl
  | .isNull .. => rfl
  | .between .. => rfl
  | .json path operator value _ => by
      rw [condition?, Filter.demands, List.findSome?_singleton, Demand.refusal?]
      exact failure?_bind fun op => failure?_bind_pure _ _
  | .group query _ => by
      rw [condition?, failure?_bind_pure, failure?_groupChain c query, Filter.demands]
  | .other value => rfl

theorem failure?_groupChain (c : Compiler) : (query : QueryOf Filter) →
    failure? (c.groupChain query) = (Filter.groupDemands query).findSome? (Demand.refusal? c)
  | ⟨_, _, filters, _, _, _, _, _, _, _, _⟩ => by
      rw [groupChain, Filter.groupDemands, failure?_filterChain c filters]

theorem failure?_filterChain (c : Compiler) : (filters : List Filter) →
    failure? (c.filterChain filters) = (Filter.rowDemands filters).findSome? (Demand.refusal? c)
  | [] => rfl
  | filter :: rest => by
      rw [filterChain, Filter.rowDemands, List.findSome?_append, ← failure?_condition? c filter,
        ← failure?_filterChain c rest]
      exact failure?_bind fun condition => failure?_bind_pure _ _

end

/-- Columns, groups and the scope are given by their names. -/
structure Named (c : Compiler) (q : Query) : Prop where
  columns : ∀ column ∈ q.columns, ∃ name, column = .text name
  groupBy : ∀ column ∈ q.groupBy, ∃ name, column = .text name
  scope : ∀ entry ∈ c.scope, ∃ name, entry.1 = .text name

theorem failure?_addedConditions {scope : Row} (h : ∀ entry ∈ scope, ∃ name, entry.1 = .text name)
    (visibility : Visibility) (qualifier : String) : failure? (c.addedConditions scope visibility qualifier) = none := by
  rw [addedConditions, failure?_bind_pure]
  refine failure?_mapM_eq_none fun entry hentry => ?_
  obtain ⟨name, hname⟩ := h entry hentry
  obtain ⟨column, value⟩ := entry
  cases hname
  exact ⟨_, rfl⟩

/-- A query is refused for the first thing in it that cannot be taken. -/
theorem failure?_select {q : Query} (N : c.Named q) :
    failure? (c.select q) = q.demands.findSome? (Demand.refusal? c) := by
  have hprojection : failure? (projection q.columns) = none := by
    rw [projection]
    split
    · rfl
    · refine failure?_mapM_eq_none fun column hcolumn => ?_
      obtain ⟨name, rfl⟩ := N.columns column hcolumn
      exact ⟨_, rfl⟩
  have hgroupBy : failure? (q.groupBy.mapM Value.name) = none := by
    refine failure?_mapM_eq_none fun column hcolumn => ?_
    obtain ⟨name, rfl⟩ := N.groupBy column hcolumn
    exact ⟨_, rfl⟩
  have hjoins : failure? (q.joins.mapM c.joined) =
      (q.joins.map fun join => Demand.operator join.operator).findSome? (Demand.refusal? c) := by
    rw [failure?_mapM, List.findSome?_map]
    refine congrArg (List.findSome? · q.joins) (funext fun join => ?_)
    rw [Function.comp, joined, failure?_bind_pure, Demand.refusal?]
  have hhaving : failure? (havingClauses q.having) =
      (q.having.map fun clause => Demand.operator clause.operator).findSome? (Demand.refusal? c) := by
    rw [havingClauses, failure?_mapM, List.findSome?_map]
    refine congrArg (List.findSome? · q.having) (funext fun clause => ?_)
    rw [Function.comp, failure?_bind_pure, Demand.refusal?]
  have hwhere : ∀ qualifier, failure? (c.whereChain q.filters q.visibility c.scope qualifier) =
      (Filter.rowDemands q.filters).findSome? (Demand.refusal? c) := by
    intro qualifier
    refine (failure?_bind fun added => failure?_bind_pure (c.filterChain q.filters) _).trans ?_
    rw [failure?_addedConditions N.scope, Option.none_or, failure?_filterChain]
  rw [select, failure?_bind_pure]
  refine (failure?_bind fun projection => failure?_bind fun joins => failure?_bind fun condition =>
    failure?_bind fun groupBy => failure?_bind_pure _ _).trans ?_
  rw [hprojection, hjoins, hwhere, hgroupBy, hhaving, Query.demands, List.findSome?_append, List.findSome?_append,
    Option.none_or, Option.none_or]

end Compiler

end Polyquery
