import Polyquery.Proofs.Demands
import Polyquery.Proofs.Isolation

/-! The lists of values in a statement, and what a query is refused for. Main statement: a query is refused for the first
thing in it that cannot be taken, and if there is none, the statement holds its lists one after the other, each with a
placeholder and a parameter for every value of it. -/

namespace Polyquery

open Sql Condition

/-- The text of a list of values: a placeholder for each, or what is always false or true if there is none. -/
def listText (d : Dialect) (column : String) (count : Nat) (negated : Bool) : String :=
  if count = 0 then if negated then "1 = 1" else "1 = 0"
  else (Fragment.reference column).text d ++ (if negated then " NOT IN (" else " IN (") ++
    Text.joined ", " (List.replicate count d.placeholder) ++ ")"

/-- How a list of values is written, and its parameters. -/
def Demand.list? (d : Dialect) : Demand → Option (String × List Value)
  | .list column values negated => some (listText d column values.length negated, values)
  | .operator _ | .path _ _ | .node _ => none

/-- Texts with their parameters that stand in a fragment one after the other. -/
inductive InTurn (d : Dialect) : List (String × List Value) → Fragment → Prop
  | nil (f : Fragment) : InTurn d [] f
  | cons {lists : List (String × List Value)} {after : Fragment} (before own : Fragment) (rest : InTurn d lists after) :
      InTurn d ((own.text d, own.params) :: lists) (before ++ (own ++ after))

namespace InTurn

variable {d : Dialect} {lists others : List (String × List Value)} {f g : Fragment}

theorem behind (h : InTurn d lists f) (before : Fragment) : InTurn d lists (before ++ f) := by
  cases h with
  | nil => exact .nil _
  | cons more own rest =>
      rw [← List.append_assoc]
      exact .cons (before ++ more) own rest

theorem append (h : InTurn d lists f) (hg : InTurn d others g) : InTurn d (lists ++ others) (f ++ g) := by
  induction h with
  | nil f => exact hg.behind f
  | cons before own rest ih =>
      rw [List.append_assoc, List.append_assoc]
      exact .cons before own ih

theorem one {text : String} {params : List Value} (htext : f.text d = text) (hparams : f.params = params) :
    InTurn d [(text, params)] f := by
  have hf := InTurn.cons [] f (.nil (d := d) [])
  rwa [List.nil_append, List.append_nil, htext, hparams] at hf

theorem followed (h : InTurn d lists f) (after : Fragment) : InTurn d lists (f ++ after) := by
  have hall := h.append (.nil after)
  rwa [List.append_nil] at hall

end InTurn

/-- A list that has values stands in its condition. -/
theorem inTurn_isIn (d : Dialect) (column : String) {values : List Value} (h : values.isEmpty = false) (negated : Bool) :
    InTurn d [(listText d column values.length negated, values)]
      (Condition.isIn (Fragment.reference column) values negated).fragment := by
  have hcount : ¬values.length = 0 := by simpa using h
  have hparts : (Condition.isIn (Fragment.reference column) values negated).fragment =
      Fragment.reference column ++ (Fragment.words (if negated then " NOT IN (" else " IN (") ++
        (Fragment.bindList values ++ Fragment.words ")")) := by
    simp [Condition.fragment, Fragment.words]
  rw [hparts]
  refine .one ?_ ?_
  · rw [listText, if_neg hcount, Fragment.text_append, Fragment.text_append, Fragment.text_append, Fragment.text_words,
      Fragment.text_words, Fragment.text_bindList, String.append_assoc, String.append_assoc]
  · simp [Fragment.params_bindList]

/-- The lists among what a query demands. -/
def Demand.lists (d : Dialect) (demands : List Demand) : List (String × List Value) := demands.filterMap (Demand.list? d)

theorem Demand.lists_append (d : Dialect) (demands others : List Demand) :
    lists d (demands ++ others) = lists d demands ++ lists d others :=
  List.filterMap_append

/-- What stands in the first member of a chain, and then what stands in the others. -/
theorem inTurn_member {d : Dialect} {lists others : List (String × List Value)} {condition : Condition} {chain : Chain}
    (connective : Connective) (hcondition : InTurn d lists condition.fragment) (hnil : chain = [] → others = [])
    (h : InTurn d others chain.fragment) : InTurn d (lists ++ others) (Chain.fragment ((connective, condition) :: chain)) := by
  rw [Chain.fragment, Condition.chainFragment]
  cases chain with
  | nil =>
      rw [hnil rfl, List.append_nil]
      exact hcondition.followed _
  | cons next rest =>
      rw [Condition.restFragment]
      exact hcondition.append (h.behind (Fragment.words (" " ++ next.1.spelling ++ " ")))

/-- The lists of filters stand in their condition; filters without a condition have none. -/
theorem inTurn_lowering (c : Compiler) : Lowering c
    (fun filter condition? => condition?.elim (Demand.lists c.dialect filter.demands = [])
      fun condition => InTurn c.dialect (Demand.lists c.dialect filter.demands) condition.fragment)
    (fun filters chain => (chain = [] → Demand.lists c.dialect (Filter.rowDemands filters) = []) ∧
      InTurn c.dialect (Demand.lists c.dialect (Filter.rowDemands filters)) chain.fragment) where
  basic _ := .nil _
  isIn {column values negated connective} _ hvalues := inTurn_isIn c.dialect column hvalues negated
  isInNothing {column negated connective} _ := .one (Fragment.text_words _ _) rfl
  isNull := .nil _
  between := .nil _
  json _ _ := .nil _
  group {query connective chain} h := by
    rw [Filter.demands, Filter.groupDemands_eq]
    cases chain with
    | nil => exact h.1 rfl
    | cons member rest =>
        have hgroup := (h.2.behind (Fragment.words "(")).followed (Fragment.words ")")
        exact hgroup
  nil := ⟨fun _ => rfl, .nil _⟩
  leftOut {filter rest chain} hfilter hrest := by
    have hnone : Demand.lists c.dialect filter.demands = [] := hfilter
    rw [Filter.rowDemands, Demand.lists_append, hnone, List.nil_append]
    exact hrest
  cons {filter rest condition chain} hfilter hrest := by
    refine ⟨(nomatch ·), ?_⟩
    rw [Filter.rowDemands, Demand.lists_append]
    exact inTurn_member _ hfilter hrest.1 hrest.2

/-- What stands in the caller's conditions stands in the whole condition. -/
theorem inTurn_joinChains {d : Dialect} {lists : List (String × List Value)} {own : Chain} (hnil : own = [] → lists = [])
    (h : InTurn d lists own.fragment) (added : List Condition) :
    InTurn d lists (Compiler.joinChains added own).fragment := by
  have hall : ∀ {chain : Chain}, chain ≠ [] → InTurn d lists chain.fragment →
      InTurn d lists (Chain.fragment (Chain.all added ++ chain)) := by
    intro chain hne hchain
    induction added with
    | nil => exact hchain
    | cons condition added ih =>
        have hlonger : Chain.all added ++ chain ≠ [] := List.append_ne_nil_of_right_ne_nil _ hne
        exact inTurn_member .and (.nil condition.fragment) (fun hnone => absurd hnone hlonger) ih
  match own with
  | [] =>
      rw [hnil rfl]
      exact .nil _
  | [(_, condition)] => exact hall (List.cons_ne_nil _ _) h
  | first :: second :: rest =>
      cases added with
      | nil => exact h
      | cons condition added =>
          have hgroup : InTurn d lists (Chain.fragment [(.and, .group (first :: second :: rest))]) := by
            rw [Chain.fragment, Condition.chainFragment, Condition.fragment]
            exact ((h.behind (Fragment.words "(")).followed (Fragment.words ")")).followed _
          exact hall (List.cons_ne_nil _ _) hgroup

theorem lists_demands (d : Dialect) (q : Query) :
    Demand.lists d q.demands = Demand.lists d (Filter.rowDemands q.filters) := by
  have hnone : ∀ {α : Type} (as : List α) (spelling : α → String),
      Demand.lists d (as.map fun a => .operator (spelling a)) = [] := by
    intro α as spelling
    rw [Demand.lists, List.filterMap_map]
    exact List.filterMap_eq_nil_iff.2 fun _ _ => rfl
  rw [Query.demands, Demand.lists_append, Demand.lists_append, hnone, hnone, List.nil_append, List.append_nil]

/-- The lists of a query stand in its statement. -/
theorem inTurn_select {c : Compiler} {q : Query} {s : Statement} (h : c.select q = .ok s) :
    InTurn c.dialect (Demand.lists c.dialect q.demands) s.fragment := by
  obtain ⟨selection, hselects, rfl⟩ := Compiler.select_parts h
  obtain ⟨added, own, -, hown, hjoined⟩ := whereChain_parts hselects.condition
  obtain ⟨hnil, hlists⟩ := (inTurn_lowering c).filterChain q.filters own hown
  have hchain := inTurn_joinChains hnil hlists added
  rw [← hjoined] at hchain
  have hwhere : InTurn c.dialect (Demand.lists c.dialect q.demands) (whereClause selection.condition) := by
    rw [lists_demands, whereClause]
    split
    · rename_i hempty
      rwa [List.isEmpty_iff.1 hempty] at hchain
    · exact hchain.behind (Fragment.words " WHERE ")
  exact ((((hwhere.behind _).followed _).followed _).followed _).followed _

/-- A query over named columns is refused exactly for the first thing in it that cannot be taken, be it an operator of a
join, something in a filter at any depth or an operator of a condition on groups, and is compiled if there is none. Its
statement then holds its lists of values in their order, none longer than the limit and each with all of its values. -/
theorem select_refusal {c : Compiler} {q : Query} (N : c.Named q) :
    (∀ f, c.select q = .error f ↔ ∃ before demand after, q.demands = before ++ demand :: after ∧
      (∀ earlier ∈ before, ∀ f, ¬earlier.Refused c f) ∧ demand.Refused c f) ∧
    ((∃ s, c.select q = .ok s) ↔ ∀ demand ∈ q.demands, ∀ f, ¬demand.Refused c f) ∧
    ∀ s, c.select q = .ok s → InTurn c.dialect (Demand.lists c.dialect q.demands) s.fragment ∧
      ∀ column values negated, .list column values negated ∈ q.demands → (values.length : Int) ≤ c.maxInValues := by
  have hgood : (∃ s, c.select q = .ok s) ↔ ∀ demand ∈ q.demands, ∀ f, ¬demand.Refused c f := by
    rw [← failure?_eq_none, Compiler.failure?_select N, List.findSome?_eq_none_iff]
    exact forall₂_congr fun demand _ => Demand.refusal?_eq_none
  refine ⟨fun f => ?_, hgood, fun s h => ⟨inTurn_select h, fun column values negated hmem => ?_⟩⟩
  · rw [← failure?_eq_some, Compiler.failure?_select N, List.findSome?_eq_some_iff]
    refine exists_congr fun before => exists_congr fun demand => exists_congr fun after => and_congr_right fun _ => ?_
    rw [and_comm, Demand.refusal?_eq_some]
    exact and_congr_left fun _ => forall₂_congr fun earlier _ => Demand.refusal?_eq_none
  · by_contra hlong
    exact hgood.1 ⟨s, h⟩ _ hmem _ (.list (Int.not_le.1 hlong))

/-- Of a malformed path deep in the filters and a wrong operator behind it the path is refused; without the two, the lists
beside the path are in the statement. -/
theorem select_refusal_nested :
    let c : Compiler := { dialect := .sqlite, scope := [(.text "tenant", .int 7)], maxInValues := 2 }
    let q (path operator : String) : Query :=
      { table := "t"
        filters := [.group { filters := [.isIn "a" [.int 1, .int 2] true .and,
          .group { filters := [.json path "like" (.text "x") .and, .isIn "b" [] false .or] } .or] } .and]
        having := [⟨"COUNT(1)", operator, .int 1⟩] }
    c.select (q "data.a b" "~") = .error (.invalid (.pathSegment "a b")) ∧
      ∃ s, c.select (q "data.a" ">") = .ok s ∧
        InTurn .sqlite [("\"a\" NOT IN (?, ?)", [.int 1, .int 2]), ("1 = 0", [])] s.fragment := by
  intro c q
  have N : ∀ path operator, c.Named (q path operator) := fun path operator =>
    { columns := fun column hcolumn => ⟨"*", List.mem_singleton.1 hcolumn⟩
      groupBy := fun column hcolumn => absurd hcolumn List.not_mem_nil
      scope := fun entry hentry => ⟨"tenant", by rw [List.mem_singleton.1 hentry]⟩ }
  have hgood : ∀ demand : Demand, (demand.refusal? c).isNone = true → ∀ f, ¬demand.Refused c f := fun demand hnone =>
    Demand.refusal?_eq_none.1 (Option.isNone_iff_eq_none.1 hnone)
  obtain ⟨hrefused, -, -⟩ := select_refusal (N "data.a b" "~")
  obtain ⟨-, hcompiled, hstatement⟩ := select_refusal (N "data.a" ">")
  have hword : ¬Demand.IsSegment "a b" := fun h => absurd (Demand.isSegment_iff.2 h) (by decide +kernel)
  have hpath : (Text.splitDots "data.a b").tail = [] ++ "a b" :: [] := by decide +kernel
  have hall : ∀ demand ∈ (q "data.a" ">").demands, (demand.refusal? c).isNone = true := by decide +kernel
  obtain ⟨s, hs⟩ := hcompiled.2 fun demand hmem => hgood demand (hall demand hmem)
  refine ⟨(hrefused _).2 ⟨[.list "a" [.int 1, .int 2] true], .path "like" "data.a b", _, rfl, ?_, ?_⟩, s, hs, ?_⟩
  · exact List.forall_mem_singleton.2 (hgood _ rfl)
  · exact .segment (by decide +kernel) (by decide) hpath (fun _ h => absurd h List.not_mem_nil) hword
  · have htext : listText .sqlite "a" 2 true = "\"a\" NOT IN (?, ?)" := by decide +kernel
    rw [← htext]
    exact (hstatement s hs).1

/-- A segment of a path may end with a line feed, which then stands in the statement. -/
theorem select_line_feed :
    let c : Compiler := { dialect := .sqlite }
    let q : Query := { table := "t", filters := [.json "data.a\n" "=" (.int 1) .and] }
    (c.select q).toOption.map Statement.sql = some "SELECT * FROM \"t\" WHERE json_extract(\"data\", '$.a\n') = ?" ∧
      (Text.splitDots "data.a\n").tail = ["a\n"] ∧ "a\n".toList.all JsonPath.isPathChar = false := by
  decide +kernel

end Polyquery
