import Polyquery.Proofs.PrintedNames

/-! Table prefixes. The tables of a query and the columns that a compiler adds get the prefix of the handle, and the
references of the caller are written as they are given. Main statement: a query compiles under a prefix as the query with
prefixed tables and the same references does without one, so the qualifiers of the caller are found among its tables only
if they have the prefix already. -/

namespace Polyquery

open Sql Fragment

/-! ### What a query refers to -/

/-- The reference of what is given as an entry of a projection. -/
def Value.entryReferences : Value → List String
  | .text entry => (Projected.ofText entry).references
  | _ => []

mutual

/-- The references of a filter; those that are written, so none for an empty list of values. -/
def Filter.references : Filter → List String
  | .basic column _ _ _ | .isNull column _ _ | .between column _ _ _ _ => [column]
  | .isIn column values _ _ => if values.isEmpty then [] else [column]
  | .json path _ _ _ => [(Text.splitDots path).headD ""]
  | .group query _ => query.filterReferences
  | .other _ => []

/-- The references of the filters of a query. -/
def QueryOf.filterReferences : QueryOf Filter → List String
  | ⟨_, _, filters, _, _, _, _, _, _, _, _⟩ => Filter.allReferences filters

/-- The references of filters. -/
def Filter.allReferences : List Filter → List String
  | [] => []
  | filter :: rest => filter.references ++ Filter.allReferences rest

end

namespace QueryOf

/-- The tables of a query. -/
def tables (q : Query) : List String := q.table :: q.joins.map (·.table)

/-- The references before the condition. -/
def frontReferences (q : Query) : List String :=
  q.columns.flatMap Value.entryReferences ++ q.joins.flatMap fun join => [join.left, join.right]

/-- The references from the condition on. -/
def backReferences (q : Query) : List String :=
  Filter.allReferences q.filters ++ q.groupBy.flatMap (fun ref => ref.name.toOption.toList) ++ q.orderBy.map (·.column)

/-- The references of a query. -/
def references (q : Query) : List String := q.frontReferences ++ q.backReferences

/-- Whether every qualified reference of a query is a column of one of its tables. -/
def IsOwn (q : Query) : Prop :=
  ∀ ref ∈ q.references, '.' ∈ ref.toList →
    ∃ t ∈ q.tables, ∃ column : String, '.' ∉ column.toList ∧ ref = t ++ "." ++ column

/-- A query whose tables have other names. -/
def retabled (name : String → String) (q : Query) : Query :=
  { q with table := name q.table, joins := q.joins.map fun join => { join with table := name join.table } }

end QueryOf

/-! ### What is added to it -/

/-- A column of an added condition as a reference. -/
def addedReference (qualifier column : String) : String :=
  if qualifier ≠ "" && !column.toList.contains '.' then qualifier ++ "." ++ column else column

/-- A column of the scope as a reference. -/
def scopeReference? (qualifier : String) : Value → Option String
  | .text name => some (addedReference qualifier name)
  | column => if qualifier = "" then column.name.toOption else some (qualifier ++ "." ++ column.plain)

/-- The references of the test for the rows that a query may see. -/
def SoftDelete.references (s : SoftDelete) (visibility : Visibility) (qualifier : String) : List String :=
  match visibility, s.mode with
  | .withTrashed, _ => []
  | .live, .boolean => [addedReference qualifier s.column, addedReference qualifier s.column]
  | _, _ => [addedReference qualifier s.column]

namespace Compiler

/-- The table that columns of added conditions are qualified with. -/
def qualifier (c : Compiler) (q : Query) : String := if q.joins.isEmpty then "" else c.table q.table

/-- The references of the conditions that are added to a query. -/
def addedReferences (c : Compiler) (q : Query) : List String :=
  c.scope.flatMap (fun entry => (scopeReference? (c.qualifier q) entry.1).toList) ++
    c.softDelete.toList.flatMap fun s => s.references q.visibility (c.qualifier q)

/-- The references of a compiled query, in the order in which they are written. -/
def written (c : Compiler) (q : Query) : List String := q.frontReferences ++ c.addedReferences q ++ q.backReferences

/-- Whether the columns of added conditions are texts without a qualifier. -/
structure AddsPlain (c : Compiler) : Prop where
  scope : ∀ entry ∈ c.scope, ∃ name : String, entry.1 = .text name ∧ '.' ∉ name.toList
  marker : ∀ s ∈ c.softDelete, '.' ∉ s.column.toList

/-- The same compiler without a prefix. -/
def bare (c : Compiler) : Compiler := { c with tablePrefix := "" }

/-- A reference whose qualifier is renamed as tables are. -/
def prefixed (c : Compiler) (ref : String) : String := if ref.toList.contains '.' then c.table ref else ref

end Compiler

/-! ### Renamed references -/

/-- An entry of a projection with its reference renamed. -/
def Sql.Projected.renamed (r : String → String) (entry : String) : String :=
  match ofText entry with
  | column ref => r ref
  | aliased ref _ =>
    String.ofList (entry.toList.takeWhile Text.isBlank) ++ r ref ++
      String.ofList ((entry.toList.dropWhile Text.isBlank).dropWhile isReferenceChar)
  | _ => entry

/-- A text renamed; what is no text names nothing. -/
def Value.renamed (r : String → String) : Value → Value
  | .text s => .text (r s)
  | v => v

mutual

/-- A filter with its references renamed. -/
def Filter.renamed (r : String → String) : Filter → Filter
  | .basic column operator value connective => .basic (r column) operator value connective
  | .isIn column values negated connective =>
    .isIn (if values.isEmpty then column else r column) values negated connective
  | .isNull column negated connective => .isNull (r column) negated connective
  | .between column low high negated connective => .between (r column) low high negated connective
  | .json path operator value connective => .json path operator value connective
  | .group query connective => .group (query.filtersRenamed r) connective
  | .other value => .other value

/-- A query with the references of its filters renamed. -/
def QueryOf.filtersRenamed (r : String → String) : QueryOf Filter → QueryOf Filter
  | ⟨table, columns, filters, joins, groupBy, having, orderBy, limit, offset, timeout, visibility⟩ =>
    ⟨table, columns, Filter.allRenamed r filters, joins, groupBy, having, orderBy, limit, offset, timeout, visibility⟩

/-- Filters with their references renamed. -/
def Filter.allRenamed (r : String → String) : List Filter → List Filter
  | [] => []
  | filter :: rest => filter.renamed r :: Filter.allRenamed r rest

end

/-- A query whose tables have other names, and its references too. -/
def QueryOf.renamed (name r : String → String) (q : Query) : Query :=
  { q with
    table := name q.table
    columns := q.columns.map (Value.renamed (Projected.renamed r))
    filters := Filter.allRenamed r q.filters
    joins := q.joins.map fun join => { join with table := name join.table, left := r join.left, right := r join.right }
    groupBy := q.groupBy.map (Value.renamed r)
    orderBy := q.orderBy.map fun term => { term with column := r term.column } }

section

variable {r : String → String}

theorem Sql.Projected.takeWhile_of_alias? {entry ref label : List Char} (h : alias? entry = some (ref, label)) :
    (entry.dropWhile Text.isBlank).takeWhile isReferenceChar = ref := by
  rw [alias?] at h
  split at h
  · dsimp only at h
    split at h
    · cases h
      rfl
    · cases h
  · cases h

theorem Sql.Projected.eq_of_ofText_column {entry ref : String} (h : ofText entry = .column ref) : ref = entry := by
  rw [ofText] at h
  split at h
  · cases h
  · split at h
    · cases h
    · cases h
      rfl

theorem Sql.Projected.eq_of_ofText_aliased {entry ref label : String} (h : ofText entry = .aliased ref label) :
    ref = String.ofList ((entry.toList.dropWhile Text.isBlank).takeWhile isReferenceChar) := by
  rw [ofText] at h
  split at h
  · cases h
  · split at h
    case h_1 halias =>
      cases h
      rw [takeWhile_of_alias? halias]
    case h_2 => cases h

theorem Sql.Projected.renamed_eq_self {entry : String} (h : ∀ ref ∈ (ofText entry).references, r ref = ref) :
    renamed r entry = entry := by
  rw [renamed]
  split
  case h_1 ref hentry =>
    rw [hentry] at h
    rw [h ref List.mem_cons_self, eq_of_ofText_column hentry]
  case h_2 ref label hentry =>
    rw [hentry] at h
    rw [h ref List.mem_cons_self, eq_of_ofText_aliased hentry, ← String.ofList_append, ← String.ofList_append,
      List.append_assoc, List.takeWhile_append_dropWhile, List.takeWhile_append_dropWhile, String.ofList_toList]
  case h_3 => rfl

mutual

theorem Filter.renamed_eq_self : (filter : Filter) → (∀ ref ∈ filter.references, r ref = ref) →
    filter.renamed r = filter
  | .basic column operator value connective, h => by
      rw [Filter.renamed, h column List.mem_cons_self]
  | .isIn column values negated connective, h => by
      rw [Filter.renamed]
      split
      case isTrue => rfl
      case isFalse hvalues => rw [h column (by rw [Filter.references, if_neg hvalues]; exact List.mem_cons_self)]
  | .isNull column negated connective, h => by
      rw [Filter.renamed, h column List.mem_cons_self]
  | .between column low high negated connective, h => by
      rw [Filter.renamed, h column List.mem_cons_self]
  | .json path operator value connective, _ => rfl
  | .group query connective, h => by
      rw [Filter.renamed, QueryOf.filtersRenamed_eq_self query h]
  | .other value, _ => rfl

theorem QueryOf.filtersRenamed_eq_self : (query : Query) → (∀ ref ∈ query.filterReferences, r ref = ref) →
    query.filtersRenamed r = query
  | ⟨_, _, filters, _, _, _, _, _, _, _, _⟩, h => by
      rw [QueryOf.filtersRenamed, Filter.allRenamed_eq_self filters h]

theorem Filter.allRenamed_eq_self : (filters : List Filter) → (∀ ref ∈ Filter.allReferences filters, r ref = ref) →
    Filter.allRenamed r filters = filters
  | [], _ => rfl
  | filter :: rest, h => by
      obtain ⟨hfilter, hrest⟩ := List.forall_mem_append.1 h
      rw [Filter.allRenamed, Filter.renamed_eq_self filter hfilter, Filter.allRenamed_eq_self rest hrest]

end

/-- Where every reference keeps its name, only the tables are renamed. -/
theorem QueryOf.renamed_eq_retabled (name : String → String) {q : Query} (h : ∀ ref ∈ q.references, r ref = ref) :
    q.renamed name r = q.retabled name := by
  obtain ⟨hfront, hback⟩ := List.forall_mem_append.1 h
  obtain ⟨hcolumns, hjoins⟩ := List.forall_mem_append.1 hfront
  obtain ⟨hrest, horders⟩ := List.forall_mem_append.1 hback
  obtain ⟨hfilters, hgroups⟩ := List.forall_mem_append.1 hrest
  have hentries : q.columns.map (Value.renamed (Projected.renamed r)) = q.columns := by
    refine (List.map_congr_left fun v hv => ?_).trans (List.map_id _)
    cases v with
    | text entry =>
        have hentry : ∀ ref ∈ (Projected.ofText entry).references, r ref = ref := fun ref href =>
          hcolumns ref (List.mem_flatMap.2 ⟨_, hv, href⟩)
        exact congrArg Value.text (Projected.renamed_eq_self hentry)
    | _ => rfl
  have hsides : (q.joins.map fun join =>
      { join with table := name join.table, left := r join.left, right := r join.right }) =
        q.joins.map fun join => { join with table := name join.table } := by
    refine List.map_congr_left fun join hjoin => ?_
    rw [hjoins join.left (List.mem_flatMap.2 ⟨join, hjoin, List.mem_cons_self⟩),
      hjoins join.right (List.mem_flatMap.2 ⟨join, hjoin, List.mem_cons_of_mem _ List.mem_cons_self⟩)]
  have hnames : q.groupBy.map (Value.renamed r) = q.groupBy := by
    refine (List.map_congr_left fun v hv => ?_).trans (List.map_id _)
    cases v with
    | text ref => exact congrArg Value.text (hgroups ref (List.mem_flatMap.2 ⟨_, hv, List.mem_singleton.2 rfl⟩))
    | _ => rfl
  have hterms : (q.orderBy.map fun term => { term with column := r term.column }) = q.orderBy := by
    refine (List.map_congr_left fun term hterm => ?_).trans (List.map_id _)
    rw [horders term.column (List.mem_map.2 ⟨term, hterm, rfl⟩)]
    rfl
  rw [QueryOf.renamed, hentries, Filter.allRenamed_eq_self q.filters hfilters, hsides, hnames, hterms]
  rfl

end

/-! ### Without a prefix -/

namespace Compiler

variable (c : Compiler)

mutual

theorem condition?_bare : (filter : Filter) → c.bare.condition? filter = c.condition? filter
  | .basic _ _ _ _ => by rw [condition?, condition?]
  | .isIn _ _ _ _ => by
      rw [condition?, condition?]
      rfl
  | .isNull _ _ _ => by rw [condition?, condition?]
  | .between _ _ _ _ _ => by rw [condition?, condition?]
  | .json _ _ _ _ => by
      rw [condition?, condition?]
      rfl
  | .group query _ => by rw [condition?, condition?, groupChain_bare query]
  | .other _ => by rw [condition?, condition?]

theorem groupChain_bare : (query : QueryOf Filter) → c.bare.groupChain query = c.groupChain query
  | ⟨_, _, filters, _, _, _, _, _, _, _, _⟩ => by rw [groupChain, groupChain, filterChain_bare filters]

theorem filterChain_bare : (filters : List Filter) → c.bare.filterChain filters = c.filterChain filters
  | [] => by rw [filterChain, filterChain]
  | filter :: rest => by rw [filterChain, filterChain, condition?_bare filter, filterChain_bare rest]

end

theorem table_bare (name : String) : c.bare.table name = name := String.empty_append

theorem whereChain_bare (filters : List Filter) (visibility : Visibility) (scope : Row) (qualifier : String) :
    c.bare.whereChain filters visibility scope qualifier = c.whereChain filters visibility scope qualifier := by
  rw [whereChain, whereChain, filterChain_bare]
  rfl

/-- A prefix is a name for every table, and no more. -/
theorem select_retabled (q : Query) : c.bare.select (q.retabled c.table) = c.select q := by
  have hjoins : (q.retabled c.table).joins.mapM c.bare.joined = q.joins.mapM c.joined := by
    rw [QueryOf.retabled, List.mapM_map]
    refine congrArg (fun step => q.joins.mapM step) (funext fun join => ?_)
    rw [Function.comp_apply, joined, joined, table_bare]
  have hempty : (q.retabled c.table).joins.isEmpty = q.joins.isEmpty := List.isEmpty_map
  simp only [select, selection, hjoins, hempty, whereChain_bare, table_bare]
  rfl

end Compiler

/-! ### The names of a compiled query -/

section

variable {c : Compiler}

theorem prints_jsonExtract {d : Dialect} {column f : Fragment} {path : Except Failure (List String)} {names : List Named}
    (hcolumn : column.Prints names) (h : jsonExtract d column path = .ok f) : f.Prints names := by
  cases d with
  | ansi => cases h
  | postgres =>
      obtain ⟨segments, -, hf⟩ := bind_eq_ok.1 h
      cases pure_eq_ok.1 hf
      exact hcolumn.append_silence (List.forall_mem_cons.2 ⟨by decide, List.forall_mem_singleton.2 rfl⟩)
  | sqlite | mysql | sqlserver =>
      obtain ⟨segments, -, hf⟩ := bind_eq_ok.1 h
      cases pure_eq_ok.1 hf
      have hclosing : ∀ s : String, (Piece.words s).isSilent →
          ∀ p ∈ [Piece.words ", ", .literal (JsonPath.dollar segments), .words s], p.isSilent := fun s hs =>
        List.forall_mem_cons.2 ⟨by decide, List.forall_mem_cons.2 ⟨rfl, List.forall_mem_singleton.2 hs⟩⟩
      exact (hcolumn.append_silence (hclosing _ (by decide))).silent_cons (by decide)

theorem filterReferences_eq (query : QueryOf Filter) : query.filterReferences = Filter.allReferences query.filters := by
  cases query
  rw [QueryOf.filterReferences]

/-- The condition of a filter is written with the references of the filter. -/
theorem prints_lowering (c : Compiler) : Lowering c
    (fun filter condition? => condition?.elim (filter.references = [])
      fun condition => condition.fragment.Prints (filter.references.map Named.column))
    (fun filters chain => Chain.Prints chain ((Filter.allReferences filters).map Named.column)) where
  basic _ := Condition.prints_ofComparison (prints_reference _) _ _
  isIn {column values negated connective} _ hvalues := by
    rw [Option.elim_some, Filter.references, hvalues]
    exact Condition.prints_isIn (prints_reference column) values negated
  isInNothing {column negated connective} _ := Condition.prints_constant negated
  isNull := Condition.prints_isNull (prints_reference _) _
  between := Condition.prints_between (prints_reference _) _ _ _
  json _ hsubject := Condition.prints_ofComparison (prints_jsonExtract (prints_reference _) hsubject) _ _
  group {query connective chain} h := by
    rw [Filter.references, filterReferences_eq]
    split
    case isTrue hempty =>
      rw [List.isEmpty_iff.1 hempty] at h
      generalize hnames : (Filter.allReferences query.filters).map Named.column = names at h
      cases h
      exact List.map_eq_nil_iff.1 hnames
    case isFalse => exact h.group
  nil := .nil
  leftOut {filter rest chain} hfilter hrest := by
    rw [Option.elim_none] at hfilter
    rw [Filter.allReferences, hfilter]
    exact hrest
  cons {filter rest condition chain} hfilter hrest := by
    rw [Filter.allReferences, List.map_append]
    exact .cons hfilter hrest

theorem addedColumn_eq (qualifier column : String) :
    Compiler.addedColumn qualifier column = reference (addedReference qualifier column) := by
  rw [Compiler.addedColumn, addedReference]
  split <;> rfl

theorem scopeColumn_eq {qualifier : String} {column : Value} {subject : Fragment}
    (h : Compiler.scopeColumn qualifier column = .ok subject) :
    ∃ ref, scopeReference? qualifier column = some ref ∧ subject = reference ref := by
  rw [Compiler.scopeColumn.eq_def] at h
  split at h
  case h_1 name =>
    cases h
    exact ⟨_, rfl, addedColumn_eq qualifier name⟩
  case h_2 members =>
    split at h
    · cases h
    · rename_i hqualifier
      cases h
      have hne : ¬qualifier = "" := fun hnil => hqualifier (by rw [hnil]; rfl)
      exact ⟨_, if_neg hne, rfl⟩
  case h_3 htext _ =>
    split at h
    · rename_i hnil
      obtain ⟨name, hname, rfl⟩ := map_eq_ok.1 h
      refine ⟨name, ?_, rfl⟩
      rw [scopeReference?]
      · rw [if_pos hnil, hname]
        rfl
      · exact htext
    · cases h

theorem prints_visibility {s : SoftDelete} {visibility : Visibility} {qualifier : String} :
    Chain.Prints (Chain.all (Compiler.visibilityCondition? s visibility qualifier).toList)
      ((s.references visibility qualifier).map Named.column) := by
  have hcolumn : (Compiler.addedColumn qualifier s.column).Prints [.column (addedReference qualifier s.column)] := by
    rw [addedColumn_eq]
    exact prints_reference _
  rw [Compiler.visibilityCondition?.eq_def, SoftDelete.references.eq_def]
  cases visibility <;> cases s.mode
  case live.timestamp => exact .singleton (Condition.prints_isNull hcolumn false)
  case live.boolean =>
    have hdifferent := Condition.prints_compare hcolumn .different s.deletedValue
    refine .singleton (Chain.Prints.group ?_)
    exact .cons (Condition.prints_isNull hcolumn false) (.singleton hdifferent)
  case onlyTrashed.timestamp => exact .singleton (Condition.prints_isNull hcolumn true)
  case onlyTrashed.boolean => exact .singleton (Condition.prints_compare hcolumn .equal s.deletedValue)
  case withTrashed.timestamp => exact .nil
  case withTrashed.boolean => exact .nil

theorem prints_scope {scope : Row} {qualifier : String} {equalities : List Condition}
    (h : scope.mapM (Compiler.scopeCondition qualifier) = .ok equalities) : Chain.Prints (Chain.all equalities)
      ((scope.flatMap fun entry => (scopeReference? qualifier entry.1).toList).map Named.column) := by
  rw [List.map_flatMap]
  refine Chain.Prints.all ((mapM_eq_ok.1 h).imp fun entry condition hcondition => ?_)
  obtain ⟨subject, hsubject, rfl⟩ := map_eq_ok.1 hcondition
  obtain ⟨ref, href, rfl⟩ := scopeColumn_eq hsubject
  rw [href]
  exact Condition.prints_ofComparison (prints_reference ref) _ _

/-- The condition of a selection is written with the added references, and then with those of the filters. -/
theorem prints_whereChain {q : Query} {chain : Chain}
    (h : c.whereChain q.filters q.visibility c.scope (c.qualifier q) = .ok chain) :
    Chain.Prints chain ((c.addedReferences q ++ Filter.allReferences q.filters).map Named.column) := by
  obtain ⟨added, own, hadded, hown, rfl⟩ := whereChain_parts h
  obtain ⟨equalities, hequalities, rfl⟩ := Compiler.addedConditions_parts hadded
  rw [List.map_append]
  refine Chain.Prints.joinChains ?_ ((prints_lowering c).filterChain q.filters own hown)
  rw [Chain.all, List.map_append, Compiler.addedReferences, List.map_append]
  refine (prints_scope hequalities).append ?_
  cases c.softDelete with
  | none => exact .nil
  | some s =>
      rw [Option.toList_some, List.flatMap_singleton]
      exact prints_visibility

/-- What the results of steps give, if each gives what its input does. -/
theorem flatMap_eq_of_mapM {α β γ : Type} {f : α → Except Failure β} {u : α → List γ} {v : β → List γ}
    (hstep : ∀ a b, f a = .ok b → v b = u a) {as : List α} {bs : List β} (h : as.mapM f = .ok bs) :
    bs.flatMap v = as.flatMap u := by
  have hall := mapM_eq_ok.1 h
  clear h
  induction hall with
  | nil => rfl
  | cons hfirst _ ih => rw [List.flatMap_cons, List.flatMap_cons, hstep _ _ hfirst, ih]

theorem projection_references {columns : List Value} {projection : List Projected}
    (h : Compiler.projection columns = .ok projection) :
    projection.flatMap Projected.references = columns.flatMap Value.entryReferences := by
  rw [Compiler.projection] at h
  split at h
  case isTrue hempty =>
    cases pure_eq_ok.1 h
    rw [List.isEmpty_iff.1 hempty]
    rfl
  case isFalse =>
    refine flatMap_eq_of_mapM (fun v p hp => ?_) h
    cases v with
    | text entry =>
        cases hp
        rfl
    | _ => cases hp

/-- A compiled query names its tables with their prefix, and writes its references as they are given. -/
theorem names_of_selects {q : Query} {s : Selection} (h : c.Selects q s) :
    (s.fragment c.dialect).tables = q.tables.map (fun t => Text.splitDots (c.table t)) ∧
      (s.fragment c.dialect).qualifiers = (c.written q).filterMap fun ref => (Named.column ref).qualifier? := by
  have hcondition := prints_whereChain h.condition
  have hjoin : ∀ join joined, c.joined join = .ok joined →
      joined.table = c.table join.table ∧ joined.left = join.left ∧ joined.right = join.right := by
    intro join joined hjoined
    obtain ⟨op, -, hjoined⟩ := bind_eq_ok.1 hjoined
    cases pure_eq_ok.1 hjoined
    exact ⟨rfl, rfl, rfl⟩
  have htables : s.joins.map Joined.table = q.joins.map fun join => c.table join.table := by
    rw [List.map_eq_flatMap, List.map_eq_flatMap]
    exact flatMap_eq_of_mapM (fun join joined hjoined => by rw [(hjoin join joined hjoined).1]) h.joins
  have hsides : (s.joins.flatMap fun j => [j.left, j.right]) = q.joins.flatMap fun join => [join.left, join.right] :=
    flatMap_eq_of_mapM (fun join joined hjoined => by
      rw [(hjoin join joined hjoined).2.1, (hjoin join joined hjoined).2.2]) h.joins
  have hgroups : s.groupBy = q.groupBy.flatMap fun ref => ref.name.toOption.toList := by
    rw [← flatMap_eq_of_mapM (fun v name hname => ?_) h.groupBy, List.flatMap_singleton']
    rw [hname]
    rfl
  have horders : s.orderBy.map Prod.fst = q.orderBy.map (·.column) := by
    rw [h.orderBy, List.map_map]
    rfl
  constructor
  · rw [Selection.tables_fragment c.dialect hcondition, htables, h.table, QueryOf.tables]
    simp only [List.map_cons, List.map_map]
    rfl
  · rw [Selection.qualifiers_fragment c.dialect hcondition, projection_references h.projection, hsides, hgroups, horders,
      Compiler.written, QueryOf.frontReferences, QueryOf.backReferences]
    simp only [List.append_assoc]

end

/-! ### Qualifiers -/

theorem qualifier?_unqualified {ref : String} (h : '.' ∉ ref.toList) : (Named.column ref).qualifier? = none := by
  rw [Named.column, Text.splitDots_undotted h]
  rfl

theorem qualifier?_qualified (t : String) {column : String} (h : '.' ∉ column.toList) :
    (Named.column (t ++ "." ++ column)).qualifier? = some (Text.splitDots t) := by
  have hne : (Text.splitDots t).isEmpty = false := by simpa using Text.splitDots_ne_nil t
  rw [Named.column, Text.splitDots_behind t h, Named.qualifier?, List.dropLast_concat, hne]
  rfl

variable {c : Compiler}

/-- A column that is added without a qualifier gets the one of the query's own table, with its prefix. -/
theorem qualifier?_added {q : Query} {column : String} (h : '.' ∉ column.toList) {x : List String}
    (hx : (Named.column (addedReference (c.qualifier q) column)).qualifier? = some x) :
    x = Text.splitDots (c.table q.table) := by
  rw [addedReference] at hx
  split at hx
  case isTrue hqualified =>
    rw [Bool.and_eq_true, decide_eq_true_eq] at hqualified
    have hown : c.qualifier q = c.table q.table := if_neg fun hempty => hqualified.1 (if_pos hempty)
    rw [qualifier?_qualified _ h, hown] at hx
    exact (Option.some.inj hx).symm
  case isFalse =>
    rw [qualifier?_unqualified h] at hx
    cases hx

theorem Compiler.AddsPlain.qualifier_eq (h : c.AddsPlain) {q : Query} {ref : String} (href : ref ∈ c.addedReferences q)
    {x : List String} (hx : (Named.column ref).qualifier? = some x) : x = Text.splitDots (c.table q.table) := by
  rcases List.mem_append.1 href with href | href
  · obtain ⟨entry, hentry, href⟩ := List.mem_flatMap.1 href
    obtain ⟨name, hname, hplain⟩ := h.scope entry hentry
    rw [hname] at href
    rw [List.mem_singleton.1 href] at hx
    exact qualifier?_added hplain hx
  · obtain ⟨s, hs, href⟩ := List.mem_flatMap.1 href
    have hplain := h.marker s (Option.mem_toList.1 hs)
    have hmarker : ref = addedReference (c.qualifier q) s.column := by
      rw [SoftDelete.references.eq_def] at href
      split at href
      · cases href
      · simpa using href
      · exact List.mem_singleton.1 href
    rw [hmarker] at hx
    exact qualifier?_added hplain hx

/-- Where the references of a query are columns of its tables, a qualifier is found among the prefixed tables only if it is
the prefixed name of one. -/
theorem resolved_iff {q : Query} {f : Fragment} (htables : f.tables = q.tables.map fun t => Text.splitDots (c.table t))
    (hqualifiers : f.qualifiers = (c.written q).filterMap fun ref => (Named.column ref).qualifier?)
    (hown : q.IsOwn) (hplain : c.AddsPlain) : f.IsResolved ↔
      ∀ t ∈ q.tables, ∀ column : String, '.' ∉ column.toList → t ++ "." ++ column ∈ q.references →
        ∃ other ∈ q.tables, t = c.table other := by
  have hwritten : ∀ ref, ref ∈ c.written q ↔ ref ∈ c.addedReferences q ∨ ref ∈ q.references := by
    intro ref
    simp only [Compiler.written, QueryOf.references, List.mem_append]
    tauto
  have hnamed : ∀ t, Text.splitDots t ∈ f.tables ↔ ∃ other ∈ q.tables, t = c.table other := by
    intro t
    rw [htables, List.mem_map]
    exact exists_congr fun other => and_congr_right fun _ => Text.splitDots_injective.eq_iff.trans eq_comm
  rw [IsResolved, hqualifiers]
  constructor
  · intro h t _ column hcolumn href
    rw [← hnamed]
    exact h (List.mem_filterMap.2 ⟨_, (hwritten _).2 (.inr href), qualifier?_qualified t hcolumn⟩)
  · intro h x hx
    obtain ⟨ref, href, hx⟩ := List.mem_filterMap.1 hx
    rcases (hwritten ref).1 href with hadded | href
    · rw [hplain.qualifier_eq hadded hx, hnamed]
      exact ⟨q.table, List.mem_cons_self, rfl⟩
    · by_cases hdot : '.' ∈ ref.toList
      · obtain ⟨t, ht, column, hcolumn, rfl⟩ := hown ref href hdot
        rw [qualifier?_qualified t hcolumn] at hx
        rw [← Option.some.inj hx, hnamed]
        exact h t ht column hcolumn href
      · rw [qualifier?_unqualified hdot] at hx
        cases hx

theorem Compiler.prefixed_eq_self {q : Query} (h : c.tablePrefix = "" ∨ ∀ ref ∈ q.references, '.' ∉ ref.toList) :
    ∀ ref ∈ q.references, c.prefixed ref = ref := by
  intro ref href
  rw [Compiler.prefixed]
  split
  case isTrue hdot =>
    rcases h with hnone | hplain
    · rw [Compiler.table, hnone, String.empty_append]
    · exact absurd (List.contains_iff_mem.1 hdot) (hplain ref href)
  case isFalse => rfl

/-- Under a prefix a query compiles as the query with prefixed tables does without one, to the same statement or with the
same failure. The statement names the tables with their prefix; its qualifiers are those of the references as the caller
gives them, and of the added columns. Where the references are columns of the query's tables, the qualifiers are tables of
the statement exactly if each is the prefixed name of such a table already. Without a prefix, or without qualifiers, the
query compiles as the one does whose references are renamed with its tables. -/
theorem Compiler.select_prefixed (c : Compiler) (q : Query) :
    c.select q = c.bare.select (q.retabled c.table) ∧
      (∀ s, c.select q = .ok s →
        s.fragment.tables = q.tables.map (fun t => Text.splitDots (c.table t)) ∧
        s.fragment.qualifiers = ((c.written q).filterMap fun ref => (Named.column ref).qualifier?) ∧
        (q.IsOwn → c.AddsPlain → (s.fragment.IsResolved ↔
          ∀ t ∈ q.tables, ∀ column : String, '.' ∉ column.toList → t ++ "." ++ column ∈ q.references →
            ∃ other ∈ q.tables, t = c.table other))) ∧
      (c.tablePrefix = "" ∨ (∀ ref ∈ q.references, '.' ∉ ref.toList) →
        c.select q = c.bare.select (q.renamed c.table c.prefixed)) := by
  refine ⟨(c.select_retabled q).symm, fun s hs => ?_, fun h => ?_⟩
  · obtain ⟨selection, hselection, hs⟩ := bind_eq_ok.1 hs
    cases pure_eq_ok.1 hs
    obtain ⟨htables, hqualifiers⟩ := names_of_selects (selects_of_selection hselection)
    exact ⟨htables, hqualifiers, resolved_iff htables hqualifiers⟩
  · rw [QueryOf.renamed_eq_retabled c.table (Compiler.prefixed_eq_self h), c.select_retabled]

/-- A compiler that prefixes tables and adds a scope. -/
def Compiler.ofTenant : Compiler := { dialect := .sqlite, scope := [(.text "tenant", .int 7)], tablePrefix := "app_" }

/-- Titles of posts by users, without a qualifier. -/
def Query.titles : Query where
  table := "users"
  columns := [.text "title"]
  joins := [{ table := "posts", left := "author", right := "user" }]
  filters := [.isNull "gone" false .and]

/-- Where no reference has a qualifier, the only one is that of the scope, and it has the prefix. -/
theorem Compiler.select_prefixed_titles :
    ∃ s, Compiler.ofTenant.select Query.titles = .ok s ∧
      s.sql = "SELECT \"title\" FROM \"app_users\" INNER JOIN \"app_posts\" ON \"author\" = \"user\" " ++
        "WHERE \"app_users\".\"tenant\" = ? AND \"gone\" IS NULL" ∧
      s.fragment.IsResolved ∧
      Compiler.ofTenant.select Query.titles =
        Compiler.ofTenant.bare.select (Query.titles.renamed Compiler.ofTenant.table Compiler.ofTenant.prefixed) := by
  obtain ⟨-, hnames, hrenamed⟩ := Compiler.select_prefixed Compiler.ofTenant Query.titles
  have hplain : ∀ ref ∈ Query.titles.references, '.' ∉ ref.toList := by decide +kernel
  have hadds : Compiler.ofTenant.AddsPlain := by
    refine ⟨fun entry hentry => ?_, nofun⟩
    rw [List.mem_singleton.1 hentry]
    exact ⟨"tenant", rfl, by decide⟩
  refine ⟨_, rfl, by decide +kernel, ?_, hrenamed (.inr hplain)⟩
  refine ((hnames _ rfl).2.2 (fun ref href hdot => absurd hdot (hplain ref href)) hadds).2 ?_
  intro t _ column _ href
  exact absurd (by simp [String.toList_append]) (hplain _ href)

/-- Names of users, each a column of the query's own table. -/
def Query.userNames : Query := { table := "users", columns := [.text "users.name"] }

/-- A compiler that prefixes tables. -/
def Compiler.ofApp : Compiler := { dialect := .sqlite, tablePrefix := "app_" }

/-- A column of the query's own table is written without the prefix that the table has, and the text is not that of the
query whose references are renamed with its tables. -/
theorem Compiler.select_unprefixed : Query.userNames.IsOwn ∧ Compiler.ofApp.AddsPlain ∧
    ∃ s renamed, Compiler.ofApp.select Query.userNames = .ok s ∧
      Compiler.ofApp.bare.select (Query.userNames.renamed Compiler.ofApp.table Compiler.ofApp.prefixed) = .ok renamed ∧
      ¬s.fragment.IsResolved ∧ s.sql = "SELECT \"users\".\"name\" FROM \"app_users\"" ∧
      renamed.sql = "SELECT \"app_users\".\"name\" FROM \"app_users\"" := by
  refine ⟨fun ref href _ => ?_, ⟨nofun, nofun⟩, _, _, rfl, rfl, ?_⟩
  case refine_2 => exact ⟨by decide +kernel, by decide +kernel, by decide +kernel⟩
  have hreferences : Query.userNames.references = ["users.name"] := by decide +kernel
  rw [hreferences] at href
  exact ⟨"users", List.mem_cons_self, "name", by decide, List.mem_singleton.1 href⟩

end Polyquery
