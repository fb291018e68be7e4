import Polyquery.Proofs.Isolation
import Polyquery.Proofs.Sites

/-! What a compiler can be asked for, and the values that it is given with each request, in the order of the statement
to come. A value's caption is what the caller associates it with: a column and an operator, the columns of its row, or
the path of its entry. Main statement: the parameters of a compiled request are these values, each behind its
caption. -/

namespace Polyquery

open Sql Fragment

/-- What a compiler can be asked for. -/
inductive Request where
  | select (query : Query)
  | insert (table : String) (rows : List Row) (returning : Value)
  | upsert (table : String) (row : Row) (conflict update : Value)
  | update (query : Query) (values : Row) (operation : Operation)
  | delete (query : Query) (force : Bool)
  | restore (query : Query)
  | jsonUpdate (query : Query) (column : Value) (values : Row)

/-- The statement for a request; a restoration may need none. -/
def Compiler.compile (c : Compiler) : Request → Except Failure (Option Statement)
  | .select q => (c.select q).map some
  | .insert table rows returning => (c.insert table rows returning).map some
  | .upsert table row conflict update => (c.upsert table row conflict update).map some
  | .update q values operation => (c.update q values operation).map some
  | .delete q force => (c.delete q force).map some
  | .restore q => c.restore q
  | .jsonUpdate q column values => (c.jsonUpdate q column values).map some

/-! ### Sites of conditions -/

/-- The site of a comparison; a test for null has none. -/
def comparisonSites (subject : Fragment) (op : Operator) (value : Value) : List Site :=
  match value, op.nullTest? with
  | .null, some _ => []
  | _, _ => [⟨subject ++ [Piece.words (" " ++ op.spelling ++ " ")], value⟩]

/-- The sites of a scope's values. -/
def scopeSites (scope : Row) (qualifier : String) : List Site :=
  scope.flatMap fun (column, value) =>
    comparisonSites ((Compiler.scopeColumn qualifier column).toOption.getD []) .equal value

/-- The site of the value that marks deleted rows. -/
def visibilitySites (softDelete : Option SoftDelete) (visibility : Visibility) (qualifier : String) : List Site :=
  match softDelete with
  | none => []
  | some s =>
    let column := Compiler.addedColumn qualifier s.column
    match visibility, s.mode with
    | .onlyTrashed, .boolean => [⟨column ++ [Piece.words " = "], s.deletedValue⟩]
    | .live, .boolean => [⟨column ++ [Piece.words " <> "], s.deletedValue⟩]
    | _, _ => []

namespace Filter

mutual

/-- The sites of a filter's values. -/
def sites (d : Dialect) : Filter → List Site
  | basic column operator value _ =>
    (Operator.ofText? operator).elim [] fun op => comparisonSites (reference column) op value
  | isIn column values negated _ =>
    listSites (reference column ++ [Piece.words (if negated then " NOT IN (" else " IN (")]) values
  | isNull _ _ _ => []
  | between column low high negated _ =>
    let caption := reference column ++ [Piece.words (if negated then " NOT BETWEEN " else " BETWEEN ")]
    [⟨caption, low⟩, ⟨caption ++ [Piece.bind low, Piece.words " AND "], high⟩]
  | json path operator value _ =>
    (Operator.ofText? operator).elim [] fun op => comparisonSites (pathSubject d path) op value
  | group query _ => groupSites d query
  | other _ => []

/-- The sites of a nested query's filters. -/
def groupSites (d : Dialect) : QueryOf Filter → List Site
  | ⟨_, _, filters, _, _, _, _, _, _, _, _⟩ => allSites d filters

/-- The sites of filters, one filter after the other. -/
def allSites (d : Dialect) : List Filter → List Site
  | [] => []
  | filter :: rest => filter.sites d ++ allSites d rest

end

theorem groupSites_eq (d : Dialect) (query : QueryOf Filter) : groupSites d query = allSites d query.filters := by
  cases query
  rw [groupSites]

end Filter

namespace Compiler

/-- The sites of a statement's condition: the scope, the visibility and the caller's filters. -/
def whereSites (c : Compiler) (filters : List Filter) (visibility : Visibility) (scope : Row) (qualifier : String) :
    List Site :=
  scopeSites scope qualifier ++ visibilitySites c.softDelete visibility qualifier ++
    Filter.allSites c.dialect filters

/-- The sites of the condition of a change. -/
def reachSites (c : Compiler) (q : Query) (visibility : Visibility) : List Site :=
  c.whereSites q.filters visibility c.scope ""

end Compiler

/-! ### Sites of requests -/

/-- The name of a column. -/
def columnName (column : Value) : String := column.name.toOption.getD ""

/-- The sites of new values under their columns. -/
def assignmentSites (values : Row) : List Site :=
  values.map fun (column, value) => ⟨[.name (columnName column), .words " = "], value⟩

/-- The sites of the cells of new rows, under the columns of the first row. -/
def cellSites (rows : List Row) : List Site :=
  let columns := (rows.headD []).columns
  rowSites (Insertion.caption (columns.map columnName)) (rows.map fun row => columns.map fun column => row.cell column)

/-- The sites of conditions on groups. -/
def groupConditionSites (clauses : List HavingTerm) : List Site :=
  clauses.flatMap fun clause => (Operator.ofText? clause.operator).elim [] fun op =>
    [⟨[.expression clause.expression, .words (" " ++ op.spelling ++ " ")], clause.value⟩]

/-- The path of an entry of a document. -/
def entryPath (path : Value) : List String :=
  (JsonPath.validate (Text.splitDots (columnName path))).toOption.getD []

/-- The sites of the entries of a document; each entry is bound as its document. -/
def entrySites (d : Dialect) (values : Row) : List Site :=
  values.map fun (path, value) => ⟨pathCaption d (entryPath path), (jsonParam d value).toOption.getD .null⟩

/-- The values of a request, in the order in which its statement is to be written. -/
def Request.sites (c : Compiler) : Request → List Site
  | select q =>
    c.whereSites q.filters q.visibility c.scope (if q.joins.isEmpty then "" else c.table q.table) ++
      groupConditionSites q.having
  | insert _ rows _ => cellSites rows
  | upsert _ row _ _ => cellSites [row]
  | update q values _ => assignmentSites values ++ c.reachSites q q.visibility
  | delete q force =>
    match c.softDelete, force with
    | some s, false => assignmentSites [(.text s.column, c.marker s)] ++ c.reachSites q q.visibility
    | none, false => c.reachSites q q.visibility
    | _, true => c.reachSites q (if q.visibility = .live then .withTrashed else q.visibility)
  | restore q =>
    match c.softDelete with
    | none => []
    | some s =>
      assignmentSites [(.text s.column, s.restoredValue)] ++
        c.reachSites q (if q.visibility = .live then .onlyTrashed else q.visibility)
  | jsonUpdate q _ values => entrySites c.dialect values ++ c.reachSites q q.visibility

variable {c : Compiler} {d : Dialect}

/-! ### Conditions -/

theorem sites_ofComparison (subject : Fragment) (op : Operator) (value : Value) :
    (Condition.ofComparison subject op value).sites = comparisonSites subject op value := by
  cases value with
  | null => cases op <;> rfl
  | _ => rfl

theorem sites_lowering (c : Compiler) : Lowering c
    (fun filter condition? => condition?.elim [] Condition.sites = filter.sites c.dialect)
    (fun filters chain => Condition.membersSites chain = Filter.allSites c.dialect filters) where
  basic hop := by rw [Filter.sites, hop, Option.elim_some, Option.elim_some, sites_ofComparison]
  isIn _ _ := rfl
  isInNothing _ := rfl
  isNull := rfl
  between := rfl
  json hop hsubject := by
    rw [Filter.sites, hop, Option.elim_some, Option.elim_some, sites_ofComparison, pathSubject, hsubject]
    rfl
  group {query connective chain} h := by
    rw [Filter.sites, Filter.groupSites_eq, ← h]
    cases chain <;> rfl
  nil := rfl
  leftOut hfilter hrest := by
    rw [Filter.allSites, ← hfilter, ← hrest]
    rfl
  cons hfilter hrest := by
    rw [Filter.allSites, ← hfilter, ← hrest]
    rfl

theorem sites_scope {scope : Row} {qualifier : String} {equalities : List Condition}
    (h : scope.mapM (Compiler.scopeCondition qualifier) = .ok equalities) :
    equalities.flatMap Condition.sites = scopeSites scope qualifier := by
  have hall := mapM_eq_ok.1 h
  clear h
  induction hall with
  | nil => rfl
  | @cons entry condition scope equalities hentry _ ih =>
      obtain ⟨column, value⟩ := entry
      obtain ⟨subject, hsubject, rfl⟩ := map_eq_ok.1 hentry
      have hfirst : (Compiler.scopeColumn qualifier column).toOption.getD [] = subject := by
        rw [hsubject]
        rfl
      rw [List.flatMap_cons, ih, sites_ofComparison, ← hfirst]
      rfl

theorem sites_visibility (softDelete : Option SoftDelete) (visibility : Visibility) (qualifier : String) :
    (softDelete.bind fun s => Compiler.visibilityCondition? s visibility qualifier).toList.flatMap Condition.sites =
      visibilitySites softDelete visibility qualifier := by
  cases softDelete with
  | none => rfl
  | some s =>
      simp only [Option.bind_some, Compiler.visibilityCondition?, visibilitySites]
      cases visibility <;> cases s.mode <;> rfl

theorem sites_joinChains (added : List Condition) (own : Chain) :
    Condition.membersSites (Compiler.joinChains added own) =
      added.flatMap Condition.sites ++ Condition.membersSites own := by
  have hall : ∀ own : Chain, Condition.membersSites (Chain.all added ++ own) =
      added.flatMap Condition.sites ++ Condition.membersSites own := by
    intro own
    rw [Condition.membersSites_eq_flatMap, Condition.membersSites_eq_flatMap, List.flatMap_append, Chain.all,
      List.flatMap_map]
  cases own with
  | nil => simpa [Compiler.joinChains] using hall []
  | cons first rest =>
      cases rest with
      | nil => exact hall [(.and, first.2)]
      | cons second rest =>
          cases added with
          | nil => rfl
          | cons condition added =>
              refine (hall [(.and, .group (first :: second :: rest))]).trans ?_
              rw [Condition.membersSites, Condition.sites, Condition.membersSites, List.append_nil]

/-- The values of a statement's condition are those of the scope, the visibility and the caller's filters. -/
theorem sites_whereChain {filters : List Filter} {visibility : Visibility} {scope : Row} {qualifier : String}
    {chain : Chain} (h : c.whereChain filters visibility scope qualifier = .ok chain) :
    Condition.membersSites chain = c.whereSites filters visibility scope qualifier := by
  obtain ⟨added, own, hadded, hown, rfl⟩ := whereChain_parts h
  obtain ⟨equalities, hequalities, hrest⟩ := bind_eq_ok.1 hadded
  cases pure_eq_ok.1 hrest
  rw [sites_joinChains, (sites_lowering c).filterChain filters own hown, List.flatMap_append, sites_scope hequalities,
    sites_visibility]
  rfl

/-! ### Statements -/

theorem names_eq {columns : List Value} {names : List String} (h : columns.mapM Value.name = .ok names) :
    names = columns.map columnName := by
  have hall := mapM_eq_ok.1 h
  clear h
  induction hall with
  | nil => rfl
  | cons hname _ ih => rw [List.map_cons, ih, columnName, hname]; rfl

theorem sites_havingClauses {clauses : List HavingTerm} {having : List Having}
    (h : Compiler.havingClauses clauses = .ok having) : havingSites having = groupConditionSites clauses := by
  have hall := mapM_eq_ok.1 h
  clear h
  induction hall with
  | nil => rfl
  | cons hclause _ ih =>
      obtain ⟨op, hop, hhaving⟩ := bind_eq_ok.1 hclause
      cases pure_eq_ok.1 hhaving
      rw [havingSites, List.map_cons, ← havingSites, ih, groupConditionSites, groupConditionSites, List.flatMap_cons,
        ofText?_of_ofValue hop]
      rfl

theorem select_shows {q : Query} {s : Statement} (h : c.select q = .ok s) :
    Shows [] s.fragment ((Request.select q).sites c) := by
  obtain ⟨selection, hselects, rfl⟩ := Compiler.select_parts h
  rw [Request.sites, ← sites_whereChain hselects.condition, ← sites_havingClauses hselects.having]
  exact Selection.shows (whereChain_readable hselects.condition)

theorem insertColumns_eq {rows : List Row} {columns : List Value} (h : Compiler.insertColumns rows = .ok columns) :
    columns = (rows.headD []).columns := by
  obtain ⟨first, rest, rfl, -, rfl⟩ := Compiler.insertColumns_parts h
  rfl

/-- Cells stand under the columns of the first row. -/
theorem insertion_shows {table : String} {rows : List Row} {returning : Value} {insertion : Insertion}
    (h : c.insertion table rows returning = .ok insertion) (conflict : Option Conflict) (d : Dialect) :
    Shows [] (({ insertion with conflict } : Insertion).fragment d) (cellSites rows) := by
  obtain ⟨columns, names, answered, hcolumns, hnames, -, rfl⟩ := Compiler.insertion_parts h
  rw [cellSites, ← insertColumns_eq hcolumns, ← names_eq hnames]
  exact Insertion.shows d _

theorem insert_shows {table : String} {rows : List Row} {returning : Value} {s : Statement}
    (h : c.insert table rows returning = .ok s) : Shows [] s.fragment (cellSites rows) := by
  obtain ⟨insertion, hinsertion, rfl⟩ := Compiler.insert_parts h
  exact insertion_shows hinsertion insertion.conflict c.dialect

theorem upsert_shows {table : String} {row : Row} {conflict update : Value} {s : Statement}
    (h : c.upsert table row conflict update = .ok s) : Shows [] s.fragment (cellSites [row]) := by
  obtain ⟨-, columns, insertion, clause, -, hinsertion, -, rfl⟩ := Compiler.upsert_parts h
  exact insertion_shows hinsertion (some clause) c.dialect

theorem assignments_show {values : Row} {assignments : List (String × Assigned)}
    (h : List.Forall₂ Compiler.Assigns values assignments) :
    List.Forall₂ (fun assignment sites => Shows [] (Change.assignment assignment) sites) assignments
      ((assignmentSites values).map fun site => [site]) := by
  induction h with
  | nil => exact .nil
  | @cons entry assignment values assignments hentry _ ih =>
      obtain ⟨column, value⟩ := entry
      obtain ⟨name, hname, rfl⟩ := hentry
      obtain rfl : columnName column = name := by rw [columnName, hname]; rfl
      exact .cons (Change.shows_value (columnName column) value) ih

/-- Every change sets values first, and then says which rows it reaches. -/
theorem update_shows {q : Query} {values : Row} {operation : Operation} {s : Statement}
    (h : c.update q values operation = .ok s) :
    Shows [] s.fragment (assignmentSites values ++ c.reachSites q q.visibility) := by
  obtain ⟨-, assignments, condition, hassignments, hcondition, rfl⟩ := Compiler.update_parts h
  have hshows := Change.shows (c := ⟨c.table q.table, assignments, condition⟩) (assignments_show hassignments)
    (whereChain_readable hcondition)
  rw [← List.flatMap_def, List.flatMap_singleton'] at hshows
  rw [Compiler.reachSites, ← sites_whereChain hcondition]
  exact hshows

theorem remove_shows {q : Query} {visibility : Visibility} {s : Statement} (h : c.remove q visibility = .ok s) :
    Shows [] s.fragment (c.reachSites q visibility) := by
  obtain ⟨condition, hcondition, rfl⟩ := Compiler.remove_parts h
  rw [Compiler.reachSites, ← sites_whereChain hcondition]
  exact Removal.shows (whereChain_readable hcondition)

theorem delete_shows {q : Query} {force : Bool} {s : Statement} (h : c.delete q force = .ok s) :
    Shows [] s.fragment ((Request.delete q force).sites c) := by
  rw [Request.sites.eq_def]
  rcases Compiler.delete_cases h with ⟨soft, hsoft, rfl, hmark⟩ | ⟨hnone, rfl, hremove⟩ | ⟨rfl, hremove⟩
  · rw [hsoft]
    exact update_shows hmark
  · rw [hnone]
    exact remove_shows hremove
  · cases hsoft : c.softDelete with
    | none => exact remove_shows hremove
    | some soft => exact remove_shows hremove

theorem restore_shows {q : Query} {s : Statement} (h : c.restore q = .ok (some s)) :
    Shows [] s.fragment ((Request.restore q).sites c) := by
  obtain ⟨soft, hsoft, hmark⟩ := Compiler.restore_parts h
  rw [Request.sites, hsoft]
  exact update_shows hmark

/-- Each entry is written behind its path, around those before it. -/
theorem documents_show {values : Row} {target f : Fragment} (h : c.Documents target values f) :
    ∀ {sites : List Site}, Shows [] target sites → Shows [] f (sites ++ entrySites c.dialect values) := by
  induction h with
  | done target =>
      intro sites htarget
      rw [entrySites, List.map_nil, List.append_nil]
      exact htarget
  | @entry target inner f key value param path values hparam hpath hset rest ih =>
      intro sites htarget
      cases hvalid : JsonPath.validate (Text.splitDots path) with
      | error failure =>
          rw [hvalid] at hset
          cases hd : c.dialect <;> rw [hd] at hset <;> cases hset
      | ok segments =>
          have hname : columnName key = path := by rw [columnName, hpath]; rfl
          have hsegments : entryPath key = segments := by rw [entryPath, hname, hvalid]; rfl
          have hvalue : (jsonParam c.dialect value).toOption.getD .null = param := by rw [hparam]; rfl
          have hshows := ih (shows_jsonSet htarget hvalid hset)
          rw [← hsegments, ← hvalue, List.append_assoc] at hshows
          exact hshows

theorem jsonUpdate_shows {q : Query} {column : Value} {values : Row} {s : Statement}
    (h : c.jsonUpdate q column values = .ok s) :
    Shows [] s.fragment (entrySites c.dialect values ++ c.reachSites q q.visibility) := by
  obtain ⟨-, name, expression, condition, -, hexpression, hcondition, rfl⟩ := Compiler.jsonUpdate_parts h
  have hname : Shows [] [.name name] [] := shows_of_params_eq_nil [] rfl
  have hvalues := documents_show hexpression hname
  have hshows := Change.shows (c := ⟨c.table q.table, [(name, .expression expression)], condition⟩)
    (.cons (Change.shows_expression name hvalues) .nil) (whereChain_readable hcondition)
  simp only [List.flatten_cons, List.flatten_nil, List.append_nil, List.nil_append] at hshows
  rw [Compiler.reachSites, ← sites_whereChain hcondition]
  exact hshows

/-- The parameters of a compiled request are its values, each behind its caption. -/
theorem compile_shows {r : Request} {s : Statement} (h : c.compile r = .ok (some s)) :
    Shows [] s.fragment (r.sites c) := by
  cases r with
  | select q => exact select_shows (eq_ok_of_map_some h)
  | insert table rows returning => exact insert_shows (eq_ok_of_map_some h)
  | upsert table row conflict update => exact upsert_shows (eq_ok_of_map_some h)
  | update q values operation => exact update_shows (eq_ok_of_map_some h)
  | delete q force => exact delete_shows (eq_ok_of_map_some h)
  | restore q => exact restore_shows h
  | jsonUpdate q column values => exact jsonUpdate_shows (eq_ok_of_map_some h)

end Polyquery
