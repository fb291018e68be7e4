import Polyquery.Proofs.Request

/-! What the text of a statement depends on. Erasing the values of a request leaves its tables, columns, operators and
lengths, and of a value that is tested for equality whether it is null. Main statement: requests that are equal after
erasure have statements of the same text and as many parameters, and a parameter differs only where a value does. -/

namespace Polyquery

open Sql Fragment

/-! ### Erased requests -/

namespace Value

/-- The value that stands for every value. -/
def blank : Value := .bool true

/-- What is left of a value that may be tested for null. -/
def nullity : Value → Value
  | .null => .null
  | _ => blank

end Value

/-- What is left of the operand of a comparison: nothing, or under an operator of equality whether it is null. -/
def operandErased (operator : String) (value : Value) : Value :=
  if (Operator.ofText? operator).any (·.nullTest?.isSome) then value.nullity else .blank

/-- Conditions on groups without their values. -/
def HavingTerm.erased (clause : HavingTerm) : HavingTerm := { clause with value := .blank }

mutual

/-- A filter without its values. -/
def Filter.erased : Filter → Filter
  | .basic column operator value connective => .basic column operator (operandErased operator value) connective
  | .isIn column values negated connective => .isIn column (values.map fun _ => .blank) negated connective
  | .isNull column negated connective => .isNull column negated connective
  | .between column _ _ negated connective => .between column .blank .blank negated connective
  | .json path operator value connective => .json path operator (operandErased operator value) connective
  | .group query connective => .group query.erased connective
  | .other value => .other value

/-- A query without the values of its conditions. -/
def QueryOf.erased : QueryOf Filter → QueryOf Filter
  | ⟨table, columns, filters, joins, groupBy, having, orderBy, limit, offset, timeout, visibility⟩ =>
    ⟨table, columns, Filter.allErased filters, joins, groupBy, having.map HavingTerm.erased, orderBy, limit, offset,
      timeout, visibility⟩

/-- Filters without their values. -/
def Filter.allErased : List Filter → List Filter
  | [] => []
  | filter :: rest => filter.erased :: Filter.allErased rest

end

/-- A row without its cells. -/
def Row.erased (row : Row) : Row := row.map fun (column, _) => (column, .blank)

/-- A policy of soft deletion without its markers. -/
def SoftDelete.erased (s : SoftDelete) : SoftDelete := { s with deletedValue := .blank, restoredValue := .blank }

/-- A compiler without the values that it adds: of the scope's values it is left whether they are null. -/
def Compiler.erased (c : Compiler) : Compiler :=
  { c with
    scope := c.scope.map fun (column, value) => (column, value.nullity)
    softDelete := c.softDelete.map SoftDelete.erased
    now := .blank }

/-- A request without its values. -/
def Request.erased : Request → Request
  | .select q => .select q.erased
  | .insert table rows returning => .insert table (rows.map Row.erased) returning
  | .upsert table row conflict columns => .upsert table row.erased conflict columns
  | .update q values operation => .update q.erased values.erased operation
  | .delete q force => .delete q.erased force
  | .restore q => .restore q.erased
  | .jsonUpdate q column values => .jsonUpdate q.erased column values.erased

/-! ### Blank statements -/

namespace Sql

/-- A piece without its parameter. -/
def Piece.blank : Piece → Piece
  | .bind _ => .bind .blank
  | p => p

/-- A fragment without its parameters. -/
def Fragment.blank (f : Fragment) : Fragment := f.map Piece.blank

mutual

/-- A condition without its values. -/
def Condition.blank : Condition → Condition
  | .compare subject op _ => .compare subject op .blank
  | .isNull subject negated => .isNull subject negated
  | .isIn subject values negated => .isIn subject (values.map fun _ => .blank) negated
  | .between subject _ _ negated => .between subject .blank .blank negated
  | .constant truth => .constant truth
  | .group chain => .group (Condition.membersBlank chain)

/-- The members of a chain without their values. -/
def Condition.membersBlank : List (Connective × Condition) → List (Connective × Condition)
  | [] => []
  | (connective, condition) :: rest => (connective, condition.blank) :: Condition.membersBlank rest

end

/-- A condition on groups without its value. -/
def Having.blank (h : Having) : Having := { h with value := .blank }

/-- A query without its values. -/
def Selection.blank (s : Selection) : Selection :=
  { s with condition := Condition.membersBlank s.condition, having := s.having.map Having.blank }

/-- New rows without their cells. -/
def Insertion.blank (i : Insertion) : Insertion := { i with rows := i.rows.map fun cells => cells.map fun _ => .blank }

/-- An assignment without its values. -/
def Assigned.blank : Assigned → Assigned
  | .value _ => .value .blank
  | .expression f => .expression f.blank

/-- A change without its values. -/
def Change.blank (c : Change) : Change :=
  { c with
    assignments := c.assignments.map fun (column, assigned) => (column, assigned.blank)
    condition := Condition.membersBlank c.condition }

/-- A removal without its values. -/
def Removal.blank (r : Removal) : Removal := { r with condition := Condition.membersBlank r.condition }

/-! ### Blank text -/

namespace Fragment

theorem blank_append (f g : Fragment) : (f ++ g).blank = f.blank ++ g.blank := List.map_append

theorem blank_cons (p : Piece) (f : Fragment) : blank (p :: f) = p.blank :: f.blank := rfl

theorem blank_blank (f : Fragment) : f.blank.blank = f.blank := by
  rw [blank, blank, List.map_map]
  congr 1
  funext p
  cases p <;> rfl

/-- A statement's text does not depend on its parameters. -/
theorem write_blank (d : Dialect) (f : Fragment) : f.blank.write d = f.write d := by
  rw [write, write, blank, List.flatMap_map]
  congr 1
  funext p
  cases p <;> rfl

theorem length_params_blank (f : Fragment) : f.blank.params.length = f.params.length := by
  induction f with
  | nil => rfl
  | cons p f ih => cases p <;> simp [blank_cons, Piece.blank, ih]

theorem blank_separated (separator : String) (fs : List Fragment) :
    (separated separator fs).blank = separated separator (fs.map blank) := map_separated rfl fs

theorem blank_bindList (values : List Value) :
    (bindList (values.map fun _ => .blank)).blank = (bindList values).blank := by
  rw [bindList, bindList, blank_separated, blank_separated, List.map_map, List.map_map, List.map_map]
  rfl

end Fragment

namespace Condition

mutual

theorem blank_fragment : (condition : Condition) → condition.blank.fragment.blank = condition.fragment.blank
  | .compare _ _ _ => by simp only [blank, fragment, blank_append]; rfl
  | .isNull _ _ => rfl
  | .isIn _ _ _ => by simp only [blank, fragment, blank_append, blank_cons, blank_bindList]
  | .between _ _ _ _ => by simp only [blank, fragment, blank_append]; rfl
  | .constant _ => rfl
  | .group chain => by simp only [blank, fragment, blank_append, blank_cons, blank_chainFragment chain]

theorem blank_chainFragment : (chain : List (Connective × Condition)) →
    (chainFragment (membersBlank chain)).blank = (chainFragment chain).blank
  | [] => rfl
  | (_, condition) :: rest => by
      simp only [membersBlank, chainFragment, blank_append, blank_fragment condition, blank_restFragment rest]

theorem blank_restFragment : (rest : List (Connective × Condition)) →
    (restFragment (membersBlank rest)).blank = (restFragment rest).blank
  | [] => rfl
  | (_, condition) :: rest => by
      simp only [membersBlank, restFragment, blank_append, blank_cons, blank_fragment condition,
        blank_restFragment rest]

end

theorem membersBlank_eq_map (chain : List (Connective × Condition)) :
    membersBlank chain = chain.map fun (connective, condition) => (connective, condition.blank) := by
  induction chain with
  | nil => rfl
  | cons member rest ih => rw [membersBlank, ih, List.map_cons]

end Condition

theorem blank_whereClause (chain : Chain) :
    (whereClause (Condition.membersBlank chain)).blank = (whereClause chain).blank := by
  cases chain with
  | nil => rfl
  | cons member rest =>
      exact congrArg (blank [Piece.words " WHERE "] ++ ·) (Condition.blank_chainFragment (member :: rest))

theorem blank_havingClause (clauses : List Having) :
    blank (if (clauses.map Having.blank).isEmpty then [] else
      Piece.words " HAVING " :: Having.chain (clauses.map Having.blank)) =
        blank (if clauses.isEmpty then [] else Piece.words " HAVING " :: Having.chain clauses) := by
  cases clauses with
  | nil => rfl
  | cons h clauses =>
      have hchain : (Having.chain ((h :: clauses).map Having.blank)).blank = (Having.chain (h :: clauses)).blank := by
        rw [Having.chain, Having.chain, blank_separated, blank_separated, List.map_map, List.map_map, List.map_map]
        rfl
      exact congrArg (blank [Piece.words " HAVING "] ++ ·) hchain

theorem Selection.blank_fragment (d : Dialect) (s : Selection) :
    (s.blank.fragment d).blank = (s.fragment d).blank := by
  have hwindow : s.blank.windowClause d = s.windowClause d := rfl
  have hhaving : Fragment.blank (if s.blank.having.isEmpty then [] else
      Piece.words " HAVING " :: Having.chain s.blank.having) = _ := blank_havingClause s.having
  simp only [fragment, blank_append, blank_cons, hwindow, hhaving]
  simp only [Selection.blank, blank_whereClause]

theorem Insertion.blank_fragment (d : Dialect) (i : Insertion) :
    (i.blank.fragment d).blank = (i.fragment d).blank := by
  simp only [fragment, Insertion.blank, blank_append, blank_cons, blank_separated, List.map_map, Function.comp_def,
    blank_bindList]
  rfl

theorem Change.blank_fragment (c : Change) : c.blank.fragment.blank = c.fragment.blank := by
  have hassignment : ∀ entry : String × Assigned,
      (assignment (entry.1, entry.2.blank)).blank = (assignment entry).blank := by
    rintro ⟨column, value | f⟩
    · rfl
    · rw [Assigned.blank, assignment, assignment, blank_append, blank_append, blank_blank]
  simp only [fragment, Change.blank, blank_append, blank_cons, blank_separated, List.map_map, Function.comp_def,
    hassignment, blank_whereClause]

theorem Removal.blank_fragment (r : Removal) : r.blank.fragment.blank = r.fragment.blank := by
  simp only [fragment, Removal.blank, blank_append, blank_cons, blank_whereClause]

end Sql

open Sql.Condition

variable {c : Compiler} {d : Dialect}

/-! ### Erased filters -/

theorem ofComparison_erased {operator : String} {op : Operator} (h : Operator.ofText? operator = some op)
    (subject : Fragment) (value : Value) :
    Condition.ofComparison subject op (operandErased operator value) =
      (Condition.ofComparison subject op value).blank := by
  have hany : (Operator.ofText? operator).any (·.nullTest?.isSome) = op.nullTest?.isSome := by rw [h]; rfl
  rw [operandErased, hany]
  cases op <;> cases value <;> rfl

theorem Filter.connective_erased (filter : Filter) : filter.erased.connective = filter.connective := by
  cases filter <;> rfl

theorem QueryOf.filters_erased (q : Query) : q.erased.filters = Filter.allErased q.filters := by
  cases q
  rfl

theorem groupChain_eq (c : Compiler) (q : QueryOf Filter) : c.groupChain q = c.filterChain q.filters := by
  cases q
  rw [Compiler.groupChain]

/-- Erased filters become blank conditions. -/
theorem erased_lowering (c : Compiler) : Lowering c
    (fun filter condition? => c.erased.condition? filter.erased = .ok (condition?.map Condition.blank))
    (fun filters chain => c.erased.filterChain (Filter.allErased filters) = .ok (membersBlank chain)) where
  basic {column operator value connective op} hop := by
    rw [Filter.erased, Compiler.condition?, ofValue_of_ofText? hop, Option.map_some, ← ofComparison_erased hop]
    rfl
  isIn {column values negated connective} hlength hvalues := by
    have hblank : (values.map fun _ => Value.blank).isEmpty = false := by rw [List.isEmpty_map, hvalues]
    have hlimit : ¬c.erased.maxInValues < values.length := hlength
    rw [Filter.erased, Compiler.condition?, List.length_map, if_neg hlimit, hblank]
    rfl
  isInNothing {column negated connective} hlength := by
    rw [Filter.erased, Compiler.condition?, List.length_map]
    exact if_neg hlength
  isNull := rfl
  between := rfl
  json {path operator value connective op subject} hop hsubject := by
    rw [Filter.erased, Compiler.condition?, ofValue_of_ofText? hop, Option.map_some, ← ofComparison_erased hop]
    exact bind_eq_ok.2 ⟨op, rfl, bind_eq_ok.2 ⟨subject, hsubject, rfl⟩⟩
  group {query connective chain} h := by
    rw [Filter.erased, Compiler.condition?, groupChain_eq, QueryOf.filters_erased, h]
    cases chain <;> rfl
  nil := rfl
  leftOut hfilter hrest := by
    rw [Filter.allErased, Compiler.filterChain, hfilter, hrest]
    rfl
  cons {filter rest condition chain} hfilter hrest := by
    rw [Filter.allErased, Compiler.filterChain, hfilter, hrest, Filter.connective_erased]
    rfl

/-! ### Erased queries -/

theorem QueryOf.erased_eq (q : Query) :
    q.erased = { q with filters := Filter.allErased q.filters, having := q.having.map HavingTerm.erased } := by
  cases q
  rfl

theorem softDelete_erased (c : Compiler) : c.erased.softDelete = c.softDelete.map SoftDelete.erased := rfl

theorem scope_erased {scope : Row} {qualifier : String} {equalities : List Condition}
    (h : scope.mapM (Compiler.scopeCondition qualifier) = .ok equalities) :
    (scope.map fun (column, value) => (column, value.nullity)).mapM (Compiler.scopeCondition qualifier) =
      .ok (equalities.map Condition.blank) := by
  refine mapM_map_eq_ok ?_ h
  rintro ⟨column, value⟩ condition hcondition
  obtain ⟨subject, hsubject, rfl⟩ := map_eq_ok.1 hcondition
  rw [Compiler.scopeCondition, hsubject]
  cases value <;> rfl

theorem visibility_erased (s : SoftDelete) (visibility : Visibility) (qualifier : String) :
    Compiler.visibilityCondition? s.erased visibility qualifier =
      (Compiler.visibilityCondition? s visibility qualifier).map Condition.blank := by
  obtain ⟨enabled, column, mode, deleted, restored⟩ := s
  cases visibility <;> cases mode <;> rfl

theorem joinChains_blank (added : List Condition) (own : Chain) :
    Compiler.joinChains (added.map Condition.blank) (membersBlank own) =
      membersBlank (Compiler.joinChains added own) := by
  have hbehind : ∀ own : Chain,
      Chain.all (added.map Condition.blank) ++ membersBlank own = membersBlank (Chain.all added ++ own) := by
    intro own
    rw [membersBlank_eq_map, membersBlank_eq_map, List.map_append, Chain.all, Chain.all, List.map_map, List.map_map]
    rfl
  cases own with
  | nil => simpa [Compiler.joinChains, membersBlank] using hbehind []
  | cons first rest =>
      cases rest with
      | nil => exact hbehind [(.and, first.2)]
      | cons second rest =>
          cases added with
          | nil => rfl
          | cons _ _ => exact hbehind [(.and, .group (first :: second :: rest))]

theorem whereChain_erased {filters : List Filter} {visibility : Visibility} {qualifier : String} {chain : Chain}
    (h : c.whereChain filters visibility c.scope qualifier = .ok chain) :
    c.erased.whereChain (Filter.allErased filters) visibility c.erased.scope qualifier = .ok (membersBlank chain) := by
  obtain ⟨added, own, hadded, hown, rfl⟩ := whereChain_parts h
  obtain ⟨equalities, hequalities, rfl⟩ := Compiler.addedConditions_parts hadded
  refine bind_eq_ok.2 ⟨_, bind_eq_ok.2 ⟨_, scope_erased hequalities, rfl⟩,
    bind_eq_ok.2 ⟨_, (erased_lowering c).filterChain filters own hown, ?_⟩⟩
  rw [pure_eq_ok, ← joinChains_blank, List.map_append, softDelete_erased]
  cases c.softDelete with
  | none => rfl
  | some s => rw [Option.map_some, Option.bind_some, Option.bind_some, visibility_erased, Option.toList_map]

/-! ### Erased requests and their statements -/

/-- Statements that differ in their parameters only. -/
def Statement.Alike (a b : Statement) : Prop := a.dialect = b.dialect ∧ a.fragment.blank = b.fragment.blank

theorem havingClauses_erased {clauses : List HavingTerm} {having : List Having}
    (h : Compiler.havingClauses clauses = .ok having) :
    Compiler.havingClauses (clauses.map HavingTerm.erased) = .ok (having.map Having.blank) := by
  refine mapM_map_eq_ok ?_ h
  intro clause having hclause
  obtain ⟨op, hop, hhaving⟩ := bind_eq_ok.1 hclause
  cases pure_eq_ok.1 hhaving
  exact bind_eq_ok.2 ⟨op, hop, rfl⟩

theorem selection_erased {q : Query} {s : Selection} (h : c.Selects q s) :
    c.erased.selection q.erased = .ok s.blank := by
  obtain ⟨projection, table, joins, condition, groupBy, having, orderBy, window⟩ := s
  obtain ⟨hprojection, rfl, hjoins, hcondition, hgroupBy, hhaving, rfl, rfl⟩ := h
  rw [QueryOf.erased_eq]
  exact bind_eq_ok.2 ⟨projection, hprojection, bind_eq_ok.2 ⟨joins, hjoins,
    bind_eq_ok.2 ⟨_, whereChain_erased hcondition, bind_eq_ok.2 ⟨groupBy, hgroupBy,
      bind_eq_ok.2 ⟨_, havingClauses_erased hhaving, rfl⟩⟩⟩⟩⟩

theorem select_erased {q : Query} {s : Statement} (h : c.select q = .ok s) :
    ∃ s', c.erased.select q.erased = .ok s' ∧ s'.Alike s := by
  obtain ⟨selection, hselects, rfl⟩ := Compiler.select_parts h
  exact ⟨⟨c.dialect, .select, .select selection.blank⟩, bind_eq_ok.2 ⟨_, selection_erased hselects, rfl⟩, rfl,
    Selection.blank_fragment c.dialect selection⟩

theorem reach_erased {q : Query} {visibility : Visibility} {chain : Chain} (h : c.reach q visibility = .ok chain) :
    c.erased.reach q.erased visibility = .ok (membersBlank chain) := by
  rw [QueryOf.erased_eq]
  exact whereChain_erased h

namespace Row

theorem columns_erased (row : Row) : row.erased.columns = row.columns := List.map_map

theorem isEmpty_erased (row : Row) : row.erased.isEmpty = row.isEmpty := List.isEmpty_map

theorem has_erased (row : Row) (column : Value) : row.erased.has column = row.has column := by
  rw [Row.has, Row.has, Row.erased, List.any_map]
  rfl

end Row

theorem insertColumns_erased {rows : List Row} {columns : List Value}
    (h : Compiler.insertColumns rows = .ok columns) : Compiler.insertColumns (rows.map Row.erased) = .ok columns := by
  cases rows with
  | nil => cases h
  | cons first rest =>
      have hsame : ∀ row, Compiler.sameColumns first.erased row.erased = Compiler.sameColumns first row := by
        intro row
        simp only [Compiler.sameColumns, Row.columns_erased, Row.has_erased]
      rw [Compiler.insertColumns] at h
      rw [List.map_cons, Compiler.insertColumns, Row.isEmpty_erased]
      split at h
      · cases h
      · rename_i hempty
        split at h
        · cases h
        · rename_i hfind
          cases h
          rw [if_neg hempty, List.zipIdx_map, List.find?_map]
          simp only [Function.comp_def, Prod.map_fst, hsame, hfind, Option.map_none, Row.columns_erased]

theorem insertion_erased {table : String} {rows : List Row} {returning : Value} {i : Insertion}
    (h : c.insertion table rows returning = .ok i) :
    ∃ i', c.erased.insertion table (rows.map Row.erased) returning = .ok i' ∧ i'.blank = i.blank := by
  obtain ⟨columns, names, answered, hcolumns, hnames, hanswered, rfl⟩ := Compiler.insertion_parts h
  refine ⟨_, bind_eq_ok.2 ⟨columns, insertColumns_erased hcolumns, bind_eq_ok.2 ⟨names, hnames,
    bind_eq_ok.2 ⟨answered, hanswered, rfl⟩⟩⟩, ?_⟩
  simp only [Insertion.blank, List.map_map, Function.comp_def]
  rfl

theorem upsertColumns_erased (row : Row) (conflict update : Value) :
    Compiler.upsertColumns row.erased conflict update = Compiler.upsertColumns row conflict update := by
  simp only [Compiler.upsertColumns, Compiler.givenColumns, Compiler.missingFrom, Row.has_erased, Row.columns_erased]

theorem Insertion.alike {i i' : Insertion} (h : i'.blank = i.blank) (d : Dialect) (operation : Operation) :
    Statement.Alike ⟨d, operation, .insert i'⟩ ⟨d, operation, .insert i⟩ := by
  refine ⟨rfl, ?_⟩
  calc (i'.fragment d).blank = (i'.blank.fragment d).blank := (Insertion.blank_fragment d i').symm
    _ = (i.blank.fragment d).blank := by rw [h]
    _ = (i.fragment d).blank := Insertion.blank_fragment d i

theorem insert_erased {table : String} {rows : List Row} {returning : Value} {s : Statement}
    (h : c.insert table rows returning = .ok s) :
    ∃ s', c.erased.insert table (rows.map Row.erased) returning = .ok s' ∧ s'.Alike s := by
  obtain ⟨i, hinsertion, rfl⟩ := Compiler.insert_parts h
  obtain ⟨i', hi', hblank⟩ := insertion_erased hinsertion
  exact ⟨_, bind_eq_ok.2 ⟨i', hi', rfl⟩, Insertion.alike hblank c.dialect .insert⟩

theorem upsert_erased {table : String} {row : Row} {conflict update : Value} {s : Statement}
    (h : c.upsert table row conflict update = .ok s) :
    ∃ s', c.erased.upsert table row.erased conflict update = .ok s' ∧ s'.Alike s := by
  obtain ⟨hnative, columns, i, clause, hcolumns, hinsertion, hclause, rfl⟩ := Compiler.upsert_parts h
  obtain ⟨i', hi', hblank⟩ := insertion_erased hinsertion
  rw [← upsertColumns_erased] at hcolumns
  have hconflict : ({ i' with conflict := some clause } : Insertion).blank =
      ({ i with conflict := some clause } : Insertion).blank :=
    congrArg (fun i : Insertion => { i with conflict := some clause }) hblank
  refine ⟨⟨c.dialect, .upsert, .insert { i' with conflict := some clause }⟩, ?_, Insertion.alike hconflict _ _⟩
  exact (if_pos hnative).trans
    (bind_eq_ok.2 ⟨columns, hcolumns, bind_eq_ok.2 ⟨i', hi', bind_eq_ok.2 ⟨clause, hclause, rfl⟩⟩⟩)

theorem update_erased {q : Query} {values : Row} {operation : Operation} {s : Statement}
    (h : c.update q values operation = .ok s) :
    ∃ s', c.erased.update q.erased values.erased operation = .ok s' ∧ s'.Alike s := by
  obtain ⟨hempty, assignments, condition, hassignments, hcondition, rfl⟩ := Compiler.update_parts h
  have hblank : values.erased.mapM (fun (column, value) => return (← column.name, Assigned.value value)) =
      (.ok (assignments.map fun (column, assigned) => (column, assigned.blank)) : Except Failure _) := by
    rw [mapM_eq_ok, Row.erased, List.forall₂_map_left_iff, List.forall₂_map_right_iff]
    refine hassignments.imp fun entry assignment hassigned => ?_
    obtain ⟨name, hname, rfl⟩ := hassigned
    exact bind_eq_ok.2 ⟨name, hname, rfl⟩
  refine ⟨⟨c.dialect, operation, .update (Change.blank ⟨c.table q.table, assignments, condition⟩)⟩, ?_, rfl,
    Change.blank_fragment _⟩
  have hreach := reach_erased hcondition
  rw [QueryOf.erased_eq] at hreach ⊢
  rw [Compiler.update, Row.isEmpty_erased, if_neg hempty]
  exact bind_eq_ok.2 ⟨_, hblank, bind_eq_ok.2 ⟨_, hreach, rfl⟩⟩

theorem remove_erased {q : Query} {visibility : Visibility} {s : Statement} (h : c.remove q visibility = .ok s) :
    ∃ s', c.erased.remove q.erased visibility = .ok s' ∧ s'.Alike s := by
  obtain ⟨condition, hcondition, rfl⟩ := Compiler.remove_parts h
  have hreach := reach_erased hcondition
  rw [QueryOf.erased_eq] at hreach ⊢
  exact ⟨⟨c.dialect, .delete, .delete (Removal.blank ⟨c.table q.table, condition⟩)⟩,
    bind_eq_ok.2 ⟨_, hreach, rfl⟩, rfl, Removal.blank_fragment _⟩

theorem delete_erased {q : Query} {force : Bool} {s : Statement} (h : c.delete q force = .ok s) :
    ∃ s', c.erased.delete q.erased force = .ok s' ∧ s'.Alike s := by
  have hvisibility : q.erased.visibility = q.visibility := by rw [QueryOf.erased_eq]
  rw [Compiler.delete.eq_def, hvisibility]
  rcases Compiler.delete_cases h with ⟨soft, hsoft, rfl, hmark⟩ | ⟨hnone, rfl, hremove⟩ | ⟨rfl, hremove⟩
  · have hmarker : c.erased.marker soft.erased = .blank := by
      obtain ⟨enabled, column, mode, deleted, restored⟩ := soft
      cases mode <;> rfl
    rw [softDelete_erased, hsoft]
    dsimp only [Option.map_some]
    rw [hmarker]
    exact update_erased hmark
  · rw [softDelete_erased, hnone]
    exact remove_erased hremove
  · rw [softDelete_erased]
    cases c.softDelete with
    | none => exact remove_erased hremove
    | some soft => exact remove_erased hremove

theorem restore_erased {q : Query} {s : Statement} (h : c.restore q = .ok (some s)) :
    ∃ s', c.erased.restore q.erased = .ok (some s') ∧ s'.Alike s := by
  obtain ⟨soft, hsoft, hmark⟩ := Compiler.restore_parts h
  obtain ⟨s', hs', halike⟩ := update_erased hmark
  refine ⟨s', ?_, halike⟩
  rw [Compiler.restore, softDelete_erased, hsoft]
  rw [QueryOf.erased_eq] at hs' ⊢
  exact map_eq_ok.2 ⟨s', hs', rfl⟩

theorem jsonParam_blank (d : Dialect) : ∃ param, jsonParam d .blank = .ok param := by
  cases d <;> exact ⟨_, rfl⟩

theorem jsonSet_alike {target target' f : Fragment} {segments : Except Failure (List String)} {value : Value}
    (htarget : target'.blank = target.blank) (h : jsonSet d target segments [Piece.bind value] = .ok f)
    (value' : Value) : ∃ f', jsonSet d target' segments [Piece.bind value'] = .ok f' ∧ f'.blank = f.blank := by
  cases segments with
  | error failure => cases d <;> cases h
  | ok path =>
      cases d with
      | ansi => cases h
      | _ =>
          cases h
          refine ⟨_, rfl, ?_⟩
          simp only [blank_append, blank_cons, htarget]
          rfl

theorem documents_erased {values : Row} {target f : Fragment} (h : c.Documents target values f) :
    ∀ {target' : Fragment}, target'.blank = target.blank →
      ∃ f', c.erased.Documents target' values.erased f' ∧ f'.blank = f.blank := by
  induction h with
  | done target => exact fun {target'} htarget => ⟨target', .done target', htarget⟩
  | entry hparam hpath hset rest ih =>
      intro target' htarget
      obtain ⟨param', hparam'⟩ := jsonParam_blank c.dialect
      obtain ⟨inner', hinner', hblank⟩ := jsonSet_alike htarget hset param'
      obtain ⟨f', hf', halike⟩ := ih hblank
      exact ⟨f', .entry hparam' hpath hinner' hf', halike⟩

theorem jsonUpdate_erased {q : Query} {column : Value} {values : Row} {s : Statement}
    (h : c.jsonUpdate q column values = .ok s) :
    ∃ s', c.erased.jsonUpdate q.erased column values.erased = .ok s' ∧ s'.Alike s := by
  obtain ⟨hempty, name, f, condition, hname, hf, hcondition, rfl⟩ := Compiler.jsonUpdate_parts h
  obtain ⟨f', hf', hblank⟩ := documents_erased hf rfl
  have hreach := reach_erased hcondition
  rw [QueryOf.erased_eq] at hreach ⊢
  rw [Compiler.jsonUpdate, Row.isEmpty_erased, if_neg hempty]
  refine ⟨_, bind_eq_ok.2 ⟨name, hname, bind_eq_ok.2 ⟨f', Compiler.documentExpression_eq_ok.2 hf',
    bind_eq_ok.2 ⟨_, hreach, rfl⟩⟩⟩, rfl, ?_⟩
  have hassignment : (Change.assignment (name, .expression f')).blank =
      (Change.assignment (name, .expression f)).blank := by
    rw [Change.assignment, Change.assignment, blank_append, blank_append, hblank]
  simp only [Statement.fragment, Command.fragment, Change.fragment, blank_append, blank_cons, blank_whereClause,
    List.map_cons, List.map_nil, separated, hassignment]
  rfl

/-- The statement of an erased request differs from the request's own in its parameters only. -/
theorem compile_erased {r : Request} {s : Statement} (h : c.compile r = .ok (some s)) :
    ∃ s', c.erased.compile r.erased = .ok (some s') ∧ s'.Alike s := by
  have hsome : ∀ {x y : Except Failure Statement}, (∀ s, x = .ok s → ∃ s', y = .ok s' ∧ s'.Alike s) →
      x.map some = .ok (some s) → ∃ s', y.map some = .ok (some s') ∧ s'.Alike s := by
    intro x y hxy hx
    obtain ⟨s', hs', halike⟩ := hxy s (eq_ok_of_map_some hx)
    exact ⟨s', map_eq_ok.2 ⟨s', hs', rfl⟩, halike⟩
  cases r with
  | select q => exact hsome (fun _ => select_erased) h
  | insert table rows returning => exact hsome (fun _ => insert_erased) h
  | upsert table row conflict update => exact hsome (fun _ => upsert_erased) h
  | update q values operation => exact hsome (fun _ => update_erased) h
  | delete q force => exact hsome (fun _ => delete_erased) h
  | restore q => exact restore_erased h
  | jsonUpdate q column values => exact hsome (fun _ => jsonUpdate_erased) h

/-! ### Two requests -/

namespace Request

/-- The values of a request, in the order in which its statement binds them. -/
def values (c : Compiler) : Request → List Value
  | jsonUpdate q _ entries => entries.map Prod.snd ++ (c.reachSites q q.visibility).map Site.value
  | r => (r.sites c).map Site.value

/-- How many values of a request are bound as documents; they are the first ones. -/
def documents : Request → Nat
  | jsonUpdate _ _ entries => entries.length
  | _ => 0

theorem documents_erased (r : Request) : r.erased.documents = r.documents := by
  cases r with
  | jsonUpdate q column entries => exact List.length_map _
  | _ => rfl

end Request

/-- The parameters of a statement are the values of its request. -/
theorem getElem?_params {r : Request} {s : Statement} (h : c.compile r = .ok (some s)) (k : Nat) :
    s.params[k]? = (r.values c)[k]?.map fun value =>
      if k < r.documents then (jsonParam c.dialect value).toOption.getD .null else value := by
  have hparams : s.params = (r.sites c).map Site.value := (compile_shows h).params_eq
  cases r with
  | jsonUpdate q column entries =>
      rw [hparams, Request.sites, Request.values, Request.documents, entrySites, List.map_append, List.map_map]
      by_cases hk : k < entries.length
      · rw [List.getElem?_append_left (by simpa using hk), List.getElem?_append_left (by simpa using hk)]
        simp [hk]
      · rw [List.getElem?_append_right (by simpa using hk), List.getElem?_append_right (by simpa using hk)]
        simp [hk, Function.comp_def]
  | _ => simp [hparams, Request.values, Request.documents, Function.comp_def]

theorem Statement.Alike.sql_eq {a b : Statement} (h : a.Alike b) : a.sql = b.sql := by
  rw [Statement.sql, Statement.sql, Fragment.text, Fragment.text, ← write_blank, ← write_blank b.dialect, h.1, h.2]

theorem Statement.Alike.length_params {a b : Statement} (h : a.Alike b) : a.params.length = b.params.length := by
  rw [Statement.params, Statement.params, ← length_params_blank, ← length_params_blank b.fragment, h.2]

/-- Bound values have no influence on the text: requests that differ only in them have statements of the same text and
as many parameters, which differ only where the values do. -/
theorem compile_blind {c₁ c₂ : Compiler} {r₁ r₂ : Request} {s₁ s₂ : Statement} (hc : c₁.erased = c₂.erased)
    (hr : r₁.erased = r₂.erased) (h₁ : c₁.compile r₁ = .ok (some s₁)) (h₂ : c₂.compile r₂ = .ok (some s₂)) :
    s₁.sql = s₂.sql ∧ s₁.params.length = s₂.params.length ∧
      ∀ k : Nat, s₁.params[k]? ≠ s₂.params[k]? → (r₁.values c₁)[k]? ≠ (r₂.values c₂)[k]? := by
  obtain ⟨s, hs, halike₁⟩ := compile_erased h₁
  obtain ⟨s', hs', halike₂⟩ := compile_erased h₂
  rw [hc, hr, hs'] at hs
  cases hs
  refine ⟨halike₁.sql_eq.symm.trans halike₂.sql_eq, halike₁.length_params.symm.trans halike₂.length_params, ?_⟩
  intro k hdiffer hsame
  have hdialect : c₁.erased.dialect = c₂.erased.dialect := by rw [hc]
  change c₁.dialect = c₂.dialect at hdialect
  have hdocuments : r₁.documents = r₂.documents := by rw [← r₁.documents_erased, hr, r₂.documents_erased]
  exact hdiffer (by rw [getElem?_params h₁, getElem?_params h₂, hsame, hdialect, hdocuments])

/-- Two tenants look for different names. -/
theorem compile_blind_two_tenants :
    ∃ s₁ s₂,
      Compiler.compile { dialect := .mysql, scope := [(.text "tenant", .int 7)] }
          (.select { table := "t", filters := [.basic "name" "=" (.text "Ada") .and, .basic "age" "<" .null .or] }) =
        .ok (some s₁) ∧
      Compiler.compile { dialect := .mysql, scope := [(.text "tenant", .text "x")] }
          (.select { table := "t", filters := [.basic "name" "=" (.int 0) .and, .basic "age" "<" (.int 40) .or] }) =
        .ok (some s₂) ∧ s₁.sql = s₂.sql :=
  ⟨_, _, rfl, rfl, (@compile_blind { dialect := .mysql, scope := [(.text "tenant", .int 7)] }
    { dialect := .mysql, scope := [(.text "tenant", .text "x")] }
    (.select { table := "t", filters := [.basic "name" "=" (.text "Ada") .and, .basic "age" "<" .null .or] })
    (.select { table := "t", filters := [.basic "name" "=" (.int 0) .and, .basic "age" "<" (.int 40) .or] })
    _ _ rfl rfl rfl rfl).1⟩

end Polyquery
