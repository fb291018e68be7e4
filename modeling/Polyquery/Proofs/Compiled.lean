import Polyquery.Proofs.Outcome
import Polyquery.Query.Compiler

/-! What a compiler has done where it succeeds: for each of its functions the tests that were passed, the parts that were
compiled before, and what is made of them. -/

namespace Polyquery

open Sql

/-- A selection and the query whose parts it has. -/
structure Compiler.Selects (c : Compiler) (q : Query) (s : Selection) : Prop where
  projection : Compiler.projection q.columns = .ok s.projection
  table : s.table = c.table q.table
  joins : q.joins.mapM c.joined = .ok s.joins
  condition : c.whereChain q.filters q.visibility c.scope (if q.joins.isEmpty then "" else c.table q.table) =
    .ok s.condition
  groupBy : q.groupBy.mapM Value.name = .ok s.groupBy
  having : Compiler.havingClauses q.having = .ok s.having
  orderBy : s.orderBy = q.orderBy.map fun term => (term.column, term.direction)
  window : s.window = ⟨q.limit, q.offset⟩

/-- How the expression for a document comes to hold its entries: a call for each of them around those before it. -/
inductive Compiler.Documents (c : Compiler) : Fragment → Row → Fragment → Prop
  | done (target : Fragment) : Documents c target [] target
  | entry {target inner f : Fragment} {key value param : Value} {path : String} {values : Row}
      (hparam : jsonParam c.dialect value = .ok param) (hpath : key.name = .ok path)
      (hset : jsonSet c.dialect target (JsonPath.validate (Text.splitDots path)) [.bind param] = .ok inner)
      (rest : Documents c inner values f) : Documents c target ((key, value) :: values) f

section

variable {c : Compiler} {q : Query} {s : Statement}

/-! ### Conditions -/

section

variable {filter : Filter} {filters others : List Filter} {visibility : Visibility} {scope : Row} {qualifier : String}
  {chain : Chain}

theorem Compiler.filterChain_cons :
    c.filterChain (filter :: filters) = .ok chain ↔ ∃ condition? rest, c.condition? filter = .ok condition? ∧
      c.filterChain filters = .ok rest ∧ (condition?.map fun condition => (filter.connective, condition)).toList ++ rest = chain := by
  simp only [filterChain, bind_eq_ok, pure_eq_ok]
  constructor
  · rintro ⟨condition?, hcondition?, rest, hrest, rfl⟩
    exact ⟨condition?, rest, hcondition?, hrest, by cases condition? <;> rfl⟩
  · rintro ⟨condition?, rest, hcondition?, hrest, rfl⟩
    exact ⟨condition?, hcondition?, rest, hrest, by cases condition? <;> rfl⟩

theorem Compiler.filterChain_append :
    c.filterChain (filters ++ others) = .ok chain ↔
      ∃ front back, c.filterChain filters = .ok front ∧ c.filterChain others = .ok back ∧ front ++ back = chain := by
  induction filters generalizing chain with
  | nil => simp [filterChain, pure_eq_ok]
  | cons filter filters ih =>
      rw [List.cons_append, filterChain_cons]
      constructor
      · rintro ⟨condition?, rest, hcondition?, hrest, rfl⟩
        obtain ⟨front, back, hfront, hback, rfl⟩ := ih.1 hrest
        exact ⟨_, back, filterChain_cons.2 ⟨condition?, front, hcondition?, hfront, rfl⟩, hback, List.append_assoc ..⟩
      · rintro ⟨front, back, hfront, hback, rfl⟩
        obtain ⟨condition?, rest, hcondition?, hrest, rfl⟩ := filterChain_cons.1 hfront
        exact ⟨condition?, rest ++ back, hcondition?, ih.2 ⟨rest, back, hrest, hback, rfl⟩, (List.append_assoc ..).symm⟩

/-- The conditions that are added are the equalities of the scope and the test for visible rows. -/
theorem Compiler.addedConditions_parts {added : List Condition}
    (h : c.addedConditions scope visibility qualifier = .ok added) :
    ∃ equalities, scope.mapM (scopeCondition qualifier) = .ok equalities ∧
      added = equalities ++ (c.softDelete.bind fun s => visibilityCondition? s visibility qualifier).toList := by
  obtain ⟨equalities, hequalities, hadded⟩ := bind_eq_ok.1 h
  exact ⟨equalities, hequalities, (pure_eq_ok.1 hadded).symm⟩

theorem whereChain_parts (h : c.whereChain filters visibility scope qualifier = .ok chain) :
    ∃ added own, c.addedConditions scope visibility qualifier = .ok added ∧ c.filterChain filters = .ok own ∧
      chain = Compiler.joinChains added own := by
  obtain ⟨added, hadded, hmore⟩ := bind_eq_ok.1 h
  obtain ⟨own, hown, hchain⟩ := bind_eq_ok.1 hmore
  exact ⟨added, own, hadded, hown, (pure_eq_ok.1 hchain).symm⟩

end

/-! ### Selections -/

theorem selects_of_selection {selection : Selection} (h : c.selection q = .ok selection) : c.Selects q selection := by
  obtain ⟨projection, hprojection, h⟩ := bind_eq_ok.1 h
  obtain ⟨joins, hjoins, h⟩ := bind_eq_ok.1 h
  obtain ⟨condition, hcondition, h⟩ := bind_eq_ok.1 h
  obtain ⟨groupBy, hgroupBy, h⟩ := bind_eq_ok.1 h
  obtain ⟨having, hhaving, hmade⟩ := bind_eq_ok.1 h
  cases pure_eq_ok.1 hmade
  exact ⟨hprojection, rfl, hjoins, hcondition, hgroupBy, hhaving, rfl, rfl⟩

namespace Compiler

theorem select_parts (h : c.select q = .ok s) :
    ∃ selection, c.Selects q selection ∧ s = ⟨c.dialect, .select, .select selection⟩ := by
  obtain ⟨selection, hselection, hs⟩ := bind_eq_ok.1 h
  exact ⟨selection, selects_of_selection hselection, (pure_eq_ok.1 hs).symm⟩

/-! ### Insertions -/

section

variable {name : String} {row : Row} {rows : List Row} {returning conflict update : Value}

/-- The columns of rows are those of the first, which has some. -/
theorem insertColumns_parts {columns : List Value} (h : insertColumns rows = .ok columns) :
    ∃ first rest, rows = first :: rest ∧ first ≠ [] ∧ columns = first.columns := by
  cases rows with
  | nil => cases h
  | cons first rest =>
      rw [insertColumns] at h
      split at h
      case isTrue => cases h
      case isFalse hfirst =>
        have hne : first ≠ [] := by simpa using hfirst
        split at h
        · cases h
        · exact ⟨first, rest, rfl, hne, (Except.ok.inj h).symm⟩

theorem insertion_parts {insertion : Insertion} (h : c.insertion name rows returning = .ok insertion) :
    ∃ columns names answered, insertColumns rows = .ok columns ∧ columns.mapM Value.name = .ok names ∧
      returned c.dialect returning = .ok answered ∧
      insertion = ⟨c.table name, names, rows.map fun row => columns.map row.cell, answered, none⟩ := by
  obtain ⟨columns, hcolumns, h⟩ := bind_eq_ok.1 h
  obtain ⟨names, hnames, h⟩ := bind_eq_ok.1 h
  obtain ⟨answered, hanswered, hmade⟩ := bind_eq_ok.1 h
  exact ⟨columns, names, answered, hcolumns, hnames, hanswered, (pure_eq_ok.1 hmade).symm⟩

theorem insert_parts (h : c.insert name rows returning = .ok s) :
    ∃ insertion, c.insertion name rows returning = .ok insertion ∧ s = ⟨c.dialect, .insert, .insert insertion⟩ := by
  obtain ⟨insertion, hinsertion, hs⟩ := bind_eq_ok.1 h
  exact ⟨insertion, hinsertion, (pure_eq_ok.1 hs).symm⟩

/-- An upsert has columns to find a row by, and columns to update. -/
theorem upsertColumns_parts {columns : List Value} (h : upsertColumns row conflict update = .ok columns) :
    conflict.isTruthy = true ∧ columns ≠ [] := by
  have hchosen : ∀ {chosen : List Value}, (if chosen.isEmpty then throw (Failure.invalid .noUpdateColumns) else pure chosen) =
      (.ok columns : Except Failure _) → columns ≠ [] := by
    intro chosen h
    split at h
    case isTrue => cases h
    case isFalse hne =>
      cases pure_eq_ok.1 h
      simpa using hne
  rw [upsertColumns] at h
  split at h
  case isTrue => cases h
  case isFalse htruthy =>
    refine ⟨by simpa using htruthy, ?_⟩
    obtain ⟨keys, -, h⟩ := bind_eq_ok.1 h
    obtain ⟨missing, -, h⟩ := bind_eq_ok.1 h
    dsimp only at h
    split at h
    case isTrue => cases h
    case isFalse =>
      -- the columns are those that are left of the row, or those that were given
      split at h
      all_goals
        obtain ⟨chosen, -, h⟩ := bind_eq_ok.1 h
        exact hchosen h

/-- An upsert is an insertion of one row with a clause for conflicts. -/
theorem upsert_parts (h : c.upsert name row conflict update = .ok s) :
    c.dialect.hasUpsert = true ∧ ∃ columns insertion clause, upsertColumns row conflict update = .ok columns ∧
      c.insertion name [row] (.tuple []) = .ok insertion ∧ Conflict.ofValues c.dialect conflict (.list columns) = .ok clause ∧
      s = ⟨c.dialect, .upsert, .insert { insertion with conflict := some clause }⟩ := by
  rw [upsert] at h
  split at h
  case isFalse => cases h
  case isTrue hnative =>
    obtain ⟨columns, hcolumns, h⟩ := bind_eq_ok.1 h
    obtain ⟨insertion, hinsertion, h⟩ := bind_eq_ok.1 h
    obtain ⟨clause, hclause, hs⟩ := bind_eq_ok.1 h
    exact ⟨hnative, columns, insertion, clause, hcolumns, hinsertion, hclause, (pure_eq_ok.1 hs).symm⟩

end

/-! ### Changes of the rows that a query reaches -/

section

variable {values : Row} {operation : Operation} {visibility : Visibility} {force : Bool}

/-- An assignment that sets the column of an entry. -/
def Assigns (entry : Value × Value) (assignment : String × Assigned) : Prop :=
  ∃ name, entry.1.name = .ok name ∧ assignment = (name, .value entry.2)

theorem assigns_of_mapM {assignments : List (String × Assigned)}
    (h : values.mapM (fun (column, value) => return (← column.name, Assigned.value value)) =
      (.ok assignments : Except Failure _)) : List.Forall₂ Assigns values assignments := by
  refine (mapM_eq_ok.1 h).imp fun entry assignment hassigned => ?_
  obtain ⟨name, hname, hassignment⟩ := bind_eq_ok.1 hassigned
  exact ⟨name, hname, (pure_eq_ok.1 hassignment).symm⟩

theorem update_parts (h : c.update q values operation = .ok s) :
    ¬values.isEmpty ∧ ∃ assignments condition, List.Forall₂ Assigns values assignments ∧
      c.reach q q.visibility = .ok condition ∧ s = ⟨c.dialect, operation, .update ⟨c.table q.table, assignments, condition⟩⟩ := by
  rw [update] at h
  split at h
  case isTrue => cases h
  case isFalse hempty =>
    obtain ⟨assignments, hassignments, h⟩ := bind_eq_ok.1 h
    obtain ⟨condition, hcondition, hs⟩ := bind_eq_ok.1 h
    exact ⟨hempty, assignments, condition, assigns_of_mapM hassignments, hcondition, (pure_eq_ok.1 hs).symm⟩

theorem remove_parts (h : c.remove q visibility = .ok s) :
    ∃ condition, c.reach q visibility = .ok condition ∧ s = ⟨c.dialect, .delete, .delete ⟨c.table q.table, condition⟩⟩ := by
  obtain ⟨condition, hcondition, hs⟩ := bind_eq_ok.1 h
  exact ⟨condition, hcondition, (pure_eq_ok.1 hs).symm⟩

/-- A deletion marks its rows or removes them. -/
theorem delete_cases (h : c.delete q force = .ok s) :
    (∃ soft, c.softDelete = some soft ∧ force = false ∧ c.update q [(.text soft.column, c.marker soft)] .delete = .ok s) ∨
    (c.softDelete = none ∧ force = false ∧ c.remove q q.visibility = .ok s) ∨
    (force = true ∧ c.remove q (if q.visibility = .live then .withTrashed else q.visibility) = .ok s) := by
  rw [delete.eq_def] at h
  split at h
  case h_1 soft hsoft => exact .inl ⟨soft, hsoft, rfl, h⟩
  case h_2 hnone => exact .inr (.inl ⟨hnone, rfl, h⟩)
  case h_3 => exact .inr (.inr ⟨rfl, h⟩)

/-- A restoration that makes a statement updates the marker. -/
theorem restore_parts (h : c.restore q = .ok (some s)) :
    ∃ soft, c.softDelete = some soft ∧
      c.update { q with visibility := if q.visibility = .live then .onlyTrashed else q.visibility }
        [(.text soft.column, soft.restoredValue)] = .ok s := by
  rw [restore] at h
  split at h
  case h_1 => cases pure_eq_ok.1 h
  case h_2 soft hsoft => exact ⟨soft, hsoft, eq_ok_of_map_some h⟩

theorem documentExpression_eq_ok {column : String} {f : Fragment} :
    c.documentExpression column values = .ok f ↔ c.Documents [.name column] values f := by
  rw [documentExpression]
  generalize [Piece.name column] = target
  induction values generalizing target with
  | nil =>
      rw [List.foldlM_nil, pure_eq_ok]
      constructor
      · rintro rfl
        exact .done target
      · rintro ⟨⟩
        rfl
  | cons entry values ih =>
      obtain ⟨key, value⟩ := entry
      rw [List.foldlM_cons, bind_eq_ok]
      constructor
      · rintro ⟨inner, hinner, hrest⟩
        obtain ⟨param, hparam, hinner⟩ := bind_eq_ok.1 hinner
        obtain ⟨path, hpath, hset⟩ := bind_eq_ok.1 hinner
        exact .entry hparam hpath hset ((ih inner).1 hrest)
      · rintro (_ | ⟨hparam, hpath, hset, rest⟩)
        exact ⟨_, bind_eq_ok.2 ⟨_, hparam, bind_eq_ok.2 ⟨_, hpath, hset⟩⟩, (ih _).2 rest⟩

theorem jsonUpdate_parts {column : Value} (h : c.jsonUpdate q column values = .ok s) :
    ¬values.isEmpty ∧ ∃ name expression condition, column.name = .ok name ∧
      c.Documents [.name name] values expression ∧ c.reach q q.visibility = .ok condition ∧
      s = ⟨c.dialect, .update, .update ⟨c.table q.table, [(name, .expression expression)], condition⟩⟩ := by
  rw [jsonUpdate] at h
  split at h
  case isTrue => cases h
  case isFalse hempty =>
    obtain ⟨name, hname, h⟩ := bind_eq_ok.1 h
    obtain ⟨expression, hexpression, h⟩ := bind_eq_ok.1 h
    obtain ⟨condition, hcondition, hs⟩ := bind_eq_ok.1 h
    exact ⟨hempty, name, expression, condition, hname, documentExpression_eq_ok.1 hexpression, hcondition,
      (pure_eq_ok.1 hs).symm⟩

end

end Compiler

end

end Polyquery
