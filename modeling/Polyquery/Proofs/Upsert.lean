import Polyquery.Proofs.Driven
import Polyquery.Proofs.Request

/-! Upserts in one statement and in steps. Main statement: on a table whose rows do not share the conflict columns, a dialect
that has the statement and one that goes through a count and a change inside a transaction leave the same rows, and what
they cannot do they refuse with the same failure, before anything is sent. -/

namespace Polyquery

open Sql Session

variable {σ : Type} {E : Engine} {c : Compiler} {cells : List (String × Value)} {conflict : List String}

/-! ### Rows by names -/

/-- Names as a list of values. -/
def namesValue (names : List String) : Value := .list (names.map .text)

namespace Row

theorem map_cell_named (cells : List (String × Value)) (names : List String) :
    (names.map Value.text).map (fun column => (column, (named cells).cell column)) = named (cellsOf cells names) := by
  have hnamed : named (cellsOf cells names) = names.map fun name => (.text name, cellOf cells name) := by
    rw [named, cellsOf, List.map_map]
    rfl
  rw [hnamed, List.map_map]
  exact List.map_congr_left fun name _ => congrArg (Prod.mk (Value.text name)) (cell_named cells name)

theorem putEntry_named {done : List (String × Value)} {column : String} (hnew : column ∉ done.map (·.1))
    (value : Value) : Value.putEntry (.text column) value (named done) = named (done ++ [(column, value)]) := by
  induction done with
  | nil => rfl
  | cons cell done ih =>
      obtain ⟨name, held⟩ := cell
      rw [List.map_cons, List.mem_cons, not_or] at hnew
      have hother : Value.same (.text name) (.text column) = false := by
        rw [Value.same_text]
        exact decide_eq_false (Ne.symm hnew.1)
      have hrest := ih hnew.2
      rw [named] at hrest ⊢
      rw [List.map_cons, Value.putEntry, hother, if_neg Bool.false_ne_true, hrest]
      rfl

/-- Entries under names of their own are the row that they make. -/
theorem ofEntries_named (hnodup : (cells.map (·.1)).Nodup) : Value.ofEntries (named cells) = named cells := by
  suffices hfold : ∀ (cells done : List (String × Value)), ((done ++ cells).map (·.1)).Nodup →
      (named cells).foldl (fun done entry => Value.putEntry entry.1 entry.2 done) (named done) = named (done ++ cells) from
    hfold cells [] hnodup
  clear hnodup
  intro cells
  induction cells with
  | nil => exact fun done _ => by rw [List.append_nil]; rfl
  | cons cell cells ih =>
      intro done hnodup
      have hnew : cell.1 ∉ done.map (·.1) := by
        rw [List.map_append, List.nodup_append] at hnodup
        exact fun hmem => hnodup.2.2 _ hmem _ List.mem_cons_self rfl
      rw [List.append_cons] at hnodup ⊢
      rw [← ih _ hnodup, ← putEntry_named hnew cell.2]
      rfl

end Row

theorem map_cellsOf (cells : List (String × Value)) (columns : List String) :
    (cellsOf cells columns).map (·.1) = columns := by
  rw [cellsOf, List.map_map]
  exact List.map_id columns

theorem map_cellOf (hnodup : (cells.map (·.1)).Nodup) : (cells.map (·.1)).map (cellOf cells) = cells.map (·.2) := by
  rw [List.map_map]
  exact List.map_congr_left fun cell hmem => cellOf_of_mem hnodup hmem

/-! ### The columns to update -/

/-- The columns that an upsert updates. -/
def updateNames (cells : List (String × Value)) (conflict : List String) (update : Option (List String)) : List String :=
  update.getD ((cells.map (·.1)).filter fun column => !conflict.contains column)

/-- The given columns as a value, null when there are none. -/
def updateValue (update : Option (List String)) : Value := (update.map namesValue).getD .null

/-- Whether an upsert has what it needs: conflict columns and columns to update, all of them in the row. -/
structure Upsertable (cells : List (String × Value)) (conflict : List String) (update : Option (List String)) : Prop where
  keyed : conflict ≠ []
  keysIn : ∀ column ∈ conflict, column ∈ cells.map (·.1)
  updating : updateNames cells conflict update ≠ []
  updatesIn : ∀ column ∈ updateNames cells conflict update, column ∈ cells.map (·.1)

theorem Upsertable.nonempty {update : Option (List String)} (U : Upsertable cells conflict update) : cells ≠ [] := by
  rintro rfl
  obtain ⟨column, hcolumn⟩ := List.exists_mem_of_ne_nil _ U.keyed
  exact absurd (U.keysIn column hcolumn) List.not_mem_nil

namespace Compiler

theorem missingFrom_named (cells : List (String × Value)) (names : List String) :
    missingFrom (Row.named cells) (names.map .text) =
      .ok ((names.filter fun name => !decide (name ∈ cells.map (·.1))).map .text) := by
  have hkeys : (names.map Value.text).all Value.isKey = true := by
    rw [List.all_map]
    exact List.all_eq_true.2 fun _ _ => rfl
  rw [missingFrom, if_pos hkeys, List.filter_map]
  refine congrArg (fun found => Except.ok (found.map Value.text)) (List.filter_congr fun name _ => ?_)
  exact congrArg (! ·) (Row.has_named cells name)

/-- The names that a row lacks. -/
def lacking (cells : List (String × Value)) (names : List String) : List String :=
  names.filter fun name => !decide (name ∈ cells.map (·.1))

theorem lacking_eq_nil {names : List String} : lacking cells names = [] ↔ ∀ name ∈ names, name ∈ cells.map (·.1) := by
  rw [lacking, List.filter_eq_nil_iff]
  simp only [Bool.not_eq_true', decide_eq_false_iff_not, not_not]

theorem givenColumns_named (cells : List (String × Value)) (names : List String) :
    givenColumns (Row.named cells) (namesValue names) =
      if (lacking cells names).isEmpty then .ok (names.map .text)
      else .error (.invalid (.missingUpdateColumns ((lacking cells names).map .text))) := by
  have hmembers : (namesValue names).members = .ok (names.map .text) := rfl
  have hmissing := missingFrom_named cells names
  rw [← lacking] at hmissing
  rw [givenColumns, hmembers]
  change (missingFrom (Row.named cells) (names.map .text) >>= _) = _
  rw [hmissing]
  cases lacking cells names <;> rfl

theorem isAmong_names (names : List String) (name : String) :
    isAmong (namesValue names) (.text name) = .ok (names.contains name) := by
  change Except.ok ((names.map Value.text).any (·.same (.text name))) = _
  rw [List.any_map, List.contains_eq_any_beq]
  refine congrArg (fun test => Except.ok (names.any test)) (funext fun other => ?_)
  exact (Value.same_text other name).trans (decide_eq_decide.2 eq_comm)

/-- Without columns that are given, all are updated that are no conflict columns. -/
theorem usualColumns_named (cells : List (String × Value)) (conflict : List String) :
    (Row.named cells).columns.filterM (fun column => return !(← isAmong (namesValue conflict) column)) =
      .ok (((cells.map (·.1)).filter fun column => !conflict.contains column).map .text) := by
  -- the members that pass are collected in front of those found before
  have hcollect : ∀ names done : List String,
      List.filterAuxM (fun column => return !(← isAmong (namesValue conflict) column)) (names.map Value.text)
          (done.map Value.text) =
        (Except.ok (((names.filter fun column => !conflict.contains column).reverse ++ done).map Value.text) :
          Except Failure (List Value)) := by
    intro names
    induction names with
    | nil => exact fun done => rfl
    | cons name names ih =>
        intro done
        rw [List.map_cons, List.filterAuxM, isAmong_names]
        cases hkey : conflict.contains name with
        | true =>
            rw [List.filter_cons_of_neg (by rw [hkey]; decide)]
            exact ih done
        | false =>
            rw [List.filter_cons_of_pos (by rw [hkey]; decide), List.reverse_cons, List.append_assoc]
            exact ih (name :: done)
  rw [Row.columns_named, List.filterM]
  have hall := hcollect (cells.map (·.1)) []
  rw [List.map_nil, List.append_nil] at hall
  rw [hall, List.map_reverse]
  exact congrArg Except.ok (List.reverse_reverse _)

/-- The columns to update, before it is known that there are any. -/
def chosenColumns (row : Row) (conflict update : Value) : Except Failure (List Value) :=
  if update.isNull then row.columns.filterM fun column => return !(← isAmong conflict column)
  else givenColumns row update

theorem chosenColumns_named (cells : List (String × Value)) (conflict : List String) (update : Option (List String)) :
    chosenColumns (Row.named cells) (namesValue conflict) (updateValue update) =
      if (lacking cells (updateNames cells conflict update)).isEmpty then
        .ok ((updateNames cells conflict update).map .text)
      else .error (.invalid (.missingUpdateColumns ((lacking cells (updateNames cells conflict update)).map .text))) := by
  cases update with
  | none =>
      have hnone : lacking cells (updateNames cells conflict none) = [] :=
        lacking_eq_nil.2 fun _ hname => (List.mem_filter.1 hname).1
      rw [hnone]
      exact usualColumns_named cells conflict
  | some update => exact givenColumns_named cells update

/-- The steps in which the columns are found, one after the other. -/
theorem upsertColumns_eq {row : Row} {conflict : Value} {keys : List Value} (htruthy : conflict.isTruthy = true)
    (hkeys : conflict.members = .ok keys) (update : Value) :
    upsertColumns row conflict update = (do
      let missing ← missingFrom row keys
      if missing.isEmpty then
        let chosen ← chosenColumns row conflict update
        if chosen.isEmpty then .error (.invalid .noUpdateColumns) else .ok chosen
      else .error (.invalid (.missingConflictColumns missing))) := by
  rw [upsertColumns, htruthy, hkeys]
  change (missingFrom row keys >>= _) = _
  refine congrArg (missingFrom row keys >>= ·) (funext fun missing => ?_)
  cases missing with
  | cons => rfl
  | nil =>
      rw [chosenColumns]
      cases update.isNull <;> rfl

/-- An upsert that has what it needs updates the columns that it should; others are refused. -/
theorem upsertColumns_named (cells : List (String × Value)) (conflict : List String) (update : Option (List String)) :
    Upsertable cells conflict update ∧
        upsertColumns (Row.named cells) (namesValue conflict) (updateValue update) =
          .ok ((updateNames cells conflict update).map .text) ∨
      ¬Upsertable cells conflict update ∧ ∃ invalid,
        upsertColumns (Row.named cells) (namesValue conflict) (updateValue update) = .error (.invalid invalid) := by
  by_cases hkeyed : conflict = []
  · subst hkeyed
    exact .inr ⟨fun U => U.keyed rfl, _, rfl⟩
  have htruthy : (namesValue conflict).isTruthy = true := by
    cases conflict with
    | nil => exact absurd rfl hkeyed
    | cons => rfl
  have hmissing : missingFrom (Row.named cells) (conflict.map .text) = .ok ((lacking cells conflict).map .text) :=
    missingFrom_named cells conflict
  rw [upsertColumns_eq htruthy rfl, hmissing, chosenColumns_named]
  cases hkeys : lacking cells conflict with
  | cons name names =>
      refine .inr ⟨fun U => ?_, _, rfl⟩
      exact List.cons_ne_nil _ _ (hkeys.symm.trans (lacking_eq_nil.2 U.keysIn))
  | nil =>
      cases hupdates : lacking cells (updateNames cells conflict update) with
      | cons name names =>
          refine .inr ⟨fun U => ?_, _, rfl⟩
          exact List.cons_ne_nil _ _ (hupdates.symm.trans (lacking_eq_nil.2 U.updatesIn))
      | nil =>
          cases hnames : updateNames cells conflict update with
          | nil => exact .inr ⟨fun U => U.updating hnames, _, rfl⟩
          | cons name names =>
              refine .inl ⟨⟨hkeyed, lacking_eq_nil.1 hkeys, ?_, lacking_eq_nil.1 hupdates⟩, rfl⟩
              rw [hnames]
              exact List.cons_ne_nil _ _

/-! ### The statements of an upsert -/

theorem insertion_named (hnodup : (cells.map (·.1)).Nodup) (hne : cells ≠ []) (c : Compiler) (table : String) :
    c.insertion table [Row.named cells] (.tuple []) =
      .ok { table := c.table table, columns := cells.map (·.1), rows := [cells.map (·.2)] } := by
  have hcolumns : insertColumns [Row.named cells] = .ok ((cells.map (·.1)).map .text) := by
    rw [← Row.columns_named]
    cases cells with
    | nil => exact absurd rfl hne
    | cons => rfl
  have hreturned : returned c.dialect (.tuple []) = .ok [] := by
    rw [returned, show (Value.tuple []).isTruthy = false from rfl, Bool.and_false]
    rfl
  have hcells : ((cells.map (·.1)).map Value.text).map (fun column => (Row.named cells).cell column) = cells.map (·.2) := by
    rw [← map_cellOf hnodup, List.map_map]
    exact List.map_congr_left fun column _ => Row.cell_named cells column
  refine bind_eq_ok.2 ⟨_, hcolumns, bind_eq_ok.2 ⟨_, Value.mapM_name _, bind_eq_ok.2 ⟨[], hreturned, ?_⟩⟩⟩
  rw [List.map_singleton, hcells]
  rfl

/-- The clause of an upsert; where it does not name the conflict columns it has none. -/
def clause (d : Dialect) (conflict update : List String) : Conflict := ⟨if d = .mysql then [] else conflict, update⟩

theorem ofValues_names (d : Dialect) (conflict update : List String) :
    Conflict.ofValues d (namesValue conflict) (.list (update.map .text)) = .ok (clause d conflict update) := by
  have hupdate : ∀ columns, (do
      pure ⟨columns, ← (← (namesValue update).members).mapM Value.name⟩ : Except Failure Conflict) =
        .ok ⟨columns, update⟩ := fun columns =>
    bind_eq_ok.2 ⟨_, rfl, bind_eq_ok.2 ⟨_, Value.mapM_name update, rfl⟩⟩
  rw [Conflict.ofValues, clause]
  split
  · exact hupdate []
  · exact bind_eq_ok.2 ⟨_, rfl, bind_eq_ok.2 ⟨_, Value.mapM_name conflict, hupdate conflict⟩⟩

theorem upsert_named {update : Option (List String)} (U : Upsertable cells conflict update)
    (hnodup : (cells.map (·.1)).Nodup) {c : Compiler} (hnative : c.dialect.hasUpsert = true) (table : String) :
    c.upsert table (Row.named cells) (namesValue conflict) (updateValue update) =
      .ok ⟨c.dialect, .upsert, .insert {
        table := c.table table
        columns := cells.map (·.1)
        rows := [cells.map (·.2)]
        conflict := some (clause c.dialect conflict (updateNames cells conflict update)) }⟩ := by
  rw [upsert, if_pos hnative]
  exact bind_eq_ok.2 ⟨_, (upsertColumns_named cells conflict update).resolve_right (fun h => h.1 U) |>.2,
    bind_eq_ok.2 ⟨_, insertion_named hnodup U.nonempty c table, bind_eq_ok.2 ⟨_, ofValues_names _ _ _, rfl⟩⟩⟩

theorem update_named {q : Query} {given : List (String × Value)} (hne : given ≠ []) {c : Compiler} {chain : Chain}
    (hreach : c.reach q q.visibility = .ok chain) (operation : Operation) :
    c.update q (Row.named given) operation = .ok ⟨c.dialect, operation, .update
      ⟨c.table q.table, given.map fun (column, value) => (column, .value value), chain⟩⟩ := by
  have hsome : (Row.named given).isEmpty = false := by
    cases given with
    | nil => exact absurd rfl hne
    | cons => rfl
  rw [update, hsome, if_neg Bool.false_ne_true]
  refine bind_eq_ok.2 ⟨_, mapM_eq_ok.2 ?_, bind_eq_ok.2 ⟨_, hreach, rfl⟩⟩
  rw [Row.named, List.forall₂_map_left_iff, List.forall₂_map_right_iff]
  exact List.forall₂_same.2 fun _ _ => rfl

end Compiler

/-! ### The row that is there -/

/-- The filters by which an upsert in steps finds the row that is there. -/
def keyFilters (cells : List (String × Value)) (conflict : List String) : List Filter :=
  conflict.map fun column => .basic column "=" (cellOf cells column) .and

/-- The query for that row. -/
def keyQuery (table : String) (cells : List (String × Value)) (conflict : List String) : Query where
  table := table
  filters := keyFilters cells conflict
  visibility := .withTrashed

theorem conflictQuery_named (table : String) (cells : List (String × Value)) (conflict : List String) :
    Query.conflictQuery table (Row.named cells) (conflict.map .text) = .ok (keyQuery table cells conflict) := by
  have hfilters : (conflict.map Value.text).mapM (fun column =>
      return Filter.basic (← textField "column" column) "=" ((Row.named cells).cell column) .and) =
        (Except.ok (keyFilters cells conflict) : Except Failure _) := by
    rw [mapM_eq_ok, keyFilters, List.forall₂_map_left_iff, List.forall₂_map_right_iff]
    refine List.forall₂_same.2 fun column _ => ?_
    rw [Row.cell_named]
    rfl
  exact bind_eq_ok.2 ⟨_, hfilters, rfl⟩

theorem Compiler.filterChain_keys (c : Compiler) (cells : List (String × Value)) (conflict : List String) :
    ∃ chain, c.filterChain (keyFilters cells conflict) = .ok chain := by
  have hequal : Operator.ofValue (.text "=") = .ok .equal := by rfl
  induction conflict with
  | nil => exact ⟨[], by rw [keyFilters, List.map_nil, filterChain]; rfl⟩
  | cons column conflict ih =>
      obtain ⟨chain, hchain⟩ := ih
      rw [keyFilters] at hchain ⊢
      rw [List.map_cons, filterChain, condition?, hequal, hchain]
      exact ⟨_, rfl⟩

theorem Compiler.whereChain_keys (c : Compiler) (cells : List (String × Value)) (conflict : List String) :
    ∃ chain, c.whereChain (keyFilters cells conflict) .withTrashed [] "" = .ok chain := by
  obtain ⟨chain, hchain⟩ := c.filterChain_keys cells conflict
  have hadded : c.addedConditions [] .withTrashed "" = .ok [] := by
    rw [addedConditions]
    cases c.softDelete <;> rfl
  exact ⟨_, bind_eq_ok.2 ⟨_, hadded, bind_eq_ok.2 ⟨_, hchain, rfl⟩⟩⟩

/-- The truth of a test for a value in the place of a key, null among them. -/
def Collation.keyTruth (C : Collation) (cell value : Value) : Truth :=
  if value.isNull then if cell.isNull then .yes else .no else C.compared .equal cell value

namespace Engine

variable (E : Engine) {c : Compiler}

theorem comparisonTruth_key (d : Dialect) {column : String} (hcolumn : PlainColumn column) (value : Value) (row : Row) :
    comparisonTruth d (E.truth row) (Fragment.reference column) .equal value = E.keyTruth (row.get column) value := by
  cases hnull : value.isNull with
  | false =>
      rw [E.comparisonTruth_plain d hcolumn (by decide) (by decide) hnull, Collation.keyTruth, hnull,
        if_neg Bool.false_ne_true]
  | true =>
      obtain rfl : value = .null := by cases value <;> first | rfl | cases hnull
      have htest : comparisonTruth d (E.truth row) (Fragment.reference column) .equal .null =
          E.truth row (Atom.nullTest d (Fragment.reference column) false) := rfl
      rw [htest, hcolumn.reference_eq, E.nullTest, Collation.keyTruth]
      cases (row.get column).isNull <;> rfl

theorem truths_keys (d : Dialect) (cells : List (String × Value)) {conflict : List String}
    (hplain : ∀ column ∈ conflict, PlainColumn column) (row : Row) :
    Filter.truths d (E.truth row) (keyFilters cells conflict) =
      (conflict.map fun column => E.keyTruth (row.get column) (cellOf cells column)).map fun t => (.and, t) := by
  have hequal : Operator.ofText? "=" = some .equal := by decide
  induction conflict with
  | nil => rfl
  | cons column conflict ih =>
      obtain ⟨hcolumn, hrest⟩ := List.forall_mem_cons.1 hplain
      rw [List.map_cons, List.map_cons, ← ih hrest, ← E.comparisonTruth_key d hcolumn]
      simp [keyFilters, Filter.truths, Filter.truth?, hequal, Filter.connective]

/-- The rows that are found share the conflict columns with the new row. -/
theorem meets_keys {chain : Chain} (hkeyed : conflict ≠ [])
    (hplain : ∀ column ∈ conflict, PlainColumn column)
    (hnull : ∀ column ∈ conflict, (cellOf cells column).isNull = false)
    (h : c.whereChain (keyFilters cells conflict) .withTrashed [] "" = .ok chain) (row : Row) :
    E.meets c.dialect chain row = E.agrees conflict cells row := by
  have hvisible : visibilityTruth c.dialect (E.truth row) c.softDelete .withTrashed "" = .yes := by
    cases c.softDelete <;> rfl
  have hkeys : (conflict.map fun column => E.keyTruth (row.get column) (cellOf cells column)) =
      conflict.map fun column => E.compared .equal (row.get column) (cellOf cells column) := by
    refine List.map_congr_left fun column hcolumn => ?_
    rw [Collation.keyTruth, hnull column hcolumn, if_neg Bool.false_ne_true]
  refine Bool.eq_iff_iff.2 ?_
  rw [E.meets_whereChain h, hvisible, E.truths_keys c.dialect cells hplain, hkeys, Truth.chain_all, scopeTruths,
    List.map_nil, Truth.all_nil, Truth.yes_and, Truth.yes_and, Truth.all_eq_yes_iff, Collation.agrees]
  simp [hkeyed]

end Engine

namespace Collation

/-- Whether no two rows share columns, null apart. -/
def Unique (C : Collation) (columns : List String) (rows : List Row) : Prop :=
  rows.Pairwise fun a b => ¬∀ column ∈ columns, C.compared .equal (a.get column) (b.get column) = .yes

instance (C : Collation) (columns : List String) (rows : List Row) : Decidable (C.Unique columns rows) :=
  inferInstanceAs (Decidable (List.Pairwise _ _))

theorem compared_equal (C : Collation) {a b : Value} :
    C.compared .equal a b = .yes ↔ a.isNull = false ∧ b.isNull = false ∧ C.order a b = .eq := by
  rw [compared]
  cases a.isNull <;> cases b.isNull <;> cases C.order a b <;> decide

/-- Two rows that agree with the same cells share the columns. -/
theorem shared_of_agrees (C : Collation) {a b : Row} (ha : C.agrees conflict cells a = true)
    (hb : C.agrees conflict cells b = true) :
    ∀ column ∈ conflict, C.compared .equal (a.get column) (b.get column) = .yes := by
  have hlawful := C.lawful
  rw [agrees, Bool.and_eq_true, List.all_eq_true] at ha hb
  intro column hcolumn
  obtain ⟨hanull, -, hacell⟩ := C.compared_equal.1 (of_decide_eq_true (ha.2 column hcolumn))
  obtain ⟨hbnull, -, hbcell⟩ := C.compared_equal.1 (of_decide_eq_true (hb.2 column hcolumn))
  exact C.compared_equal.2 ⟨hanull, hbnull, Std.TransCmp.eq_trans hacell (Std.OrientedCmp.eq_symm hbcell)⟩

end Collation

namespace Engine

/-- Where at most one row passes the test, changing the first is changing all. -/
theorem changeFirst_eq_map {test : Row → Bool} {rows : List Row}
    (h : rows.Pairwise fun a b => ¬(test a = true ∧ test b = true)) (change : Row → Row) :
    changeFirst test change rows = rows.map fun row => if test row then change row else row := by
  induction rows with
  | nil => rfl
  | cons row rows ih =>
      obtain ⟨hfirst, hrest⟩ := List.pairwise_cons.1 h
      rw [changeFirst, List.map_cons]
      cases htest : test row with
      | false => rw [if_neg Bool.false_ne_true, if_neg Bool.false_ne_true, ih hrest]
      | true =>
          rw [if_pos rfl, if_pos rfl]
          refine congrArg (change row :: ·) ((List.map_id rows).symm.trans (List.map_congr_left fun other hother => ?_))
          rw [if_neg fun hpass => hfirst other hother ⟨htest, hpass⟩]
          rfl

variable (E : Engine) {table : String} {store : Store}

/-- The rows of a table after an upsert in steps: those that are there are overwritten, and where there is none the new
row is added. -/
def stepped (found : Row → Bool) (cells : List (String × Value)) (names : List String) (rows : List Row) : List Row :=
  if rows.any found then rows.map fun row => if found row then overwritten (cellsOf cells names) row else row
  else rows ++ [E.stored cells]

/-- The rows of a table after an upsert, where rows do not share the conflict columns. -/
theorem upserted_unique (hkeyed : conflict ≠ []) {rows : List Row} (hunique : E.Unique conflict rows)
    (cells : List (String × Value)) (table : String) (update : List String) :
    E.upserted table ⟨conflict, update⟩ rows cells = E.stepped (E.agrees conflict cells) cells update rows := by
  have htarget : E.target table ⟨conflict, update⟩ = conflict := if_neg (by simpa using hkeyed)
  rw [upserted, htarget]
  refine congrArg (fun changed => if rows.any (E.agrees conflict cells) then changed else _) (changeFirst_eq_map ?_ _)
  exact hunique.imp fun hshared hboth => hshared (E.shared_of_agrees hboth.1 hboth.2)

theorem zip_cells (cells : List (String × Value)) : (cells.map (·.1)).zip (cells.map (·.2)) = cells := by
  rw [List.zip_map']
  exact List.map_id cells

theorem effect_insert (d : Dialect) (operation : Operation) (cells : List (String × Value)) (store : Store) :
    E.effect ⟨d, operation, .insert { table, columns := cells.map (·.1), rows := [cells.map (·.2)] }⟩ store =
      put table (store table ++ [E.stored cells]) store := by
  rw [effect]
  simp only [List.map_singleton, zip_cells]

theorem effect_upsert {d : Dialect} (hkeyed : conflict ≠ []) (htarget : d = .mysql → E.unique table = conflict)
    (cells : List (String × Value)) (update : List String) (store : Store) :
    E.effect ⟨d, .upsert, .insert {
        table
        columns := cells.map (·.1)
        rows := [cells.map (·.2)]
        conflict := some (Compiler.clause d conflict update) }⟩ store =
      put table (E.upserted table ⟨conflict, update⟩ (store table) cells) store := by
  have hfound : E.target table (Compiler.clause d conflict update) = E.target table ⟨conflict, update⟩ := by
    have hnamed : E.target table ⟨conflict, update⟩ = conflict := if_neg (by simpa using hkeyed)
    rw [hnamed, Compiler.clause]
    split
    · exact htarget ‹_›
    · exact hnamed
  rw [effect]
  simp only [List.map_singleton, zip_cells, List.foldl_cons, List.foldl_nil]
  rw [upserted, hfound]
  rfl

theorem effect_update (d : Dialect) (operation : Operation) (table : String) (given : List (String × Value))
    (chain : Chain) (store : Store) :
    E.effect ⟨d, operation, .update ⟨table, given.map fun (column, value) => (column, .value value), chain⟩⟩ store =
      put table ((store table).map fun row => if E.meets d chain row then overwritten given row else row) store := by
  have hassigned : E.assigned (given.map fun (column, value) => (column, .value value)) = overwritten given := by
    funext row
    rw [assigned, List.map_map]
    exact congrArg (overwritten · row) (List.map_id given)
  rw [← hassigned]
  rfl

end Engine

/-! ### The steps -/

theorem updateNames_nodup {update : Option (List String)} (hnodup : (cells.map (·.1)).Nodup)
    (hupdate : ∀ names, update = some names → names.Nodup) : (updateNames cells conflict update).Nodup := by
  cases update with
  | none => exact hnodup.filter _
  | some names => exact hupdate names rfl

namespace Query

variable {db : Access (Session σ)} {holds : World σ → Store → Prop} {q : Query} {update : Option (List String)}

theorem known_ok_bind {α β : Type} (a : α) (k : α → Session σ β) : (known (.ok a) : Session σ α) >>= k = k a := rfl

theorem hasCounted_number {r : Result} {n : Nat} (h : r.rows = [[(.text "c", .int n)]]) :
    hasCounted r = .ok (decide (0 < (n : Int))) := by
  have hget : ∀ v, Row.get "c" [(.text "c", v)] = v := fun v => by simp [Row.get, Value.field?]
  rw [hasCounted, h]
  dsimp only
  rw [hget, Value.toCount_int]
  rfl

theorem counting_named {chain : Chain} (h : c.whereChain (keyFilters cells conflict) .withTrashed c.scope "" = .ok chain)
    (table : String) :
    ∃ s, c.selection { keyQuery table cells conflict with columns := [.text "COUNT(1) AS c"] } = .ok s ∧
      ∀ (E : Engine) (d : Dialect) (store : Store),
        E.answer d s store =
          [[(.text "c", .int ((store (c.table table)).filter (E.meets d chain)).length)]] := by
  have hprojection : Compiler.projection [.text "COUNT(1) AS c"] = .ok Engine.counting := by rfl
  refine ⟨{ projection := Engine.counting, table := c.table table, condition := chain }, ?_, fun _ _ _ => rfl⟩
  exact bind_eq_ok.2 ⟨_, hprojection, bind_eq_ok.2 ⟨[], rfl, bind_eq_ok.2 ⟨_, h, rfl⟩⟩⟩

/-- The statements of an upsert in steps: the count, and what may follow it. -/
inductive Stepping (c : Compiler) (table : String) (cells : List (String × Value)) (conflict : List String)
    (update : Option (List String)) : Statement → Prop
  | counting {s : Statement}
      (h : c.select { keyQuery table cells conflict with columns := [.text "COUNT(1) AS c"] } = .ok s) :
      Stepping c table cells conflict update s
  | changing {s : Statement}
      (h : c.update (keyQuery table cells conflict) (Row.named (cellsOf cells (updateNames cells conflict update)))
        .upsert = .ok s) : Stepping c table cells conflict update s
  | inserting {s : Statement} (h : c.insert table [Row.named cells] = .ok s) :
      Stepping c table cells conflict update { s with operation := .upsert }

/-- The statement that follows the count, and what it leaves. Columns that are named twice are written once. -/
theorem changing_named (E : Engine) {table : String} (U : Upsertable cells conflict update)
    (hcells : (cells.map (·.1)).Nodup) {names : List String}
    (htaken : Value.ofEntries (Row.named (cellsOf cells names)) =
      Row.named (cellsOf cells (updateNames cells conflict update))) {chain : Chain}
    (hreach : c.reach (keyQuery table cells conflict) .withTrashed = .ok chain) (store : Store) :
    ∃ s, Stepping c table cells conflict update s ∧
      (if (store (c.table table)).any (E.meets c.dialect chain) then
          c.update (keyQuery table cells conflict) (Value.ofEntries
            ((names.map Value.text).map fun column => (column, (Row.named cells).cell column))) .upsert
        else (c.insert table [Row.named cells]).map fun s => { s with operation := .upsert }) = .ok s ∧
      E.effect s store = Engine.put (c.table table)
        (E.stepped (E.meets c.dialect chain) cells (updateNames cells conflict update) (store (c.table table))) store := by
  rw [Engine.stepped]
  cases hfound : (store (c.table table)).any (E.meets c.dialect chain) with
  | true =>
      have hsome : cellsOf cells (updateNames cells conflict update) ≠ [] := by simpa [cellsOf] using U.updating
      have hcompiled := Compiler.update_named hsome hreach .upsert
      rw [Row.map_cell_named, htaken]
      exact ⟨_, .changing hcompiled, (if_pos rfl).trans hcompiled, E.effect_update ..⟩
  | false =>
      have hcompiled : c.insert table [Row.named cells] = .ok ⟨c.dialect, .insert, .insert
          { table := c.table table, columns := cells.map (·.1), rows := [cells.map (·.2)] }⟩ :=
        bind_eq_ok.2 ⟨_, Compiler.insertion_named hcells U.nonempty c table, rfl⟩
      refine ⟨_, .inserting hcompiled, ?_, E.effect_insert c.dialect .upsert cells store⟩
      rw [if_neg Bool.false_ne_true, hcompiled]
      rfl

/-- An upsert in steps overwrites the rows that its count has found, or adds the new one. -/
theorem upsertInSteps_found (S : E.Serves db q.table q.timeout c (Stepping c q.table cells conflict update) holds)
    (U : Upsertable cells conflict update) (hcells : (cells.map (·.1)).Nodup) {names : List String}
    (htaken : Value.ofEntries (Row.named (cellsOf cells names)) =
      Row.named (cellsOf cells (updateNames cells conflict update))) {chain : Chain}
    (h : c.whereChain (keyFilters cells conflict) .withTrashed c.scope "" = .ok chain) (store : Store) :
    ∃ n, ∀ {w}, holds w store → ∃ w',
      outcome (upsertInSteps db q (Row.named cells) (conflict.map .text) (names.map .text)) w = (.ok n, w') ∧
        holds w' (Engine.put (c.table q.table) (E.stepped (E.meets c.dialect chain) cells
          (updateNames cells conflict update) (store (c.table q.table))) store) := by
  obtain ⟨counting, hcounting, hanswer⟩ := counting_named h q.table
  obtain ⟨changing, hstepping, hchanging, heffect⟩ := changing_named E U hcells htaken h store
  have hselect : c.select { keyQuery q.table cells conflict with columns := [.text "COUNT(1) AS c"] } =
      .ok ⟨c.dialect, .select, .select counting⟩ := bind_eq_ok.2 ⟨counting, hcounting, rfl⟩
  refine ⟨(E.result changing store).rowcount, fun {w} hholds => ?_⟩
  obtain ⟨w₁, hcompiler, hholds₁⟩ := S.compiler hholds
  obtain ⟨w₂, hcounted, hholds₂⟩ := S.run (.counting hselect) hholds₁
  obtain ⟨w₃, hchanged, hholds₃⟩ := S.run hstepping hholds₂
  -- the count changes nothing, so the change finds the rows that were counted
  have hkept : E.effect ⟨c.dialect, .select, .select counting⟩ store = store := rfl
  rw [hkept] at hchanged hholds₃
  rw [heffect] at hholds₃
  refine ⟨w₃, ?_, hholds₃⟩
  have hcount : hasCounted (E.result ⟨c.dialect, .select, .select counting⟩ store) =
      .ok ((store (c.table q.table)).any (E.meets c.dialect chain)) := by
    rw [hasCounted_number (hanswer E c.dialect store)]
    refine congrArg Except.ok (Bool.eq_iff_iff.2 ?_)
    rw [decide_eq_true_iff, Int.natCast_pos, List.length_pos_iff_exists_mem, List.any_eq_true]
    exact exists_congr fun row => List.mem_filter
  rw [upsertInSteps, outcome_bind_ok hcompiler, conflictQuery_named, known_ok_bind, hselect, known_ok_bind,
    outcome_bind_ok hcounted, hcount, known_ok_bind]
  cases hfound : (store (c.table q.table)).any (E.meets c.dialect chain) with
  | true =>
      rw [hfound, if_pos rfl] at hchanging
      rw [if_pos rfl, hchanging, known_ok_bind, outcome_bind_ok hchanged, outcome_pure]
  | false =>
      rw [hfound, if_neg Bool.false_ne_true] at hchanging
      rw [if_neg Bool.false_ne_true, hchanging, known_ok_bind, outcome_bind_ok hchanged, outcome_pure]

/-- An upsert in steps leaves the rows that one statement would leave. -/
theorem upsertInSteps_served (S : E.Serves db q.table q.timeout c (Stepping c q.table cells conflict update) holds)
    (hscope : c.scope = []) (U : Upsertable cells conflict update) (hcells : (cells.map (·.1)).Nodup)
    (hnames : (updateNames cells conflict update).Nodup) (hplain : ∀ column ∈ conflict, PlainColumn column)
    (hnull : ∀ column ∈ conflict, (cellOf cells column).isNull = false) {store : Store}
    (hunique : E.Unique conflict (store (c.table q.table))) :
    ∃ n, ∀ {w}, holds w store → ∃ w',
      outcome (upsertInSteps db q (Row.named cells) (conflict.map .text)
          ((updateNames cells conflict update).map .text)) w = (.ok n, w') ∧
        holds w' (Engine.put (c.table q.table)
          (E.upserted (c.table q.table) ⟨conflict, updateNames cells conflict update⟩ (store (c.table q.table)) cells)
          store) := by
  obtain ⟨chain, hchain⟩ := c.whereChain_keys cells conflict
  have hmeets : E.meets c.dialect chain = E.agrees conflict cells :=
    funext (E.meets_keys U.keyed hplain hnull hchain)
  rw [← hscope] at hchain
  rw [E.upserted_unique U.keyed hunique, ← hmeets]
  exact upsertInSteps_found S U hcells (Row.ofEntries_named (by rwa [map_cellsOf])) hchain store

theorem upsert_served (S : E.Serves db q.table q.timeout c
      (fun s => c.upsert q.table (Row.named cells) (namesValue conflict) (updateValue update) = .ok s) holds)
    (hnative : c.dialect.hasUpsert = true) (htarget : c.dialect = .mysql → E.unique (c.table q.table) = conflict)
    (U : Upsertable cells conflict update) (hcells : (cells.map (·.1)).Nodup) {w : World σ} {store : Store}
    (hholds : holds w store) :
    ∃ n w', outcome (upsert db q (Row.named cells) (namesValue conflict) (updateValue update)) w = (.ok n, w') ∧
      holds w' (Engine.put (c.table q.table)
        (E.upserted (c.table q.table) ⟨conflict, updateNames cells conflict update⟩ (store (c.table q.table)) cells)
        store) := by
  have hcompiled := Compiler.upsert_named U hcells hnative q.table
  obtain ⟨w', hperformed, hholds'⟩ := perform_served S hholds
    (·.upsert q.table (Row.named cells) (namesValue conflict) (updateValue update)) hcompiled hcompiled
  rw [E.effect_upsert U.keyed htarget] at hholds'
  generalize E.result _ store = r at hperformed
  have hcolumns := ((Compiler.upsertColumns_named cells conflict update).resolve_right fun h => h.1 U).2
  refine ⟨r.rowcount, w', ?_, hholds'⟩
  rw [upsert, hcolumns, known_ok_bind, S.dialect, if_pos hnative, outcome_bind_ok hperformed, outcome_pure]

/-- An upsert that has what it needs goes in steps where the dialect has no statement for it. -/
theorem upsert_stepped (db : Access (Session σ)) (hsteps : db.dialect.hasUpsert = false) (q : Query)
    (U : Upsertable cells conflict update) :
    upsert db q (Row.named cells) (namesValue conflict) (updateValue update) =
      db.transaction (upsertInSteps db q (Row.named cells) (conflict.map .text)
        ((updateNames cells conflict update).map .text)) := by
  have hcolumns := ((Compiler.upsertColumns_named cells conflict update).resolve_right fun h => h.1 U).2
  have hmembers : (namesValue conflict).members = .ok (conflict.map .text) := rfl
  rw [upsert, hcolumns, known_ok_bind, hsteps, if_neg Bool.false_ne_true, hmembers, known_ok_bind]

/-- An upsert that lacks something is refused, and nothing is done. -/
theorem upsert_refused (db : Access (Session σ)) (q : Query) (w : World σ) {invalid : Invalid}
    (h : Compiler.upsertColumns (Row.named cells) (namesValue conflict) (updateValue update) =
      .error (.invalid invalid)) :
    outcome (upsert db q (Row.named cells) (namesValue conflict) (updateValue update)) w =
      (.error (.invalid invalid), w) := by
  rw [upsert, h]
  rfl

/-! ### Two databases -/

/-- Cells of a key and a value. -/
def keyedCells (key : String) (n v : Int) : List (String × Value) := [(key, .int n), ("v", .int v)]

/-- An upsert of the cells 1 and 2 through a database of a dialect. -/
def upsertKeyed (d : Dialect) (read : String → List Value → Option Statement) (key : String) : Session Store Value :=
  upsert ((Engine.simple.database d read).access {}) { table := "t" } (Row.named (keyedCells key 1 2))
    (namesValue [key]) (updateValue none)

/-- What a driver reads in the one statement of that upsert. -/
def wholeStatement (key : String) : Option Statement :=
  ((Engine.plainCompiler .sqlite []).upsert "t" (Row.named (keyedCells key 1 2)) (namesValue [key])
    (updateValue none)).toOption

/-- What a driver reads in the statements of the upsert in steps, as told from their parameters. -/
def steppingStatement (key : String) (params : List Value) : Option Statement :=
  let c := Engine.plainCompiler .ansi []
  match params with
  | [_] => (c.select { keyQuery "t" (keyedCells key 1 2) [key] with columns := [.text "COUNT(1) AS c"] }).toOption
  | [.int 2, _] =>
    (c.update (keyQuery "t" (keyedCells key 1 2) [key])
      (Row.named (cellsOf (keyedCells key 1 2) (updateNames (keyedCells key 1 2) [key] none))) .upsert).toOption
  | [.int 1, _] =>
    (c.insert "t" [Row.named (keyedCells key 1 2)]).toOption.map fun s => { s with operation := .upsert }
  | _ => none

theorem steppingStatement_stepping {key : String} (hkey : key = "id" ∨ key = "t.id") {s : Statement}
    (h : Stepping (Engine.plainCompiler .ansi []) "t" (keyedCells key 1 2) [key] none s) :
    steppingStatement key s.params = some s := by
  cases h with
  | counting hcompiled =>
      have hparams : s.params = [.int 1] := by
        refine (select_shows hcompiled).params_eq.trans ?_
        rcases hkey with rfl | rfl <;> rfl
      rw [hparams]
      exact congrArg Except.toOption hcompiled
  | changing hcompiled =>
      have hparams : s.params = [.int 2, .int 1] := by
        refine (update_shows hcompiled).params_eq.trans ?_
        rcases hkey with rfl | rfl <;> rfl
      rw [hparams]
      exact congrArg Except.toOption hcompiled
  | inserting hcompiled =>
      rename_i s'
      have hparams : s'.params = [.int 1, .int 2] := by
        refine (insert_shows hcompiled).params_eq.trans ?_
        rcases hkey with rfl | rfl <;> rfl
      change steppingStatement key s'.params = _
      rw [hparams]
      exact congrArg (fun o => o.toOption.map fun s : Statement => { s with operation := .upsert }) hcompiled

theorem serves_whole (key : String) :
    Engine.simple.Serves ((Engine.simple.database .sqlite fun _ _ => wholeStatement key).access {}) "t" none
      (Engine.plainCompiler .sqlite []) (fun s => (Engine.plainCompiler .sqlite []).upsert "t"
        (Row.named (keyedCells key 1 2)) (namesValue [key]) (updateValue none) = .ok s) (Database.Holds id fun _ => none) :=
  Engine.simple.serves_database .sqlite [] "t" fun hcompiled => by rw [wholeStatement, hcompiled]; rfl

theorem serves_stepping {key : String} (hkey : key = "id" ∨ key = "t.id") :
    Engine.simple.Serves ((Engine.simple.database .ansi fun _ => steppingStatement key).access {}) "t" none
      (Engine.plainCompiler .ansi []) (Stepping (Engine.plainCompiler .ansi []) "t" (keyedCells key 1 2) [key] none)
      (Database.Holds id fun _ => none) :=
  Engine.simple.serves_database .ansi [] "t" fun hstepping => steppingStatement_stepping hkey hstepping

/-! ### Both ways -/

variable {τ : Type} {db' : Access (Session τ)} {c' : Compiler} {holds' : World τ → Store → Prop}

/-- Where rows do not share the conflict columns, which are plain and not null in the new row, an upsert in one statement
and one in steps leave the same rows: those of the statement. Where something is missing, both are refused for the same
reason, and nothing is done. -/
theorem upsert_agrees
    (S : E.Serves db q.table q.timeout c
      (fun s => c.upsert q.table (Row.named cells) (namesValue conflict) (updateValue update) = .ok s) holds)
    (S' : E.Serves db' q.table q.timeout c' (Stepping c' q.table cells conflict update) holds')
    (hnative : c.dialect.hasUpsert = true) (hsteps : c'.dialect.hasUpsert = false) (hscope : c'.scope = [])
    (htable : c'.table q.table = c.table q.table)
    (htarget : c.dialect = .mysql → E.unique (c.table q.table) = conflict)
    (hcells : (cells.map (·.1)).Nodup) (hnull : ∀ cell ∈ cells, cell.1 ∈ conflict → cell.2.isNull = false)
    (hupdate : ∀ names, update = some names → names.Nodup) {w : World σ} {w' : World τ} {store : Store}
    (hholds : holds w store) (hholds' : holds' w' store) (hunique : E.Unique conflict (store (c.table q.table))) :
    let once := upsert db q (Row.named cells) (namesValue conflict) (updateValue update)
    let inSteps := upsert db' q (Row.named cells) (namesValue conflict) (updateValue update)
    (Upsertable cells conflict update → (∀ column ∈ conflict, PlainColumn column) →
      ∃ n n' v v' rows, outcome once w = (.ok n, v) ∧ outcome inSteps w' = (.ok n', v') ∧
        rows = E.upserted (c.table q.table) ⟨conflict, updateNames cells conflict update⟩ (store (c.table q.table)) cells ∧
        holds v (Engine.put (c.table q.table) rows store) ∧ holds' v' (Engine.put (c.table q.table) rows store)) ∧
    (¬Upsertable cells conflict update →
      ∃ invalid, outcome once w = (.error (.invalid invalid), w) ∧
        outcome inSteps w' = (.error (.invalid invalid), w')) := by
  intro once inSteps
  constructor
  · intro U hplain
    obtain ⟨n, v, honce, hleft⟩ := upsert_served S hnative htarget U hcells hholds
    have hkeys : ∀ column ∈ conflict, (cellOf cells column).isNull = false := by
      intro column hcolumn
      obtain ⟨cell, hcell, rfl⟩ := List.mem_map.1 (U.keysIn column hcolumn)
      rw [cellOf_of_mem hcells hcell]
      exact hnull cell hcell hcolumn
    rw [← htable] at hunique
    obtain ⟨n', htransaction⟩ := upsertInSteps_served S' hscope U hcells (updateNames_nodup hcells hupdate) hplain hkeys
      hunique
    obtain ⟨v', hinSteps, hleft'⟩ := S'.transaction htransaction hholds'
    rw [htable] at hleft'
    refine ⟨n, n', v, v', _, honce, ?_, rfl, hleft, hleft'⟩
    rw [show inSteps = upsert db' q _ _ _ from rfl, upsert_stepped db' (S'.dialect ▸ hsteps) q U, hinSteps]
  · intro hnot
    obtain ⟨invalid, hinvalid⟩ :=
      ((Compiler.upsertColumns_named cells conflict update).resolve_left fun h => hnot h.1).2
    exact ⟨invalid, upsert_refused db q w hinvalid, upsert_refused db' q w' hinvalid⟩

/-- The row with the key 1 is overwritten, in one statement and in steps. -/
theorem upsert_agrees_id :
    let store : Store := fun _ => [Row.named (keyedCells "id" 3 0), Row.named (keyedCells "id" 1 0)]
    ∃ n n' v v', outcome (upsertKeyed .sqlite (fun _ _ => wholeStatement "id") "id") { outside := store } = (.ok n, v) ∧
      outcome (upsertKeyed .ansi (fun _ => steppingStatement "id") "id") { outside := store } = (.ok n', v') ∧
      v.outside "t" = [Row.named (keyedCells "id" 3 0), Row.named (keyedCells "id" 1 2)] ∧
      v'.outside "t" = v.outside "t" := by
  intro store
  have U : Upsertable (keyedCells "id" 1 2) ["id"] none := ⟨by decide, by decide, by decide, by decide⟩
  have H := Engine.holds_start (fun _ => none) store
  obtain ⟨hagrees, -⟩ := upsert_agrees (q := { table := "t" }) (serves_whole "id") (serves_stepping (.inl rfl)) rfl rfl rfl
    rfl nofun (by decide) (by decide) nofun H H (by decide +kernel)
  obtain ⟨n, n', v, v', rows, honce, hinSteps, hrows, hleft, hleft'⟩ := hagrees U
    (List.forall_mem_singleton.2 ⟨by decide, by decide⟩)
  have hstored : v.outside "t" = rows := congrFun hleft.content "t"
  have hstored' : v'.outside "t" = rows := congrFun hleft'.content "t"
  refine ⟨n, n', v, v', honce, hinSteps, ?_, hstored'.trans hstored.symm⟩
  rw [hstored, hrows]
  rfl

/-- Steps look for a key with a dot in it as the column of a table: they miss the row that one statement overwrites. -/
theorem upsert_parts_key :
    let store : Store := fun _ => [Row.named (keyedCells "t.id" 1 0)]
    let once := upsertKeyed .sqlite (fun _ _ => wholeStatement "t.id") "t.id"
    let inSteps := upsertKeyed .ansi (fun _ => steppingStatement "t.id") "t.id"
    Upsertable (keyedCells "t.id" 1 2) ["t.id"] none ∧ Engine.simple.Unique ["t.id"] (store "t") ∧
      (ending once { outside := store }).isOk = true ∧ (ending inSteps { outside := store }).isOk = true ∧
      ((after once { outside := store }).outside "t").length = 1 ∧
      ((after inSteps { outside := store }).outside "t").length = 2 := by
  refine ⟨⟨by decide, by decide, by decide, by decide⟩, by decide +kernel, ?_, ?_, ?_, ?_⟩ <;> decide +kernel

end Query

end Polyquery
