import Polyquery.Proofs.Answers
import Polyquery.Proofs.Isolation
import Polyquery.Proofs.Words

/-! A database that carries out statements. Its tables hold rows, and a row meets a condition where the condition, read
off the text of the statement with its parameters, is true of the row. How values compare and how rows with equal keys
follow each other is up to the engine. Main statement: a row meets the condition of a statement exactly if the scope,
the visibility and the caller's filters are true of it. -/

namespace Polyquery

open Sql Session

/-- The rows of each table, under its name with the prefix. -/
abbrev Store := String → List Row

/-- A column that a reference names as a whole. -/
structure PlainColumn (column : String) : Prop where
  undotted : '.' ∉ column.toList
  unstarred : column ≠ "*"

namespace PlainColumn

variable {column : String}

theorem reference_eq (h : PlainColumn column) : Fragment.reference column = [.name column] := by
  rw [Fragment.reference, Text.splitDots_undotted h.undotted, List.map_singleton, if_neg h.unstarred]
  rfl

end PlainColumn

/-! ### Orders -/

/-- An order as a direction takes it. -/
def Direction.turned : Direction → Ordering → Ordering
  | ascending, o => o
  | descending, o => o.swap

namespace Sql

/-- Whether a comparison holds of two values in the given order; patterns are no matter of order. -/
def Operator.admits : Operator → Ordering → Bool
  | equal, o => o = .eq
  | notEqual, o | different, o => o ≠ .eq
  | less, o => o = .lt
  | atMost, o => o ≠ .gt
  | greater, o => o = .gt
  | atLeast, o => o ≠ .lt
  | like, _ | notLike, _ => false

/-- The rows in a window. -/
def Window.cut (w : Window) (rows : List Row) : List Row :=
  let rest := rows.drop (w.offset.getD 0).toNat
  match w.limit with
  | none => rest
  | some limit => rest.take limit.toNat

end Sql

/-- The cell behind the column that a reference names last. -/
def Row.referred (ref : String) (row : Row) : Value := row.get ((Text.splitDots ref).getLast?.getD ref)

/-- The cell of a column among cells, null when there is none. -/
def cellOf (cells : List (String × Value)) (column : String) : Value :=
  ((cells.find? (·.1 = column)).map (·.2)).getD .null

/-- The cells of columns among cells. -/
def cellsOf (cells : List (String × Value)) (columns : List String) : List (String × Value) :=
  columns.map fun column => (column, cellOf cells column)

/-- Cells as a row. -/
def Row.named (cells : List (String × Value)) : Row := cells.map fun (column, value) => (.text column, value)

theorem cellOf_of_mem {cells : List (String × Value)} (hnodup : (cells.map (·.1)).Nodup) {column : String} {value : Value}
    (hmem : (column, value) ∈ cells) : cellOf cells column = value := by
  induction cells with
  | nil => cases hmem
  | cons cell cells ih =>
      obtain ⟨hnew, hrest⟩ := List.nodup_cons.1 hnodup
      rcases List.mem_cons.1 hmem with rfl | hmem
      · simp [cellOf]
      · have hne : cell.1 ≠ column := fun heq => hnew (List.mem_map.2 ⟨(column, value), hmem, heq.symm⟩)
        rw [cellOf, List.find?_cons_of_neg (by simpa using hne)]
        exact ih hrest hmem

theorem Row.get_named (cells : List (String × Value)) (column : String) : (named cells).get column = cellOf cells column := by
  induction cells with
  | nil => rfl
  | cons cell cells ih =>
      obtain ⟨name, value⟩ := cell
      rw [Row.get, Value.field?, named, cellOf] at ih ⊢
      rw [List.map_cons, List.find?_cons, List.find?_cons]
      dsimp only
      cases decide (name = column) with
      | true => rfl
      | false => exact ih

theorem Row.columns_named (cells : List (String × Value)) : (named cells).columns = (cells.map (·.1)).map .text := by
  rw [columns, named, List.map_map, List.map_map]
  rfl

theorem Value.same_text (a b : String) : same (.text a) (.text b) = decide (a = b) := by
  rw [same]

theorem Row.has_named (cells : List (String × Value)) (column : String) :
    (named cells).has (.text column) = decide (column ∈ cells.map (·.1)) := by
  induction cells with
  | nil => rfl
  | cons cell cells ih =>
      obtain ⟨name, value⟩ := cell
      have hcons : (named ((name, value) :: cells)).has (.text column) =
          (Value.same (.text name) (.text column) || (named cells).has (.text column)) := rfl
      rw [hcons, Value.same_text, ih, ← Bool.decide_or]
      exact decide_eq_decide.2 (by simp [eq_comm])

theorem Row.cell_named (cells : List (String × Value)) (column : String) :
    (named cells).cell (.text column) = cellOf cells column := by
  induction cells with
  | nil => rfl
  | cons cell cells ih =>
      obtain ⟨name, value⟩ := cell
      rw [Row.cell, named, cellOf] at ih ⊢
      rw [List.map_cons, List.find?_cons, List.find?_cons]
      dsimp only
      rw [Value.same_text]
      cases decide (name = column) with
      | true => rfl
      | false => exact ih

theorem Row.get_cons (key value : Value) (row : Row) (column : String) :
    Row.get column ((key, value) :: row) = if key.same (.text column) then value else row.get column := by
  rw [get, Value.field?, List.find?_cons, get, Value.field?]
  cases key with
  | text name =>
      rw [Value.same]
      dsimp only
      cases decide (name = column) <;> rfl
  | _ => simp [Value.same]

theorem Row.get_putEntry (name column : String) (value : Value) (row : Row) :
    Row.get column (Value.putEntry (.text name) value row) = if column = name then value else row.get column := by
  induction row with
  | nil => simp [Value.putEntry, get_cons, Value.same, eq_comm]
  | cons cell row ih =>
      obtain ⟨key, held⟩ := cell
      rw [Value.putEntry]
      by_cases hkey : key.same (.text name) = true
      · obtain rfl : key = .text name := by
          cases key with
          | text other => simpa [Value.same] using hkey
          | _ => simp [Value.same] at hkey
        by_cases h : column = name
        · simp [get_cons, Value.same, h]
        · simp [get_cons, Value.same, h, Ne.symm h]
      · have hname : key.same (.text column) = true → column ≠ name := by
          rintro hcolumn rfl
          exact hkey hcolumn
        rw [if_neg hkey, get_cons, ih, get_cons]
        split
        · exact (if_neg (hname ‹_›)).symm
        · rfl

/-- How values compare. -/
structure Collation where
  order : Value → Value → Ordering
  lawful : Std.TransCmp order

namespace Collation

/-- The truth of a comparison; it is unknown of null. -/
def compared (C : Collation) (op : Operator) (a b : Value) : Truth :=
  if a.isNull || b.isNull then .unknown else if op.admits (C.order a b) then .yes else .no

/-- Two rows in the order of terms, the first of which counts most. -/
def byTerms (C : Collation) : List (String × Direction) → Row → Row → Ordering
  | [], _, _ => .eq
  | (ref, direction) :: rest, a, b =>
    (direction.turned (C.order (a.referred ref) (b.referred ref))).then (C.byTerms rest a b)

/-- Whether a row has the given cells in columns: non-null ones, of which there is at least one. -/
def agrees (C : Collation) (columns : List String) (cells : List (String × Value)) (row : Row) : Bool :=
  !columns.isEmpty && columns.all fun column => C.compared .equal (row.get column) (cellOf cells column) = .yes

end Collation

/-- A database engine: its order of values, what conditions say of rows, how it arranges rows, and how it makes them. -/
structure Engine extends Collation where
  truth : Row → List Token → Truth
  comparison : ∀ (d : Dialect) (column : String) {op : Operator} (value : Value) (row : Row),
    op ≠ .like → op ≠ .notLike →
      truth row (Atom.comparison d [.name column] op value) = toCollation.compared op (row.get column) value
  nullTest : ∀ (d : Dialect) (column : String) (negated : Bool) (row : Row),
    truth row (Atom.nullTest d [.name column] negated) = if (row.get column).isNull = negated then .no else .yes
  arrange : List (String × Direction) → List Row → List Row
  arrange_perm : ∀ terms rows, (arrange terms rows).Perm rows
  arrange_sorted : ∀ terms rows, (arrange terms rows).Pairwise fun a b => toCollation.byTerms terms a b ≠ .gt
  project : List Projected → Row → Row
  project_everything : ∀ row, project [.column "*"] row = row
  /-- The row that is stored for the cells of an insertion. -/
  stored : List (String × Value) → Row
  stored_get : ∀ {cells column value}, (cells.map (·.1)).Nodup → (column, value) ∈ cells →
    (stored cells).get column = value
  /-- What an expression comes to on a row. -/
  evaluate : Row → Fragment → Value
  /-- The columns whose cells no two rows of a table share, where a statement does not name them. -/
  unique : String → List String
  /-- The rows of a selection from joined tables, or of groups. -/
  combined : Selection → Store → List Row

theorem Value.toCount_int (n : Int) : (Value.int n).toCount = .ok n := by
  rw [toCount]
  split
  · rfl
  · rename_i hzero
    obtain rfl : n = 0 := by simpa [isTruthy] using hzero
    rfl

namespace Engine

variable (E : Engine) {c : Compiler}

/-- Whether a row meets a condition, as it is read off its text. -/
def meets (d : Dialect) (condition : Chain) (row : Row) : Bool :=
  match readCondition d (condition.fragment.text d) condition.fragment.params with
  | some e => Expr.truth (E.truth row) e = .yes
  | none => false

/-- The rows that a selection from one table is about. -/
def found (d : Dialect) (s : Selection) (store : Store) : List Row := (store s.table).filter (E.meets d s.condition)

/-- The projection by which rows are counted. -/
def counting : List Projected := [.expression "COUNT(1) AS c"]

/-- The rows that a selection returns. -/
def answer (d : Dialect) (s : Selection) (store : Store) : List Row :=
  if s.joins.isEmpty && s.groupBy.isEmpty && s.having.isEmpty then
    let found := (store s.table).filter (E.meets d s.condition)
    if s.projection = counting then s.window.cut [[(.text "c", .int found.length)]]
    else (s.window.cut (E.arrange s.orderBy found)).map (E.project s.projection)
  else E.combined s store

/-- A store with other rows in one table. -/
def put (table : String) (rows : List Row) (store : Store) : Store := fun name =>
  if name = table then rows else store name

@[simp] theorem put_self (table : String) (rows : List Row) (store : Store) : put table rows store table = rows :=
  if_pos rfl

theorem put_other {table name : String} (h : name ≠ table) (rows : List Row) (store : Store) :
    put table rows store name = store name :=
  if_neg h

/-- A row with new cells. -/
def overwritten (cells : List (String × Value)) (row : Row) : Row := row.merge (.named cells)

/-- Cells in other columns stay as they are. -/
theorem get_overwritten_of_notMem {given : List (String × Value)} {column : String} (h : column ∉ given.map (·.1))
    (row : Row) : (overwritten given row).get column = row.get column := by
  induction given generalizing row with
  | nil => rfl
  | cons cell given ih =>
      rw [List.map_cons, List.mem_cons, not_or] at h
      exact (ih h.2 _).trans ((Row.get_putEntry ..).trans (if_neg h.1))

/-- A column for which all new cells agree has that cell. -/
theorem get_overwritten_of_mem {given : List (String × Value)} {column : String} {value : Value}
    (hmem : column ∈ given.map (·.1)) (h : ∀ cell ∈ given, cell.1 = column → cell.2 = value) (row : Row) :
    (overwritten given row).get column = value := by
  induction given generalizing row with
  | nil => cases hmem
  | cons cell given ih =>
      obtain ⟨hfirst, hrest⟩ := List.forall_mem_cons.1 h
      by_cases hlater : column ∈ given.map (·.1)
      · exact ih hlater hrest _
      · obtain rfl : column = cell.1 := (List.mem_cons.1 hmem).resolve_right hlater
        exact (get_overwritten_of_notMem hlater _).trans ((Row.get_putEntry ..).trans ((if_pos rfl).trans (hfirst rfl)))

/-- Rows of which the first one that passes a test is changed. -/
def changeFirst (test : Row → Bool) (change : Row → Row) : List Row → List Row
  | [] => []
  | row :: rest => if test row then change row :: rest else row :: changeFirst test change rest

/-- The columns by which an upsert finds the row that is there. -/
def target (table : String) (conflict : Conflict) : List String :=
  if conflict.columns.isEmpty then E.unique table else conflict.columns

/-- The rows of a table after an upsert of cells: the row that shares the conflict columns takes the update columns of
the new one, and without such a row the new one is added. -/
def upserted (table : String) (conflict : Conflict) (rows : List Row) (cells : List (String × Value)) : List Row :=
  let shares := E.agrees (E.target table conflict) cells
  if rows.any shares then changeFirst shares (overwritten (cellsOf cells conflict.update)) rows
  else rows ++ [E.stored cells]

/-- What becomes of a row by assignments. -/
def assigned (assignments : List (String × Assigned)) (row : Row) : Row :=
  overwritten (assignments.map fun (column, a) => (column, match a with
    | .value value => value
    | .expression f => E.evaluate row f)) row

/-- The store after a statement. -/
def effect (s : Statement) (store : Store) : Store :=
  match s.command with
  | .select _ => store
  | .insert i =>
    let cells := i.rows.map i.columns.zip
    match i.conflict with
    | none => put i.table (store i.table ++ cells.map E.stored) store
    | some conflict => put i.table (cells.foldl (E.upserted i.table conflict) (store i.table)) store
  | .update change =>
    let step row := if E.meets s.dialect change.condition row then E.assigned change.assignments row else row
    put change.table ((store change.table).map step) store
  | .delete removal =>
    put removal.table ((store removal.table).filter fun row => !E.meets s.dialect removal.condition row) store

/-- The rows that a statement brings back from a store, and how many it concerns there. -/
def result (s : Statement) (store : Store) : Result :=
  let count (n : Nat) : Result := { rowcount := .int n }
  match s.command with
  | .select selection =>
    let rows := E.answer s.dialect selection store
    { rows, rowcount := .int rows.length }
  | .insert i => count i.rows.length
  | .update change => count ((store change.table).filter (E.meets s.dialect change.condition)).length
  | .delete removal => count ((store removal.table).filter (E.meets s.dialect removal.condition)).length

/-! ### Meeting a condition -/

/-- A row meets the condition of a statement exactly if the scope, the visibility and the filters are true of it. -/
theorem meets_whereChain {filters : List Filter} {visibility : Visibility} {scope : Row} {chain : Chain}
    (h : c.whereChain filters visibility scope "" = .ok chain) (row : Row) :
    E.meets c.dialect chain row = true ↔
      ((Truth.all (scopeTruths c.dialect (E.truth row) scope "")).and
        (visibilityTruth c.dialect (E.truth row) c.softDelete visibility "")).and
          (Truth.chain (Filter.truths c.dialect (E.truth row) filters)) = .yes := by
  obtain ⟨added, own, hadded, hown, rfl⟩ := whereChain_parts h
  obtain ⟨haddedReadable, haddedTruth⟩ := addedConditions_truth (d := c.dialect) hadded
  obtain ⟨hownReadable, hownTruth⟩ := faithful_filterChain hown
  obtain ⟨hreadable, htruth⟩ := joinChains_truth haddedReadable hownReadable
  obtain ⟨e, hread, he⟩ := Chain.readCondition hreadable
  rw [meets, hread, ← hownTruth, ← haddedTruth, ← htruth, ← he, decide_eq_true_iff]

/-- A comparison of a column with a value says of a row how the cell compares with the value. -/
theorem comparisonTruth_plain (d : Dialect) {column : String} (hcolumn : PlainColumn column) {op : Operator}
    (hlike : op ≠ .like) (hnotLike : op ≠ .notLike) {value : Value} (hvalue : value.isNull = false) (row : Row) :
    comparisonTruth d (E.truth row) (Fragment.reference column) op value = E.compared op (row.get column) value := by
  rw [hcolumn.reference_eq, ← E.comparison d column value row hlike hnotLike]
  cases value with
  | null => cases hvalue
  | _ => rfl

/-! ### Access to an engine -/

/-- An access through which an engine carries out the statements of a kind on one table. Which store a world holds is up to
the access; a transaction around a computation that succeeds succeeds as it does. -/
structure Serves {σ : Type} (db : Access (Session σ)) (table : String) (timeout : Option Int) (c : Compiler)
    (sent : Statement → Prop) (holds : World σ → Store → Prop) : Prop where
  dialect : db.dialect = c.dialect
  compiler : ∀ {w store}, holds w store → ∃ w', outcome (db.compiler table) w = (.ok c, w') ∧ holds w' store
  run : ∀ {s w store}, sent s → holds w store →
    ∃ w', outcome (db.run s table timeout) w = (.ok (E.result s store), w') ∧ holds w' (E.effect s store)
  transaction : ∀ {x : Session σ Value} {v store store'},
    (∀ {w}, holds w store → ∃ w', outcome x w = (.ok v, w') ∧ holds w' store') →
      ∀ {w}, holds w store → ∃ w', outcome (db.transaction x) w = (.ok v, w') ∧ holds w' store'

end Engine

section

variable {σ : Type} {E : Engine} {db : Access (Session σ)} {c : Compiler} {sent : Statement → Prop}
  {holds : World σ → Store → Prop} {q : Query} {w : World σ} {store : Store}

namespace Query

/-- A statement that compiles is carried out. -/
theorem perform_served (S : E.Serves db q.table q.timeout c sent holds) (hholds : holds w store)
    (compile : Compiler → Except Failure Statement) {s : Statement} (hcompile : compile c = .ok s) (hsent : sent s) :
    ∃ w', outcome (perform db q compile) w = (.ok (E.result s store), w') ∧ holds w' (E.effect s store) := by
  obtain ⟨w₁, hcompiler, hholds₁⟩ := S.compiler hholds
  obtain ⟨w₂, hrun, hholds₂⟩ := S.run hsent hholds₁
  have hknown : outcome (known (compile c) : Session σ Statement) w₁ = (.ok s, w₁) := by
    rw [outcome_known, hcompile]
  refine ⟨w₂, ?_, hholds₂⟩
  rw [perform, outcome_bind_ok hcompiler, outcome_bind_ok hknown, hrun]

/-- The rows of a query are what the engine answers to its selection; nothing changes in the store. -/
theorem get_served (S : E.Serves db q.table q.timeout c sent holds) (hholds : holds w store) {s : Selection}
    (hselection : c.selection q = .ok s) (hsent : sent ⟨c.dialect, .select, .select s⟩) :
    ∃ w', outcome (Query.get db q) w = (.ok (E.answer c.dialect s store), w') ∧ holds w' store := by
  have hselect : c.select q = .ok ⟨c.dialect, .select, .select s⟩ := bind_eq_ok.2 ⟨s, hselection, rfl⟩
  obtain ⟨w', hperform, hholds'⟩ := perform_served S hholds (·.select q) hselect hsent
  exact ⟨w', outcome_bind_ok hperform, hholds'⟩

/-- A query that has rows has a selection. -/
theorem selection_of_get (S : E.Serves db q.table q.timeout c sent holds) (hholds : holds w store) {w' : World σ}
    {rows : List Row} (h : outcome (Query.get db q) w = (.ok rows, w')) : ∃ s, c.selection q = .ok s := by
  obtain ⟨w₁, hcompiler, -⟩ := S.compiler hholds
  cases hselection : c.selection q with
  | ok s => exact ⟨s, rfl⟩
  | error f =>
      have hknown : outcome (known (c.select q) : Session σ Statement) w₁ = (.error f, w₁) := by
        rw [outcome_known, Compiler.select, hselection]
        rfl
      have hperform : outcome (perform db q (·.select q)) w = (.error f, w₁) := by
        rw [perform, outcome_bind_ok hcompiler, outcome_bind_error hknown]
      rw [get, outcome_bind_error hperform] at h
      cases h

end Query

end

/-! ### An engine for integers and texts -/

namespace Collation

/-- Integers by their size, texts by their characters. -/
def simple : Collation where
  order := compareLex
    (compareOn fun v : Value => match v with | .int n => n | _ => 0)
    (compareOn fun v : Value => match v with | .text s => s | _ => "")
  lawful := inferInstance

end Collation

/-- Rows by their terms are ordered as their cells are. -/
theorem Collation.trans_byTerms (C : Collation) : ∀ terms, Std.TransCmp (C.byTerms terms)
  | [] => { eq_swap := rfl, isLE_trans := fun _ _ => rfl }
  | (ref, direction) :: rest => by
      have hrest := C.trans_byTerms rest
      have hfirst : Std.TransCmp fun a b : Row => direction.turned (C.order (a.referred ref) (b.referred ref)) := by
        have hlawful := C.lawful
        cases direction with
        | ascending => exact { eq_swap := hlawful.eq_swap, isLE_trans := hlawful.isLE_trans }
        | descending =>
            have hback : ∀ a b : Row, (C.order (a.referred ref) (b.referred ref)).swap =
                C.order (b.referred ref) (a.referred ref) := fun _ _ => hlawful.eq_swap.symm
            refine { eq_swap := ?_, isLE_trans := ?_ }
            · intro a b
              exact congrArg Ordering.swap hlawful.eq_swap
            · intro a b c hab hbc
              rw [Direction.turned, hback] at hab hbc ⊢
              exact hlawful.isLE_trans hbc hab
      exact inferInstanceAs (Std.TransCmp (compareLex _ (C.byTerms rest)))

/-- Things sorted by rows that belong to them stand in the order of these rows. -/
theorem Collation.pairwise_mergeSort {α : Type} (C : Collation) (terms : List (String × Direction)) (key : α → Row)
    (as : List α) : (as.mergeSort fun a b => (C.byTerms terms (key a) (key b)).isLE).Pairwise fun a b =>
      C.byTerms terms (key a) (key b) ≠ .gt := by
  have hlawful := C.trans_byTerms terms
  refine (List.pairwise_mergeSort ?_ ?_ as).imp ?_
  · intro a b c hab hbc
    exact Std.TransCmp.isLE_trans hab hbc
  · intro a b
    rw [hlawful.eq_swap (a := key a) (b := key b)]
    cases C.byTerms terms (key b) (key a) <;> rfl
  · intro a b hle hgt
    rw [hgt] at hle
    cases hle

namespace Engine

/-- The truth of an atom that compares a column, or tests it for null; of others nothing is known. -/
def simpleTruth (row : Row) : List Token → Truth
  | [.name column, .mark '=', .param v] => Collation.simple.compared .equal (row.get (String.ofList column)) v
  | [.name column, .mark '!', .mark '=', .param v] =>
    Collation.simple.compared .notEqual (row.get (String.ofList column)) v
  | [.name column, .mark '<', .mark '>', .param v] =>
    Collation.simple.compared .different (row.get (String.ofList column)) v
  | [.name column, .mark '<', .param v] => Collation.simple.compared .less (row.get (String.ofList column)) v
  | [.name column, .mark '<', .mark '=', .param v] =>
    Collation.simple.compared .atMost (row.get (String.ofList column)) v
  | [.name column, .mark '>', .param v] => Collation.simple.compared .greater (row.get (String.ofList column)) v
  | [.name column, .mark '>', .mark '=', .param v] =>
    Collation.simple.compared .atLeast (row.get (String.ofList column)) v
  | [.name column, .word _, .word _] => if (row.get (String.ofList column)).isNull then .yes else .no
  | [.name column, .word _, .word _, .word _] => if (row.get (String.ofList column)).isNull then .no else .yes
  | _ => .unknown

theorem simpleTruth_comparison (d : Dialect) (column : String) {op : Operator} (value : Value) (row : Row)
    (hlike : op ≠ .like) (hnotLike : op ≠ .notLike) :
    simpleTruth row (Atom.comparison d [.name column] op value) =
      Collation.simple.compared op (row.get column) value := by
  cases op with
  | like => exact absurd rfl hlike
  | notLike => exact absurd rfl hnotLike
  | _ => exact congrArg (fun name => Collation.simple.compared _ (row.get name) value) (String.ofList_toList)

theorem simpleTruth_nullTest (d : Dialect) (column : String) (negated : Bool) (row : Row) :
    simpleTruth row (Atom.nullTest d [.name column] negated) =
      if (row.get column).isNull = negated then .no else .yes := by
  have htest : simpleTruth row (Atom.nullTest d [.name column] negated) =
      if (row.get (String.ofList column.toList)).isNull = negated then .no else .yes := by
    cases negated with
    | true => rfl
    | false =>
        change (if _ then Truth.yes else Truth.no) = _
        cases (row.get (String.ofList column.toList)).isNull <;> rfl
  rw [htest, String.ofList_toList]

/-- An engine over integers and texts. -/
def simple : Engine where
  toCollation := .simple
  truth := simpleTruth
  comparison d column _ value row hlike hnotLike := simpleTruth_comparison d column value row hlike hnotLike
  nullTest := simpleTruth_nullTest
  arrange terms rows := rows.mergeSort fun a b => (Collation.simple.byTerms terms a b).isLE
  arrange_perm _ rows := List.mergeSort_perm rows _
  arrange_sorted _ rows := Collation.simple.pairwise_mergeSort _ id rows
  project _ row := row
  project_everything _ := rfl
  stored := .named
  stored_get hnodup hmem := (Row.get_named _ _).trans (cellOf_of_mem hnodup hmem)
  evaluate _ _ := .null
  unique _ := []
  combined _ _ := []

end Engine

end Polyquery
