import Polyquery.Proofs.Engine
import Polyquery.Proofs.Offenders

/-! New rows under the columns of the first. The columns of an insertion are those of its first row, and every other row
must have the same ones, in whatever order. Main statement: rows can be inserted exactly if this is so, and then each cell
is bound in the place of its row and column; else the first row that is different is named. -/

namespace Polyquery

open Sql Fragment

/-- The columns of cells, in order. -/
def columnsOf (cells : List (String × Value)) : List String := cells.map (·.1)

/-- Whether two rows have the same columns, in any order. -/
def SameColumns (a b : List (String × Value)) : Prop := ∀ column, column ∈ columnsOf a ↔ column ∈ columnsOf b

/-- Whether rows can be inserted together: there is one, it has a column, and the others have its columns. -/
def Insertable (rows : List (List (String × Value))) : Prop :=
  ∃ first rest, rows = first :: rest ∧ first ≠ [] ∧ ∀ row ∈ rest, SameColumns first row

/-! ### Rows of named cells -/

namespace Row

/-- The cell that a row has for a column is its own. -/
theorem lookup_named {cells : List (String × Value)} {column : String} (h : column ∈ columnsOf cells) :
    cells.lookup column = some ((named cells).cell (.text column)) := by
  induction cells with
  | nil => cases h
  | cons cell cells ih =>
      obtain ⟨name, value⟩ := cell
      rw [List.lookup_cons]
      by_cases hname : column = name
      · subst column
        simp [Row.cell, named, Value.same]
      · have hrest : column ∈ columnsOf cells := (List.mem_cons.1 h).resolve_left hname
        have hskip : Row.cell (.text column) (named ((name, value) :: cells)) = (named cells).cell (.text column) := by
          simp [Row.cell, named, Value.same, Ne.symm hname]
        rw [hskip, ← ih hrest, beq_false_of_ne hname]

end Row

theorem sameColumns_named (a b : List (String × Value)) :
    Compiler.sameColumns (.named a) (.named b) = true ↔ SameColumns a b := by
  have hcovers : ∀ a b : List (String × Value), (Row.named a).columns.all (Row.named b).has = true ↔
      ∀ column ∈ columnsOf a, column ∈ columnsOf b := by
    intro a b
    rw [Row.columns_named, List.all_map, List.all_eq_true]
    exact forall₂_congr fun column _ => (Bool.eq_iff_iff.1 (Row.has_named b column)).trans decide_eq_true_iff
  rw [Compiler.sameColumns, Bool.and_eq_true]
  constructor
  · rintro ⟨hab, hba⟩ column
    exact ⟨(hcovers a b).1 hab column, (hcovers b a).1 hba column⟩
  · intro h
    exact ⟨(hcovers a b).2 fun column => (h column).1, (hcovers b a).2 fun column => (h column).2⟩

/-! ### The first row that is different -/

/-- A search among numbered entries finds the first that passes, with its number. -/
theorem exists_of_find?_zipIdx {α : Type} (test : α → Bool) {as : List α} {start i : Nat} {a : α}
    (h : (as.zipIdx start).find? (fun entry => test entry.1) = some (a, i)) :
    ∃ before after, as = before ++ a :: after ∧ i = start + before.length ∧ test a = true ∧
      ∀ b ∈ before, test b = false := by
  induction as generalizing start with
  | nil => cases h
  | cons first as ih =>
      rw [List.zipIdx_cons] at h
      cases htest : test first with
      | true =>
          have hfound : ((first, start) :: as.zipIdx (start + 1)).find? (fun entry => test entry.1) = some (first, start) :=
            List.find?_cons_of_pos htest
          cases hfound.symm.trans h
          exact ⟨[], as, rfl, rfl, htest, nofun⟩
      | false =>
          rw [List.find?_cons_of_neg (by simp [htest])] at h
          obtain ⟨before, after, rfl, rfl, hpasses, hbefore⟩ := ih h
          refine ⟨first :: before, after, rfl, ?_, hpasses, List.forall_mem_cons.2 ⟨htest, hbefore⟩⟩
          rw [List.length_cons]
          omega

theorem forall_of_find?_zipIdx {α : Type} (test : α → Bool) {as : List α} {start : Nat}
    (h : (as.zipIdx start).find? (fun entry => test entry.1) = none) : ∀ a ∈ as, test a = false := by
  intro a ha
  obtain ⟨i, hi, rfl⟩ := List.mem_iff_getElem.1 ha
  have hentry := List.find?_eq_none.1 h _ (List.mk_add_mem_zipIdx_iff_getElem?.2 (List.getElem?_eq_getElem hi))
  simpa using hentry

/-- The columns of rows that can be inserted are those of the first. -/
theorem insertColumns_eq_ok {rows : List (List (String × Value))} {columns : List Value}
    (h : Compiler.insertColumns (rows.map .named) = .ok columns) :
    ∃ first rest, rows = first :: rest ∧ first ≠ [] ∧ (∀ row ∈ rest, SameColumns first row) ∧
      columns = (columnsOf first).map .text := by
  cases rows with
  | nil => cases h
  | cons first rest =>
      rw [List.map_cons, Compiler.insertColumns] at h
      cases first with
      | nil => cases h
      | cons cell cells =>
          rw [if_neg (by simp [Row.named])] at h
          split at h
          · cases h
          · rename_i hsearch
            cases h
            refine ⟨cell :: cells, rest, rfl, List.cons_ne_nil _ _, fun row hrow => ?_, Row.columns_named _⟩
            have hsame := forall_of_find?_zipIdx
              (fun row => !Compiler.sameColumns (.named (cell :: cells)) row) hsearch _ (List.mem_map_of_mem hrow)
            rw [Bool.not_eq_false'] at hsame
            exact (sameColumns_named _ _).1 hsame

/-- Of other rows it is said that there are none, that the first is empty, or which one is different. -/
theorem insertColumns_eq_error {rows : List (List (String × Value))} {f : Failure}
    (h : Compiler.insertColumns (rows.map .named) = .error f) :
    (rows = [] ∧ f = .invalid .noRows) ∨ (rows.head? = some [] ∧ f = .invalid .emptyRow) ∨
      ∃ first before row after, rows = first :: before ++ row :: after ∧ first ≠ [] ∧
        (∀ earlier ∈ before, SameColumns first earlier) ∧ ¬SameColumns first row ∧
        f = .invalid (.rowShape (before.length + 1) ((columnsOf first).map .text) ((columnsOf row).map .text)) := by
  cases rows with
  | nil =>
      cases h
      exact .inl ⟨rfl, rfl⟩
  | cons first rest =>
      rw [List.map_cons, Compiler.insertColumns] at h
      cases first with
      | nil =>
          cases h
          exact .inr (.inl ⟨rfl, rfl⟩)
      | cons cell cells =>
          rw [if_neg (by simp [Row.named])] at h
          split at h
          · rename_i found index hsearch
            cases h
            obtain ⟨before, after, hrest, hindex, hdifferent, hbefore⟩ := exists_of_find?_zipIdx
              (fun row => !Compiler.sameColumns (.named (cell :: cells)) row) hsearch
            obtain ⟨earlier, others, rfl, rfl, hothers⟩ := List.map_eq_append_iff.1 hrest
            obtain ⟨row, later, rfl, rfl, rfl⟩ := List.map_eq_cons_iff.1 hothers
            refine .inr (.inr ⟨cell :: cells, earlier, row, later, rfl, List.cons_ne_nil _ _, fun other hother => ?_,
              fun hsame => ?_, ?_⟩)
            · have hsame := hbefore _ (List.mem_map_of_mem hother)
              rw [Bool.not_eq_false'] at hsame
              exact (sameColumns_named _ _).1 hsame
            · rw [(sameColumns_named _ _).2 hsame] at hdifferent
              cases hdifferent
            · rw [hindex, List.length_map, Nat.zero_add, Row.columns_named, Row.columns_named]
              rfl
          · cases h

/-- The third row has a column that the first has not. -/
example : Compiler.insertColumns ([[("a", .int 1)], [("a", .int 2)], [("a", .int 3), ("b", .int 4)]].map .named) =
    .error (.invalid (.rowShape 2 [.text "a"] [.text "a", .text "b"])) := rfl

/-! ### Cells in rows of one length -/

/-- Rows of one length, one behind the other: a cell stands behind the cells of the rows before its own. -/
theorem getElem?_flatMap_of_length {α β : Type} {f : α → List β} {k : Nat} {as : List α} (h : ∀ a ∈ as, (f a).length = k)
    {i j : Nat} {a : α} (ha : as[i]? = some a) (hj : j < k) : (as.flatMap f)[i * k + j]? = (f a)[j]? := by
  induction as generalizing i with
  | nil => cases ha
  | cons first as ih =>
      obtain ⟨hfirst, hrest⟩ := List.forall_mem_cons.1 h
      rw [List.flatMap_cons]
      cases i with
      | zero =>
          cases ha
          rw [Nat.zero_mul, Nat.zero_add]
          exact List.getElem?_append_left (by omega)
      | succ i =>
          have hbehind : (first :: as)[i + 1]? = as[i]? := rfl
          rw [hbehind] at ha
          have hskip : (i + 1) * k + j - (f first).length = i * k + j := by
            rw [hfirst, Nat.succ_mul]
            omega
          rw [List.getElem?_append_right (by rw [hfirst, Nat.succ_mul]; omega), hskip, ih hrest ha]

/-! ### The statement of an insertion -/

namespace Sql.Insertion

variable (d : Dialect) {i : Insertion}

/-- A group of placeholders for the cells of one row. -/
def placeholders (d : Dialect) (count : Nat) : String := "(" ++ Text.joined ", " (List.replicate count d.placeholder) ++ ")"

/-- The clause for the columns of the new rows that are to be returned, if there are any. -/
def returningText (d : Dialect) (columns : List String) : String :=
  if columns.isEmpty then ""
  else " RETURNING " ++ Text.joined ", " (columns.map fun ref => (Fragment.reference ref).text d)

theorem text_fragment {k : Nat} (hrows : ∀ cells ∈ i.rows, cells.length = k) (hconflict : i.conflict = none) :
    (i.fragment d).text d = "INSERT INTO " ++ (Fragment.reference i.table).text d ++ " (" ++
      Text.joined ", " (i.columns.map fun column => text d [.name column]) ++ ") VALUES " ++
      Text.joined ", " (List.replicate i.rows.length (placeholders d k)) ++ returningText d i.returning := by
  have hgroups : (i.rows.map fun cells => .words "(" :: (bindList cells ++ words ")")).map (text d) =
      List.replicate i.rows.length (placeholders d k) := by
    rw [List.map_map, List.eq_replicate_iff, List.length_map]
    refine ⟨rfl, fun s hs => ?_⟩
    obtain ⟨cells, hcells, rfl⟩ := List.mem_map.1 hs
    simp only [Function.comp_apply, text_words_cons, text_append, text_bindList, text_words,
      hrows cells hcells, placeholders, String.append_assoc]
  have hreturning : text d (if i.returning.isEmpty then [] else .words " " :: returningFragment i.returning) =
      returningText d i.returning := by
    rw [returningText]
    split
    · rfl
    · simp only [returningFragment, text_words_cons, text_separated, List.map_map, ← String.append_assoc]
      rfl
  have hnames : (i.columns.map fun column => [Piece.name column]).map (text d) =
      i.columns.map fun column => text d [.name column] := List.map_map
  rw [fragment, hconflict]
  simp only [List.append_nil, List.cons_append, List.append_assoc, text_words_cons, text_append, nameList, text_separated,
    hgroups, hnames, hreturning, String.append_assoc]

theorem params_fragment (hconflict : i.conflict = none) : (i.fragment d).params = i.rows.flatMap id := by
  have hgroups : (separated ", " (i.rows.map fun cells => .words "(" :: (bindList cells ++ words ")"))).params =
      i.rows.flatMap id := by
    rw [params_separated_eq_flatMap, List.flatMap_map]
    congr 1
    funext cells
    simp [params_bindList]
  have hreturning : params (if i.returning.isEmpty then [] else .words " " :: returningFragment i.returning) = [] := by
    split
    · rfl
    · refine params_separated fun f hf => ?_
      obtain ⟨ref, -, rfl⟩ := List.mem_map.1 hf
      exact params_reference ref
  rw [fragment, hconflict]
  simp only [List.append_nil, List.cons_append, params_append, params_words_cons, params_reference, params_nameList,
    List.nil_append, hgroups, hreturning]

end Sql.Insertion

open Sql.Insertion

/-! ### Insertions of rows -/

/-- The columns that are returned where the dialect can. -/
theorem returned_eq {returning : Value} {names : List String} (h : returning.members = .ok (names.map .text))
    (d : Dialect) : Compiler.returned d returning = .ok (if d.hasReturning then names else []) := by
  rw [Compiler.returned]
  cases d.hasReturning with
  | false => rfl
  | true =>
      cases htruthy : returning.isTruthy with
      | true =>
          rw [h]
          exact Value.mapM_name names
      | false =>
          rw [List.map_eq_nil_iff.1 ((Value.members_eq_nil_iff h).2 htruthy)]
          rfl

/-- What an insertion of named cells is made of, once its columns are known. -/
theorem insert_eq {c : Compiler} {returning : Value} {names : List String}
    (hreturning : returning.members = .ok (names.map .text)) (table : String) (rows : List Row) :
    c.insert table rows returning = (Compiler.insertColumns rows).bind fun columns =>
      (columns.mapM Value.name).map fun columnNames => ⟨c.dialect, .insert, .insert {
        table := c.table table
        columns := columnNames
        rows := rows.map fun row => columns.map fun column => row.cell column
        returning := if c.dialect.hasReturning then names else [] }⟩ := by
  rw [Compiler.insert, Compiler.insertion, returned_eq hreturning]
  cases Compiler.insertColumns rows with
  | error f => rfl
  | ok columns => cases hnames : columns.mapM Value.name <;> simp [bind, Except.bind, Except.map, pure, Except.pure, hnames]

/-- The cells of a row under columns. -/
def cellsUnder (columns : List String) (row : List (String × Value)) : List Value :=
  columns.map fun column => (Row.named row).cell (.text column)

/-- In rows that have the same columns, the cells under them stand in one grid. -/
theorem getElem?_cellsUnder {columns : List String} {rows : List (List (String × Value))}
    (h : ∀ row ∈ rows, ∀ column ∈ columns, column ∈ columnsOf row) {i j : Nat} {row : List (String × Value)}
    {column : String} (hrow : rows[i]? = some row) (hcolumn : columns[j]? = some column) :
    ∃ value, row.lookup column = some value ∧
      (rows.flatMap (cellsUnder columns))[i * columns.length + j]? = some value := by
  have hlength : ∀ row ∈ rows, (cellsUnder columns row).length = columns.length := fun _ _ => List.length_map _
  obtain ⟨hj, -⟩ := List.getElem?_eq_some_iff.1 hcolumn
  refine ⟨_, Row.lookup_named (h row (List.mem_of_getElem? hrow) column (List.mem_of_getElem? hcolumn)), ?_⟩
  rw [getElem?_flatMap_of_length hlength hrow hj, cellsUnder, List.getElem?_map, hcolumn]
  rfl

theorem length_flatMap_cellsUnder (columns : List String) (rows : List (List (String × Value))) :
    (rows.flatMap (cellsUnder columns)).length = columns.length * rows.length := by
  have hlength : ∀ row, (cellsUnder columns row).length = columns.length := fun _ => List.length_map _
  rw [List.length_flatMap, funext hlength, List.map_const', List.sum_replicate_nat, Nat.mul_comm]

/-- The insertion of the cells of rows under columns. -/
def Sql.Insertion.under (table : String) (columns : List String) (rows : List (List (String × Value)))
    (returning : List String) : Insertion :=
  { table, columns, rows := rows.map (cellsUnder columns), returning }

section

variable (d : Dialect) (table : String) (columns : List String) (rows : List (List (String × Value))) (returning : List String)

theorem text_under : ((under table columns rows returning).fragment d).text d =
    "INSERT INTO " ++ (Fragment.reference table).text d ++ " (" ++
      Text.joined ", " (columns.map fun column => text d [.name column]) ++ ") VALUES " ++
      Text.joined ", " (List.replicate rows.length (placeholders d columns.length)) ++ returningText d returning := by
  have hcells : ∀ cells ∈ rows.map (cellsUnder columns), cells.length = columns.length :=
    List.forall_mem_map.2 fun row _ => List.length_map _
  have htext := text_fragment d (i := under table columns rows returning) hcells rfl
  rwa [under, List.length_map] at htext

theorem params_under :
    ((under table columns rows returning).fragment d).params = rows.flatMap (cellsUnder columns) :=
  (params_fragment d rfl).trans (List.flatMap_map ..)

end

theorem insert_under {c : Compiler} {returning : Value} {names columns : List String} {rows : List (List (String × Value))}
    (hreturning : returning.members = .ok (names.map .text)) (table : String)
    (h : Compiler.insertColumns (rows.map .named) = .ok (columns.map .text)) :
    c.insert table (rows.map .named) returning = .ok ⟨c.dialect, .insert,
      .insert (under (c.table table) columns rows (if c.dialect.hasReturning then names else []))⟩ := by
  have hcells : ((rows.map Row.named).map fun row => (columns.map Value.text).map fun column => row.cell column) =
      rows.map (cellsUnder columns) := by
    rw [List.map_map]
    exact List.map_congr_left fun row _ => List.map_map
  rw [insert_eq hreturning, h, Except.bind, Value.mapM_name, Except.map, hcells, under]

/-- What is wrong with rows that cannot be inserted together. -/
theorem not_insertable {rows : List (List (String × Value))} {f : Failure}
    (h : Compiler.insertColumns (rows.map .named) = .error f) : ¬Insertable rows := by
  rintro ⟨first, rest, rfl, hne, hrest⟩
  rcases insertColumns_eq_error h with ⟨hnone, -⟩ | ⟨hempty, -⟩ | ⟨other, before, row, after, hrows, -, -, hdifferent, -⟩
  · cases hnone
  · exact hne (Option.some.inj hempty)
  · obtain ⟨rfl, rfl⟩ := List.cons.inj hrows
    exact hdifferent (hrest row (List.mem_append_right _ List.mem_cons_self))

theorem insert_refusal {rows : List (List (String × Value))} {f : Failure}
    (h : Compiler.insertColumns (rows.map .named) = .error f) :
    (∃ cause, f = .invalid cause ∧ cause.code = "EMPTY_INSERT" ∧ (rows = [] ∨ rows.head? = some [])) ∨
      ∃ first before row after, rows = first :: before ++ row :: after ∧ first ≠ [] ∧
        (∀ earlier ∈ before, SameColumns first earlier) ∧ ¬SameColumns first row ∧
        f = .invalid (.rowShape (before.length + 1) ((columnsOf first).map .text) ((columnsOf row).map .text)) ∧
        f.message = "Row " ++ toString (before.length + 1) ++ " has different columns than row 0." := by
  rcases insertColumns_eq_error h with ⟨hnone, rfl⟩ | ⟨hempty, rfl⟩ |
    ⟨first, before, row, after, hrows, hne, hbefore, hdifferent, rfl⟩
  · exact .inl ⟨_, rfl, rfl, .inl hnone⟩
  · exact .inl ⟨_, rfl, rfl, .inr hempty⟩
  · exact .inr ⟨first, before, row, after, hrows, hne, hbefore, hdifferent, rfl, rfl⟩

/-- Rows can be inserted together exactly if there is one, it has a column, and the others have its columns in whatever
order. Then the columns of the first stand once in the statement, and behind them a group of placeholders for each row;
the parameter for a row and a column is the row's cell under the column. Else the insertion is refused as an empty one, or for
the first row that has other columns. -/
theorem insert_aligned (c : Compiler) (table : String) (rows : List (List (String × Value))) {returning : Value}
    {names : List String} (hreturning : returning.members = .ok (names.map .text)) :
    ((∃ s, c.insert table (rows.map .named) returning = .ok s) ↔ Insertable rows) ∧
    (∀ s, c.insert table (rows.map .named) returning = .ok s → ∃ first, rows.head? = some first ∧
      s.sql = "INSERT INTO " ++ (Fragment.reference (c.table table)).text c.dialect ++ " (" ++
        Text.joined ", " ((columnsOf first).map fun column => text c.dialect [.name column]) ++ ") VALUES " ++
        Text.joined ", " (List.replicate rows.length (placeholders c.dialect first.length)) ++
        returningText c.dialect (if c.dialect.hasReturning then names else []) ∧
      s.params.length = first.length * rows.length ∧
      ∀ i j row column, rows[i]? = some row → (columnsOf first)[j]? = some column →
        ∃ value, row.lookup column = some value ∧ s.params[i * first.length + j]? = some value) ∧
    (∀ f, c.insert table (rows.map .named) returning = .error f →
      (∃ cause, f = .invalid cause ∧ cause.code = "EMPTY_INSERT" ∧ (rows = [] ∨ rows.head? = some [])) ∨
      ∃ first before row after, rows = first :: before ++ row :: after ∧ first ≠ [] ∧
        (∀ earlier ∈ before, SameColumns first earlier) ∧ ¬SameColumns first row ∧
        f = .invalid (.rowShape (before.length + 1) ((columnsOf first).map .text) ((columnsOf row).map .text)) ∧
        f.message = "Row " ++ toString (before.length + 1) ++ " has different columns than row 0.") := by
  cases hcolumns : Compiler.insertColumns (rows.map .named) with
  | ok columns =>
      obtain ⟨first, rest, hrows, hne, hrest, rfl⟩ := insertColumns_eq_ok hcolumns
      have hinsert := insert_under (c := c) hreturning table hcolumns
      have hlength : (columnsOf first).length = first.length := List.length_map _
      have hcovered : ∀ row ∈ rows, ∀ column ∈ columnsOf first, column ∈ columnsOf row := by
        rw [hrows]
        exact List.forall_mem_cons.2 ⟨fun _ h => h, fun row hrow column => (hrest row hrow column).1⟩
      refine ⟨⟨fun _ => ⟨first, rest, hrows, hne, hrest⟩, fun _ => ⟨_, hinsert⟩⟩, fun s hs => ?_, fun f hf => ?_⟩
      · cases hinsert.symm.trans hs
        refine ⟨first, by rw [hrows]; rfl, ?_⟩
        rw [Statement.sql, Statement.params, Statement.fragment, Command.fragment, text_under, params_under,
          length_flatMap_cellsUnder, ← hlength]
        exact ⟨rfl, rfl, fun i j row column => getElem?_cellsUnder hcovered⟩
      · cases hinsert.symm.trans hf
  | error f =>
      have hinsert : c.insert table (rows.map .named) returning = .error f := by
        rw [insert_eq hreturning, hcolumns, Except.bind]
      refine ⟨⟨fun ⟨s, hs⟩ => ?_, fun h => absurd h (not_insertable hcolumns)⟩, fun s hs => ?_, fun f' hf => ?_⟩
      · cases hinsert.symm.trans hs
      · cases hinsert.symm.trans hs
      · cases hinsert.symm.trans hf
        exact insert_refusal hcolumns

/-- Two rows whose columns are given in different orders. -/
theorem insert_aligned_reordered :
    (Value.list [.text "id"]).members = .ok (["id"].map .text) ∧
    ∃ s, Compiler.insert { dialect := .postgres } "t"
        ([[("a", .int 1), ("b", .int 2)], [("b", .int 4), ("a", .int 3)]].map .named) (.list [.text "id"]) = .ok s ∧
      s.sql = "INSERT INTO \"t\" (\"a\", \"b\") VALUES (%s, %s), (%s, %s) RETURNING \"id\"" ∧
      s.params.length = 2 * 2 ∧
      ∃ value, [("b", Value.int 4), ("a", .int 3)].lookup "a" = some value ∧ s.params[1 * 2 + 0]? = some value := by
  have hreturning : (Value.list [.text "id"]).members = .ok (["id"].map .text) := rfl
  have haligned := insert_aligned { dialect := .postgres } "t"
    [[("a", .int 1), ("b", .int 2)], [("b", .int 4), ("a", .int 3)]] hreturning
  have hsame : Insertable [[("a", .int 1), ("b", .int 2)], [("b", .int 4), ("a", .int 3)]] := by
    refine ⟨_, _, rfl, List.cons_ne_nil _ _, List.forall_mem_singleton.2 fun column => ?_⟩
    simp only [columnsOf, List.map_cons, List.map_nil, List.mem_cons, List.not_mem_nil, or_false]
    exact or_comm
  obtain ⟨s, hs⟩ := haligned.1.2 hsame
  obtain ⟨first, hfirst, htext, hlength, hcells⟩ := haligned.2.1 s hs
  cases hfirst
  exact ⟨hreturning, s, hs, htext.trans (by decide +kernel), hlength, hcells 1 0 _ "a" rfl rfl⟩

end Polyquery
