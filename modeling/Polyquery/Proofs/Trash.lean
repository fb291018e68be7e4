import Polyquery.Proofs.Keyset
import Polyquery.Proofs.Upsert

/-! Rows in the trash. On a table with soft deletion a deletion marks rows, a restoration takes the mark away, and the
visibility of a query decides which rows it finds. Main statement: both directions agree. Of the rows that the scope and
the filters concern each is live or in the trash; a deletion moves all live ones into it, a restoration brings back all
that are in it, and only a forced deletion removes rows. -/

namespace Polyquery

open Sql

variable {E : Engine} {c : Compiler} {s : SoftDelete} {q : Query} {filters : List Filter}

/-- Whether a visibility lets rows be seen that are in the trash, or are not. -/
def Visibility.admits : Visibility → Bool → Bool
  | live, trash => !trash
  | withTrashed, _ => true
  | onlyTrashed, trash => trash

namespace Engine

/-- Whether a scope and filters are true of a row. -/
def concerns (E : Engine) (c : Compiler) (filters : List Filter) (row : Row) : Bool :=
  ((Truth.all (scopeTruths c.dialect (E.truth row) c.scope "")).and
    (Truth.chain (Filter.truths c.dialect (E.truth row) filters))) = .yes

/-- Whether statements with filters and a visibility find a row. -/
def finds (E : Engine) (c : Compiler) (filters : List Filter) (visibility : Visibility) (row : Row) : Bool :=
  match c.whereChain filters visibility c.scope "" with
  | .ok chain => E.meets c.dialect chain row
  | .error _ => false

/-- Whether a row has the mark of a deleted one. -/
def isTrash (E : Engine) (s : SoftDelete) (row : Row) : Bool :=
  match s.mode with
  | .timestamp => !(row.get s.column).isNull
  | .boolean => E.compared .equal (row.get s.column) s.deletedValue = .yes

/-- Soft deletion that can tell its marks apart: what a deletion writes is not null, and what a restoration writes is
null or differs from it. -/
structure Marks (E : Engine) (c : Compiler) (s : SoftDelete) : Prop where
  applies : c.softDelete = some s
  plain : PlainColumn s.column
  timestamp : s.mode = .timestamp → c.now.isNull = false ∧ s.restoredValue.isNull = true
  boolean : s.mode = .boolean → s.deletedValue.isNull = false ∧
    (s.restoredValue.isNull = true ∨ E.compared .different s.restoredValue s.deletedValue = .yes)

/-- Whether a scope and filters say the same of a row whatever stands in a column. -/
def Disregards (E : Engine) (c : Compiler) (filters : List Filter) (column : String) : Prop :=
  ∀ row value, E.concerns c filters (overwritten [(column, value)] row) = E.concerns c filters row

/-! ### Which rows are found -/

theorem visibilityTruth_iff (M : E.Marks c s) (visibility : Visibility) (row : Row) :
    visibilityTruth c.dialect (E.truth row) c.softDelete visibility "" = .yes ↔
      visibility.admits (E.isTrash s row) = true := by
  have hcolumn : Compiler.addedColumn "" s.column = [.name s.column] := M.plain.reference_eq
  rw [M.applies, visibilityTruth.eq_def, isTrash]
  dsimp only
  rw [hcolumn, E.nullTest, E.nullTest, E.comparison _ _ _ _ (by decide) (by decide),
    E.comparison _ _ _ _ (by decide) (by decide)]
  cases hmode : s.mode with
  | timestamp => cases visibility <;> cases (row.get s.column).isNull <;> simp [Visibility.admits]
  | boolean =>
      have hdeleted := (M.boolean hmode).1
      rw [Collation.compared, Collation.compared, hdeleted]
      cases visibility <;> cases (row.get s.column).isNull <;>
        cases E.order (row.get s.column) s.deletedValue <;> decide

theorem whereChain_visibility {visibility : Visibility} {scope : Row} {qualifier : String} {chain : Chain}
    (h : c.whereChain filters visibility scope qualifier = .ok chain) (other : Visibility) :
    ∃ chain', c.whereChain filters other scope qualifier = .ok chain' := by
  obtain ⟨added, own, hadded, hown, rfl⟩ := whereChain_parts h
  obtain ⟨equalities, hequalities, -⟩ := Compiler.addedConditions_parts hadded
  exact ⟨_, bind_eq_ok.2 ⟨_, bind_eq_ok.2 ⟨_, hequalities, rfl⟩, bind_eq_ok.2 ⟨_, hown, rfl⟩⟩⟩

theorem finds_of_whereChain {visibility : Visibility} {chain : Chain}
    (h : c.whereChain filters visibility c.scope "" = .ok chain) : E.finds c filters visibility = E.meets c.dialect chain := by
  funext row
  rw [finds, h]

/-- The rows that are found are those that the scope and the filters concern and that the visibility admits. -/
theorem finds_eq (M : E.Marks c s) {chain : Chain} (h : c.whereChain filters .withTrashed c.scope "" = .ok chain)
    (visibility : Visibility) (row : Row) :
    E.finds c filters visibility row = (E.concerns c filters row && visibility.admits (E.isTrash s row)) := by
  obtain ⟨chain', hchain'⟩ := whereChain_visibility h visibility
  rw [finds_of_whereChain hchain']
  refine Bool.eq_iff_iff.2 ?_
  rw [E.meets_whereChain hchain', Bool.and_eq_true, ← visibilityTruth_iff M, concerns, decide_eq_true_iff]
  simp only [Truth.and_eq_yes_iff]
  tauto

/-! ### Marks that are written -/

theorem get_marked (column : String) (value : Value) (row : Row) :
    (overwritten [(column, value)] row).get column = value :=
  get_overwritten_of_mem (List.mem_singleton_self _) (fun cell hcell _ => by rw [List.mem_singleton.1 hcell]) row

/-- What a deletion writes puts a row into the trash. -/
theorem isTrash_marker (M : E.Marks c s) (row : Row) :
    E.isTrash s (overwritten [(s.column, c.marker s)] row) = true := by
  rw [isTrash, get_marked, Compiler.marker]
  cases hmode : s.mode with
  | timestamp =>
      dsimp only
      rw [(M.timestamp hmode).1]
      rfl
  | boolean =>
      have hlawful := E.lawful
      have hself : E.order s.deletedValue s.deletedValue = .eq := Std.ReflCmp.compare_self
      exact decide_eq_true (E.compared_equal.2 ⟨(M.boolean hmode).1, (M.boolean hmode).1, hself⟩)

/-- What a restoration writes takes a row out of the trash. -/
theorem isTrash_restored (M : E.Marks c s) (row : Row) :
    E.isTrash s (overwritten [(s.column, s.restoredValue)] row) = false := by
  rw [isTrash, get_marked]
  cases hmode : s.mode with
  | timestamp =>
      dsimp only
      rw [(M.timestamp hmode).2]
      rfl
  | boolean =>
      refine decide_eq_false fun hequal => ?_
      obtain ⟨hrestored, hdeleted, horder⟩ := E.compared_equal.1 hequal
      rcases (M.boolean hmode).2 with hnull | hdifferent
      · rw [hrestored] at hnull
        cases hnull
      · rw [Collation.compared, hrestored, hdeleted, horder] at hdifferent
        cases hdifferent

/-- A row before and after a statement that moves rows from one visibility to another: only a row that is reached is
changed, and only in the column of the mark; whichever row the filters concern is shown behind it, and none is left. -/
structure Moved (E : Engine) (c : Compiler) (filters : List Filter) (column : String)
    (reached left shown : Visibility) (row row' : Row) : Prop where
  kept : ∀ other ≠ column, row'.get other = row.get other
  unreached : E.finds c filters reached row = false → row' = row
  concerned : E.finds c filters .withTrashed row' = E.finds c filters .withTrashed row
  gone : E.finds c filters left row' = false
  arrived : E.finds c filters shown row' = E.finds c filters .withTrashed row

/-- A mark moves the rows on which it is written, where it is written on all that are not yet where they should be. -/
theorem moved_mark (M : E.Marks c s) {chain : Chain} (h : c.whereChain filters .withTrashed c.scope "" = .ok chain)
    (D : E.Disregards c filters s.column) {value : Value} {trash : Bool}
    (hmark : ∀ row, E.isTrash s (overwritten [(s.column, value)] row) = trash) {reached left shown : Visibility}
    (hreached : reached.admits (!trash) = true) (hleft : ∀ t, left.admits t = (t != trash))
    (hshown : ∀ t, shown.admits t = (t == trash)) (row : Row) :
    E.Moved c filters s.column reached left shown row
      (if E.finds c filters reached row then overwritten [(s.column, value)] row else row) := by
  cases hfound : E.finds c filters reached row with
  | true =>
      rw [if_pos rfl]
      refine { kept := ?_, unreached := ?_, concerned := ?_, gone := ?_, arrived := ?_ }
      · exact fun other hother => get_overwritten_of_notMem (fun hmem => hother (List.mem_singleton.1 hmem)) row
      · exact fun hnot => absurd (hfound.symm.trans hnot) (by decide)
      · rw [finds_eq M h, finds_eq M h, D]
        rfl
      · rw [finds_eq M h, hmark, hleft, bne_self_eq_false, Bool.and_false]
      · rw [finds_eq M h, finds_eq M h, D, hmark, hshown, beq_self_eq_true]
        rfl
  | false =>
      rw [if_neg Bool.false_ne_true]
      -- a row that is concerned but not reached has the mark already
      have hmarked : E.concerns c filters row = true → E.isTrash s row = trash := by
        intro hconcerns
        rw [finds_eq M h, hconcerns, Bool.true_and] at hfound
        by_contra hother
        rw [Bool.eq_not_of_ne hother, hreached] at hfound
        cases hfound
      refine { kept := fun _ _ => rfl, unreached := fun _ => rfl, concerned := rfl, gone := ?_, arrived := ?_ }
      · rw [finds_eq M h, hleft]
        cases hconcerns : E.concerns c filters row with
        | false => rfl
        | true => rw [hmarked hconcerns, bne_self_eq_false, Bool.and_false]
      · rw [finds_eq M h, finds_eq M h, hshown]
        cases hconcerns : E.concerns c filters row with
        | false => rfl
        | true =>
            rw [hmarked hconcerns, beq_self_eq_true]
            rfl

/-- Stores before and after a statement on one table that keeps its rows, each related to what becomes of it. -/
def Across (table : String) (related : Row → Row → Prop) (store store' : Store) : Prop :=
  List.Forall₂ related (store table) (store' table) ∧ ∀ name ≠ table, store' name = store name

/-- An update with a mark moves the rows of its table. -/
theorem update_moves (M : E.Marks c s) {chain : Chain} (h : c.whereChain q.filters .withTrashed c.scope "" = .ok chain)
    (D : E.Disregards c q.filters s.column) {value : Value} {trash : Bool}
    (hmark : ∀ row, E.isTrash s (overwritten [(s.column, value)] row) = trash) {left shown : Visibility}
    (hreached : q.visibility.admits (!trash) = true) (hleft : ∀ t, left.admits t = (t != trash))
    (hshown : ∀ t, shown.admits t = (t == trash)) (operation : Operation) :
    ∃ change, c.update q [(.text s.column, value)] operation = .ok change ∧ ∀ store,
      Across (c.table q.table) (E.Moved c q.filters s.column q.visibility left shown) store (E.effect change store) := by
  obtain ⟨chain', hchain'⟩ := whereChain_visibility h q.visibility
  have hne : [(s.column, value)] ≠ [] := List.cons_ne_nil _ _
  refine ⟨_, Compiler.update_named hne hchain' operation, fun store => ?_⟩
  rw [E.effect_update]
  constructor
  · rw [put_self, List.forall₂_map_right_iff, ← finds_of_whereChain hchain']
    exact List.forall₂_same.2 fun row _ => moved_mark M h D hmark hreached hleft hshown row
  · exact fun name hname => put_other hname _ store

/-! ### The ways into the trash and out of it -/

theorem delete_moves (M : E.Marks c s) {chain : Chain} (h : c.whereChain q.filters .withTrashed c.scope "" = .ok chain)
    (D : E.Disregards c q.filters s.column) (hvisibility : q.visibility ≠ .onlyTrashed) :
    ∃ deletion, c.delete q false = .ok deletion ∧ ∀ store, Across (c.table q.table)
      (E.Moved c q.filters s.column q.visibility .live .onlyTrashed) store (E.effect deletion store) := by
  have hdelete : c.delete q false = c.update q [(.text s.column, c.marker s)] .delete := by
    rw [Compiler.delete.eq_def, M.applies]
  have hreached : q.visibility.admits false = true := by
    cases hv : q.visibility with
    | onlyTrashed => exact absurd hv hvisibility
    | _ => rfl
  rw [hdelete]
  exact update_moves M h D (isTrash_marker M) hreached (by decide) (by decide) .delete

/-- The rows that a restoration reaches. -/
def restoring (visibility : Visibility) : Visibility := if visibility = .live then .onlyTrashed else visibility

theorem restore_moves (M : E.Marks c s) {chain : Chain} (h : c.whereChain q.filters .withTrashed c.scope "" = .ok chain)
    (D : E.Disregards c q.filters s.column) :
    ∃ restoration, c.restore q = .ok (some restoration) ∧ ∀ store, Across (c.table q.table)
      (E.Moved c q.filters s.column (restoring q.visibility) .onlyTrashed .live) store (E.effect restoration store) := by
  have hreached : (restoring q.visibility).admits true = true := by
    cases q.visibility <;> decide
  have hleft : ∀ t, Visibility.onlyTrashed.admits t = (t != false) := by decide
  have hshown : ∀ t, Visibility.live.admits t = (t == false) := by decide
  obtain ⟨restoration, hupdate, heffect⟩ := update_moves (q := { q with visibility := restoring q.visibility }) M h D
    (isTrash_restored M) hreached hleft hshown .update
  refine ⟨restoration, ?_, heffect⟩
  rw [Compiler.restore, M.applies]
  exact map_eq_ok.2 ⟨restoration, hupdate, rfl⟩

/-- The rows that a forced deletion reaches. -/
def removing (visibility : Visibility) : Visibility := if visibility = .live then .withTrashed else visibility

theorem delete_removes {chain : Chain} (h : c.whereChain q.filters .withTrashed c.scope "" = .ok chain) :
    ∃ removal, c.delete q true = .ok removal ∧ ∀ store, E.effect removal store = put (c.table q.table)
      ((store (c.table q.table)).filter fun row => !E.finds c q.filters (removing q.visibility) row) store := by
  obtain ⟨chain', hchain'⟩ := whereChain_visibility h (removing q.visibility)
  have hremove : c.remove q (removing q.visibility) =
      .ok ⟨c.dialect, .delete, .delete ⟨c.table q.table, chain'⟩⟩ := bind_eq_ok.2 ⟨chain', hchain', rfl⟩
  refine ⟨⟨c.dialect, .delete, .delete ⟨c.table q.table, chain'⟩⟩, ?_, fun store => ?_⟩
  · rw [← hremove, Compiler.delete.eq_def]
    cases c.softDelete <;> rfl
  · rw [finds_of_whereChain hchain']
    rfl

/-- A query for whole rows without bounds answers the rows that it finds, in some order. -/
theorem select_found {chain : Chain} (h : c.whereChain q.filters .withTrashed c.scope "" = .ok chain) (W : q.Whole)
    (hlimit : q.limit = none) (hoffset : q.offset = none) (visibility : Visibility) :
    ∃ selection, c.select { q with visibility } = .ok selection ∧ ∀ store,
      (E.result selection store).rows.Perm ((store (c.table q.table)).filter (E.finds c q.filters visibility)) := by
  obtain ⟨chain', hchain'⟩ := whereChain_visibility h visibility
  have W' : Query.Whole { q with visibility } := ⟨W.columns, W.joins, W.groupBy, W.having⟩
  have hselection := W'.selection_eq_ok.2 ⟨chain', hchain', rfl⟩
  refine ⟨_, bind_eq_ok.2 ⟨_, hselection, rfl⟩, fun store => ?_⟩
  rw [finds_of_whereChain hchain']
  refine .trans (.of_eq (Query.answer_whole E _ c chain' store)) ?_
  rw [hlimit, hoffset]
  exact E.arrange_perm _ _

/-- What a statement across which rows are moved shows of each row behind it. -/
theorem Across.map_arrived {table column : String} {reached left shown : Visibility} {store store' : Store}
    (h : Across table (E.Moved c filters column reached left shown) store store') :
    (store' table).map (E.finds c filters shown) = (store table).map (E.finds c filters .withTrashed) := by
  have hshown := h.1.imp fun _ _ moved => moved.arrived.symm
  rw [← List.forall₂_map_right_iff, ← List.forall₂_map_left_iff, List.forall₂_eq_eq_eq] at hshown
  exact hshown.symm

end Engine

open Engine

/-- Where the scope and the filters compile and disregard the mark, each row that they concern is found live or in the
trash, not both, and others are not found at all. A deletion of rows that are not in the trash moves all that are concerned
into it, a restoration moves all back, neither removes a row or writes anything but the mark, and a forced deletion removes
what the query sees, trash with the rest unless it asks for fewer. -/
theorem trash_cycle (M : E.Marks c s) {chain : Chain} (h : c.whereChain q.filters .withTrashed c.scope "" = .ok chain)
    (D : E.Disregards c q.filters s.column) :
    (∀ row, (E.concerns c q.filters row = true → E.finds c q.filters .withTrashed row = true ∧
        E.finds c q.filters .onlyTrashed row = !E.finds c q.filters .live row) ∧
      (E.concerns c q.filters row = false → ∀ visibility, E.finds c q.filters visibility row = false)) ∧
    (q.Whole → q.limit = none → q.offset = none → ∀ visibility,
      ∃ selection, c.select { q with visibility } = .ok selection ∧ ∀ store,
        (E.result selection store).rows.Perm ((store (c.table q.table)).filter (E.finds c q.filters visibility))) ∧
    (q.visibility ≠ .onlyTrashed → ∃ deletion, c.delete q false = .ok deletion ∧ ∀ store, Across (c.table q.table)
      (E.Moved c q.filters s.column q.visibility .live .onlyTrashed) store (E.effect deletion store)) ∧
    (∃ restoration, c.restore q = .ok (some restoration) ∧ ∀ store, Across (c.table q.table)
      (E.Moved c q.filters s.column (restoring q.visibility) .onlyTrashed .live) store (E.effect restoration store)) ∧
    (∃ removal, c.delete q true = .ok removal ∧ ∀ store, E.effect removal store = put (c.table q.table)
      ((store (c.table q.table)).filter fun row => !E.finds c q.filters (removing q.visibility) row) store) := by
  refine ⟨fun row => ⟨fun hconcerns => ?_, fun hnot visibility => ?_⟩,
    fun W hlimit hoffset visibility => select_found h W hlimit hoffset visibility, delete_moves M h D, restore_moves M h D,
    delete_removes h⟩
  · rw [finds_eq M h, finds_eq M h, finds_eq M h, hconcerns]
    cases E.isTrash s row <;> decide
  · rw [finds_eq M h, hnot, Bool.false_and]

/-- Rows of one tenant in and out of the trash, under filters with an `OR`. -/
theorem trash_cycle_tenant :
    let c : Compiler := { dialect := .sqlite, scope := [(.text "tenant", .int 7)], softDelete := some {}, now := .text "now" }
    let q : Query := { table := "t", filters := [.basic "a" "=" (.int 1) .and, .isNull "b" false .or] }
    let store : Store := fun _ => [
      .named [("tenant", .int 7), ("a", .int 1), ("b", .int 5), ("deleted_at", .null)],
      .named [("tenant", .int 7), ("a", .int 2), ("b", .null), ("deleted_at", .text "before")],
      .named [("tenant", .int 8), ("a", .int 1), ("b", .null), ("deleted_at", .null)]]
    ∃ deletion restoration, c.delete q false = .ok deletion ∧ c.restore q = .ok (some restoration) ∧
      ((simple.effect deletion store) "t").map (simple.finds c q.filters .onlyTrashed) = [true, true, false] ∧
      ((simple.effect restoration (simple.effect deletion store)) "t").map (simple.finds c q.filters .live) =
        [true, true, false] := by
  intro c q store
  have M : simple.Marks c {} := ⟨rfl, ⟨by decide, by decide⟩, fun _ => ⟨rfl, rfl⟩, nofun⟩
  -- what the scope and the filters say depends on three other columns
  have hconcerns : ∀ row, simple.concerns c q.filters row =
      decide (((Collation.simple.compared .equal (row.get "tenant") (.int 7)).and .yes).and
        (((Collation.simple.compared .equal (row.get "a") (.int 1)).and .yes).or
          (((if (row.get "b").isNull then Truth.yes else .no).and .yes).or .no)) = .yes) := fun _ => rfl
  have D : simple.Disregards c q.filters "deleted_at" := by
    intro row value
    have hkept : ∀ column ≠ "deleted_at", (overwritten [("deleted_at", value)] row).get column = row.get column :=
      fun column hother => get_overwritten_of_notMem (fun hmem => hother (List.mem_singleton.1 hmem)) row
    rw [hconcerns, hconcerns, hkept "tenant" (by decide), hkept "a" (by decide), hkept "b" (by decide)]
  obtain ⟨-, -, hdelete, ⟨restoration, hrestore, hrestored⟩, -⟩ := trash_cycle (q := q) M rfl D
  obtain ⟨deletion, hdeleted, hmoved⟩ := hdelete (by decide)
  have hfound : (store "t").map (simple.finds c q.filters .withTrashed) = [true, true, false] := by decide +kernel
  have htrashed := hmoved store
  refine ⟨deletion, restoration, hdeleted, hrestore, htrashed.map_arrived.trans hfound, ?_⟩
  have hkept := htrashed.1.imp fun _ _ moved => moved.concerned.symm
  rw [← List.forall₂_map_right_iff, ← List.forall₂_map_left_iff, List.forall₂_eq_eq_eq] at hkept
  exact (hrestored _).map_arrived.trans (hkept.symm.trans hfound)

/-! ### A mark that is read elsewhere -/

namespace Engine

/-- Tokens without a table in front of their column. -/
def unqualified : List Token → List Token
  | .name _ :: .mark '.' :: rest => rest
  | tokens => tokens

/-- An engine over integers and texts in which a table may stand in front of a column. -/
def qualified : Engine :=
  { simple with
    truth := fun row tokens => simpleTruth row (unqualified tokens)
    comparison := fun d column op value row hlike hnotLike => by
      have hsame : unqualified (Atom.comparison d [.name column] op value) = Atom.comparison d [.name column] op value := by
        cases op <;> rfl
      rw [hsame]
      exact simpleTruth_comparison d column value row hlike hnotLike
    nullTest := fun d column negated row => by
      have hsame : unqualified (Atom.nullTest d [.name column] negated) = Atom.nullTest d [.name column] negated := by
        cases negated <;> rfl
      rw [hsame]
      exact simpleTruth_nullTest d column negated row }

end Engine

/-- A mark whose column has a dot in its name is written there and read in another column: the deleted row is still seen,
and it is not in the trash. -/
theorem trash_parts_marker :
    let c : Compiler :=
      { dialect := .sqlite, softDelete := some { column := "t.deleted_at" }, now := .text "2024-01-02T03:04:05+00:00" }
    let before := Row.named [("id", .int 1), ("deleted_at", .null), ("t.deleted_at", .null)]
    let behind := Row.named [("id", .int 1), ("deleted_at", .null), ("t.deleted_at", .text "2024-01-02T03:04:05+00:00")]
    ∃ deletion, c.delete { table := "t" } false = .ok deletion ∧ qualified.finds c [] .live before = true ∧
      qualified.effect deletion (fun _ => [before]) "t" = [behind] ∧
      qualified.finds c [] .live behind = true ∧ qualified.finds c [] .onlyTrashed behind = false := by
  intro c before behind
  have hseen : qualified.finds c [] .live before = true := by decide +kernel
  refine ⟨_, rfl, hseen, ?_, by decide +kernel, by decide +kernel⟩
  change [if qualified.finds c [] .live before then assigned qualified _ before else before] = [behind]
  rw [if_pos hseen]
  rfl

end Polyquery
