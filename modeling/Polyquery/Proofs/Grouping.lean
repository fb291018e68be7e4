import Polyquery.Proofs.Driven

/-! What a database answers to a selection from one table. Of the rows that meet the condition it makes groups: one for each
distinct row of values to group by, a single one where an aggregate is asked for without such values, and else one for each
row. The groups are arranged, each becomes a row, and the window is cut out. Main statement: a window of one row holds the
first row of what there is without a limit. -/

namespace Polyquery

open Sql Session

/-! ### Groups of rows -/

/-- Whether two rows do not differ in columns; nulls do not differ from each other. -/
def Collation.alike (C : Collation) (refs : List String) (a b : Row) : Bool :=
  refs.all fun ref =>
    let x := a.referred ref
    let y := b.referred ref
    if x.isNull || y.isNull then x.isNull && y.isNull else C.order x y = .eq

theorem Collation.alike_self (C : Collation) (refs : List String) (row : Row) : C.alike refs row row = true := by
  have hlawful := C.lawful
  refine List.all_eq_true.2 fun ref _ => ?_
  simp only [Bool.or_self, Bool.and_self]
  split
  · assumption
  · exact decide_eq_true Std.ReflCmp.compare_self

/-- The first rows of their kind, in order. -/
def leaders (same : Row → Row → Bool) : List Row → List Row
  | [] => []
  | row :: rest => row :: (leaders same rest).filter fun other => !same row other

/-- Rows in groups of a kind. -/
def classes (same : Row → Row → Bool) (rows : List Row) : List (List Row) :=
  (leaders same rows).map fun leader => rows.filter (same leader)

theorem leaders_subset (same : Row → Row → Bool) (rows : List Row) : leaders same rows ⊆ rows := by
  induction rows with
  | nil => exact List.Subset.refl _
  | cons row rest ih =>
      exact List.cons_subset_cons row fun other hother => ih (List.mem_of_mem_filter hother)

/-- No group is empty. -/
theorem length_pos_of_mem_classes {same : Row → Row → Bool} (hself : ∀ row, same row row = true) {rows group : List Row}
    (h : group ∈ classes same rows) : 0 < group.length := by
  obtain ⟨leader, hleader, rfl⟩ := List.mem_map.1 h
  exact List.length_pos_of_mem (List.mem_filter.2 ⟨leaders_subset same rows hleader, hself leader⟩)

/-- What a database makes of groups of rows: which expressions are aggregates, the row that a group becomes, and the order in
which groups follow each other. In orders the columns of that row come before those of the group's first row. -/
structure Aggregation (E : Engine) where
  aggregate : String → Bool
  aggregate_counting : aggregate "COUNT(1) AS c" = true
  output : List Projected → List Row → Row
  output_counting : ∀ group, output Engine.counting group = [(.text "c", .int group.length)]
  output_single : ∀ {projection} row, (∀ text, .expression text ∈ projection → aggregate text = false) →
    output projection [row] = E.project projection row
  arrange : List (String × Direction) → List Projected → List (List Row) → List (List Row)
  arrange_perm : ∀ terms projection groups, (arrange terms projection groups).Perm groups
  arrange_sorted : ∀ terms projection groups, (arrange terms projection groups).Pairwise fun a b =>
    E.byTerms terms ((a.headD []).merge (output projection a)) ((b.headD []).merge (output projection b)) ≠ .gt

namespace Aggregation

variable {E : Engine} (G : Aggregation E) {d : Dialect} {s : Selection} {store : Store}

/-- Whether a projection has an aggregate. -/
def collects (projection : List Projected) : Bool :=
  projection.any fun
    | .expression text => G.aggregate text
    | .everything | .column _ | .aliased _ _ => false

/-- The groups of a selection. -/
def groups (d : Dialect) (s : Selection) (store : Store) : List (List Row) :=
  if s.groupBy.isEmpty then if G.collects s.projection then [E.found d s store] else (E.found d s store).map ([·])
  else classes (E.alike s.groupBy) (E.found d s store)

/-- The rows that a selection from one table returns, if it has no conditions on groups. -/
def answer (d : Dialect) (s : Selection) (store : Store) : List Row :=
  s.window.cut ((G.arrange s.orderBy s.projection (G.groups d s store)).map (G.output s.projection))

theorem collects_counting : G.collects Engine.counting = true := by
  simp [collects, Engine.counting, G.aggregate_counting]

theorem groups_of_groupBy (h : s.groupBy ≠ []) :
    G.groups d s store = classes (E.alike s.groupBy) (E.found d s store) := by
  rw [groups, if_neg (by simpa using h)]

theorem groups_of_collects (h : s.groupBy = []) (hcollects : G.collects s.projection = true) :
    G.groups d s store = [E.found d s store] := by
  rw [groups, h, if_pos List.isEmpty_nil, if_pos hcollects]

theorem groups_of_not_collects (h : s.groupBy = []) (hcollects : G.collects s.projection = false) :
    G.groups d s store = (E.found d s store).map ([·]) := by
  rw [groups, h, if_pos List.isEmpty_nil, hcollects, if_neg Bool.false_ne_true]

/-- Without order and window, as many rows are returned as there are groups. -/
theorem length_answer_bare :
    (G.answer d { s with orderBy := [], window := {} } store).length = (G.groups d s store).length :=
  (List.length_map _).trans (G.arrange_perm _ _ _).length_eq

/-- A limit takes rows from the front of those that are returned without it. -/
theorem answer_limited {limit : Int} (hlimit : s.window.limit = some limit) :
    G.answer d s store = (G.answer d { s with window := ⟨none, s.window.offset⟩ } store).take limit.toNat := by
  rw [answer, Window.cut, hlimit]
  rfl

/-- Without a limit, or with one that is not zero, the first row is the same. -/
theorem head?_answer (hlimit : ∀ limit, s.window.limit = some limit → 0 < limit) :
    (G.answer d s store).head? = (G.answer d { s with window := ⟨none, s.window.offset⟩ } store).head? := by
  cases hwindow : s.window.limit with
  | none =>
      rw [answer, Window.cut, hwindow]
      rfl
  | some limit =>
      have hpositive := hlimit limit hwindow
      rw [G.answer_limited hwindow, List.head?_take, if_neg (by omega)]

/-- Where rows are counted, each row holds the size of a group. -/
theorem answer_counting (hprojection : s.projection = Engine.counting) (hwindow : s.window = {}) :
    G.answer d s store =
      (G.arrange s.orderBy s.projection (G.groups d s store)).map fun group => [(.text "c", .int group.length)] := by
  rw [answer, hwindow, hprojection, funext G.output_counting]
  rfl

/-- The size of the group that comes first where the rows of a selection are counted, zero if there is none. -/
def counted (d : Dialect) (s : Selection) (store : Store) : Nat :=
  let groups := G.groups d { s with projection := Engine.counting } store
  ((G.arrange [] Engine.counting groups).head?.map List.length).getD 0

/-- Without groups to make, all rows are counted. -/
theorem counted_eq (h : s.groupBy = []) : G.counted d s store = (E.found d s store).length := by
  have hgroups : G.groups d { s with projection := Engine.counting } store = [E.found d s store] :=
    G.groups_of_collects h G.collects_counting
  rw [counted, hgroups, List.perm_singleton.1 (G.arrange_perm [] Engine.counting _)]
  rfl

/-- With groups to make, the rows of one group are counted, if there is one. -/
theorem counted_cases (h : s.groupBy ≠ []) (d : Dialect) (store : Store) :
    (G.counted d s store = 0 ∧ classes (E.alike s.groupBy) (E.found d s store) = []) ∨
      ∃ group ∈ classes (E.alike s.groupBy) (E.found d s store), G.counted d s store = group.length := by
  have hgroups : G.groups d { s with projection := Engine.counting } store =
      classes (E.alike s.groupBy) (E.found d s store) := G.groups_of_groupBy h
  have hperm := G.arrange_perm [] Engine.counting (classes (E.alike s.groupBy) (E.found d s store))
  rw [counted, hgroups]
  cases harranged : G.arrange [] Engine.counting (classes (E.alike s.groupBy) (E.found d s store)) with
  | nil =>
      rw [harranged] at hperm
      exact .inl ⟨rfl, hperm.nil_eq.symm⟩
  | cons group rest =>
      rw [harranged] at hperm
      exact .inr ⟨group, hperm.mem_iff.1 List.mem_cons_self, rfl⟩

end Aggregation

/-! ### Groups of integers and texts -/

namespace Aggregation

/-- The row that a group becomes: its size if it is counted, else its first row. -/
def simpleOutput (projection : List Projected) (group : List Row) : Row :=
  if projection = Engine.counting then [(.text "c", .int group.length)] else group.headD []

/-- Groups of integers and texts, of which nothing is known but how many rows they have. -/
def simple : Aggregation Engine.simple where
  aggregate text := text = "COUNT(1) AS c"
  aggregate_counting := decide_eq_true rfl
  output := simpleOutput
  output_counting group := if_pos rfl
  output_single := by
    intro projection row hplain
    refine if_neg ?_
    rintro rfl
    exact absurd (hplain "COUNT(1) AS c" List.mem_cons_self) (by decide)
  arrange terms projection groups := groups.mergeSort fun a b => (Engine.simple.byTerms terms
    ((a.headD []).merge (simpleOutput projection a)) ((b.headD []).merge (simpleOutput projection b))).isLE
  arrange_perm terms projection groups := List.mergeSort_perm groups _
  arrange_sorted terms projection groups :=
    Engine.simple.pairwise_mergeSort terms (fun group => (group.headD []).merge (simpleOutput projection group)) groups

end Aggregation

end Polyquery
