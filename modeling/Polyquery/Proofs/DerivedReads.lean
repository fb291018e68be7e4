import Polyquery.Proofs.Grouping

/-! Reads that are derived from a query: its first row, the number of its rows, and whether it has any. Each asks the database
for a query of its own, which keeps the filters and the groups and changes the rest. Main statement: what these reads answer,
beside the rows that the query itself returns. -/

namespace Polyquery

open Sql Session

variable {σ α β : Type}

/-! ### Computations that answer and go on -/

/-- A computation that answers the same from every session of a kind, and leaves it of that kind. -/
def Session.Gives (holds : World σ → Prop) (x : Session σ α) (a : α) : Prop :=
  ∀ w, holds w → ∃ w', outcome x w = (.ok a, w') ∧ holds w'

namespace Session.Gives

variable {holds : World σ → Prop} {x : Session σ α} {a : α}

theorem pure (a : α) : Gives holds (pure a : Session σ α) a := fun w h => ⟨w, rfl, h⟩

theorem bind {k : α → Session σ β} {b : β} (hx : Gives holds x a) (hk : Gives holds (k a) b) : Gives holds (x >>= k) b := by
  intro w h
  obtain ⟨w₁, hfirst, h₁⟩ := hx w h
  obtain ⟨w₂, hsecond, h₂⟩ := hk w₁ h₁
  exact ⟨w₂, (outcome_bind_ok hfirst).trans hsecond, h₂⟩

theorem known {o : Except Failure α} (h : o = .ok a) : Gives holds (Query.known o : Session σ α) a := by
  subst h
  exact Gives.pure a

end Session.Gives

/-- An access through which selections of a kind from one table, without conditions on groups, are answered each in its way. -/
structure Access.Evaluates (db : Access (Session σ)) (table : String) (timeout : Option Int) (c : Compiler)
    (sent : Selection → Prop) (answer : Selection → List Row) (holds : World σ → Prop) : Prop where
  compiler : Gives holds (db.compiler table) c
  run : ∀ {s w}, sent s → s.joins = [] → s.having = [] → holds w →
    ∃ r w', outcome (db.run ⟨c.dialect, .select, .select s⟩ table timeout) w = (.ok r, w') ∧ r.rows = answer s ∧ holds w'

/-- An access to an engine evaluates selections as the engine does. -/
theorem Engine.Serves.evaluates {E : Engine} {db : Access (Session σ)} {table : String} {timeout : Option Int} {c : Compiler}
    {sent : Selection → Prop} {answer : Selection → List Row} {holds : World σ → Store → Prop} {store : Store}
    (S : E.Serves db table timeout c (fun st => ∃ s, sent s ∧ st = ⟨c.dialect, .select, .select s⟩) holds)
    (h : ∀ s, sent s → s.joins = [] → s.having = [] → E.answer c.dialect s store = answer s) :
    db.Evaluates table timeout c sent answer (holds · store) where
  compiler _ hholds := S.compiler hholds
  run {s w} hsent hjoins hhaving hholds := by
    obtain ⟨w', hrun, hholds'⟩ := S.run ⟨s, hsent, rfl⟩ hholds
    exact ⟨_, w', hrun, h s hsent hjoins hhaving, hholds'⟩

namespace Query

/-! ### The queries behind the reads -/

/-- A query without order and window. -/
def bare (q : Query) : Query := { q with orderBy := [], limit := none, offset := none }

/-- The query that counts the rows of another. -/
def counting (q : Query) : Query := { q.bare with columns := [.text "COUNT(1) AS c"] }

/-- A query, and those behind the reads derived from it. -/
def readings (q : Query) : List Query := [q, { q with limit := none }, q.bare, { q with limit := some 1 }, q.counting]

/-- The selections of a query and of the reads derived from it. -/
def reads (q : Query) (c : Compiler) (s : Selection) : Prop := ∃ reading ∈ q.readings, c.selection reading = .ok s

end Query

variable {db : Access (Session σ)} {c : Compiler} {q : Query} {s : Selection}

/-- A query with other columns, another order and another window selects from the same rows by the same condition and groups. -/
theorem selection_rearranged (hs : c.selection q = .ok s) {columns : List Value} {projection : List Projected}
    (hprojection : Compiler.projection columns = .ok projection) (orderBy : List OrderTerm) (limit offset : Option Int) :
    c.selection { q with columns, orderBy, limit, offset } = .ok { s with
      projection, orderBy := orderBy.map fun term => (term.column, term.direction), window := ⟨limit, offset⟩ } := by
  have hparts := selects_of_selection hs
  simp only [Compiler.selection, hprojection, hparts.joins, hparts.condition, hparts.groupBy, hparts.having, hparts.table,
    bind, Except.bind, pure, Except.pure]

theorem selection_windowed (hs : c.selection q = .ok s) (limit : Option Int) :
    c.selection { q with limit } = .ok { s with window := ⟨limit, s.window.offset⟩ } := by
  have hparts := selects_of_selection hs
  have hsame := selection_rearranged hs hparts.projection q.orderBy limit q.offset
  rw [← hparts.orderBy] at hsame
  rw [hparts.window]
  exact hsame

theorem selection_bare (hs : c.selection q = .ok s) : c.selection q.bare = .ok { s with orderBy := [], window := {} } :=
  selection_rearranged hs (selects_of_selection hs).projection [] none none

theorem selection_counting (hs : c.selection q = .ok s) :
    c.selection q.counting = .ok { s with projection := Engine.counting, orderBy := [], window := {} } :=
  selection_rearranged hs rfl [] none none

/-! ### What the reads answer -/

section

variable {sent : Selection → Prop} {answer : Selection → List Row} {holds : World σ → Prop}

/-- The rows of a query are what its selection is answered with. -/
theorem gives_get (V : db.Evaluates q.table q.timeout c sent answer holds) (hs : c.selection q = .ok s) (hsent : sent s)
    (hjoins : s.joins = []) (hhaving : s.having = []) : Gives holds (Query.get db q) (answer s) := by
  have hselect : c.select q = .ok ⟨c.dialect, .select, .select s⟩ := bind_eq_ok.2 ⟨s, hs, rfl⟩
  intro w h
  obtain ⟨w₁, hcompiler, h₁⟩ := V.compiler w h
  obtain ⟨w₂, hknown, h₂⟩ := Gives.known hselect w₁ h₁
  obtain ⟨r, w₃, hrun, hr, h₃⟩ := V.run hsent hjoins hhaving h₂
  have hperform : outcome (Query.perform db q (·.select q)) w = (.ok r, w₃) := by
    rw [Query.perform, outcome_bind_ok hcompiler, outcome_bind_ok hknown, hrun]
  exact ⟨w₃, by rw [Query.get, outcome_bind_ok hperform, hr, outcome_pure], h₃⟩

theorem gives_first {rows : List Row} (h : Gives holds (Query.get db { q with limit := some 1 }) rows) :
    Gives holds (Query.first db q) rows.head? :=
  h.bind (.pure rows.head?)

/-- The number of rows is the first one that comes back, and zero if none does. -/
theorem gives_count {groups : List (List Row)}
    (h : Gives holds (Query.get db q.counting) (groups.map fun group => [(.text "c", .int group.length)])) :
    Gives holds (Query.count db q) ((groups.head?.map List.length).getD 0 : Nat) := by
  have haggregate : Gives holds (Query.aggregate db q "COUNT(1)" "c")
      ((groups.head?.map fun group => Value.int group.length).getD .null) := by
    refine h.bind ?_
    cases groups <;> exact .pure _
  refine haggregate.bind (.known ?_)
  cases groups with
  | nil => rfl
  | cons group groups => exact Value.toCount_int group.length

theorem gives_exists {n : Int} (h : Gives holds (Query.count db q) n) :
    Gives holds (Query.exists? db q) (decide (0 < n)) :=
  h.bind (.pure _)

end

section

variable {E : Engine} (G : Aggregation E) {store : Store} {holds : World σ → Prop}

theorem Query.readings_keep {reading : Query} (h : reading ∈ q.readings) :
    reading.table = q.table ∧ reading.timeout = q.timeout ∧ reading.joins = q.joins ∧ reading.groupBy = q.groupBy ∧
      reading.having = q.having := by
  simp only [readings, counting, bare, List.mem_cons, List.not_mem_nil, or_false] at h
  rcases h with rfl | rfl | rfl | rfl | rfl <;> exact ⟨rfl, rfl, rfl, rfl, rfl⟩

/-- A query from one table without conditions on groups, and each query behind its reads, returns what is evaluated. -/
theorem gives_reading {answer : Selection → List Row} (V : db.Evaluates q.table q.timeout c (q.reads c) answer holds)
    (hjoins : q.joins = []) (hhaving : q.having = []) {reading : Query} (hreading : reading ∈ q.readings)
    (hs : c.selection reading = .ok s) : Gives holds (Query.get db reading) (answer s) := by
  obtain ⟨htable, htimeout, hsameJoins, -, hsameHaving⟩ := Query.readings_keep hreading
  have hparts := selects_of_selection hs
  have hnoJoins : s.joins = [] := (eq_nil_iff_of_mapM hparts.joins).2 (hsameJoins.trans hjoins)
  have hnoHaving : s.having = [] := (eq_nil_iff_of_mapM hparts.having).2 (hsameHaving.trans hhaving)
  rw [← htable, ← htimeout] at V
  exact gives_get V hs ⟨reading, hreading, hs⟩ hnoJoins hnoHaving

/-- The number of rows is that of the first group. -/
theorem gives_counted (V : db.Evaluates q.table q.timeout c (q.reads c) (G.answer c.dialect · store) holds)
    (hjoins : q.joins = []) (hhaving : q.having = []) (hs : c.selection q = .ok s) :
    Gives holds (Query.count db q) (G.counted c.dialect s store) := by
  have hcounting := gives_reading V hjoins hhaving (by simp [Query.readings]) (selection_counting hs)
  rw [G.answer_counting rfl rfl] at hcounting
  exact gives_count hcounting

/-- The reads derived from a query from one table without conditions on groups. The first row is that of the rows without the
limit, which the query itself returns first unless its limit is zero. The number of rows is that of all rows that meet the
condition if there are no groups to make, and of these rows the query without order and window returns as many, or a single
one if it asks for an aggregate. With groups to make the query returns a row for each, and the number is the size of one of
them. Whether there are rows is whether the number is positive; with groups to make this is whether there are groups. -/
theorem derived_reads (V : db.Evaluates q.table q.timeout c (q.reads c) (G.answer c.dialect · store) holds)
    (hjoins : q.joins = []) (hhaving : q.having = []) (hs : c.selection q = .ok s) :
    ∃ rows unlimited bare : List Row, ∃ n : Nat,
      (Gives holds (Query.get db q) rows ∧ Gives holds (Query.get db { q with limit := none }) unlimited ∧
        Gives holds (Query.get db q.bare) bare) ∧
      (Gives holds (Query.first db q) unlimited.head? ∧
        ((∀ limit, q.limit = some limit → 0 < limit) → unlimited.head? = rows.head?) ∧
        ∀ limit, q.limit = some limit → limit ≤ 0 → rows = []) ∧
      (Gives holds (Query.count db q) n ∧ Gives holds (Query.exists? db q) (decide (0 < n))) ∧
      (q.groupBy = [] → n = (E.found c.dialect s store).length ∧ bare.length = if G.collects s.projection then 1 else n) ∧
      (q.groupBy ≠ [] → bare.length = (classes (E.alike s.groupBy) (E.found c.dialect s store)).length ∧
        (0 < n ↔ 0 < bare.length) ∧
        (0 < n → ∃ group ∈ classes (E.alike s.groupBy) (E.found c.dialect s store), n = group.length)) := by
  have hparts := selects_of_selection hs
  have hrows := gives_reading V hjoins hhaving (by simp [Query.readings]) hs
  have hunlimited := gives_reading V hjoins hhaving (by simp [Query.readings]) (selection_windowed hs none)
  have hone := gives_reading V hjoins hhaving (by simp [Query.readings]) (selection_windowed hs (some 1))
  have hbare := gives_reading V hjoins hhaving (by simp [Query.readings]) (selection_bare hs)
  have hcount := gives_counted G V hjoins hhaving hs
  refine ⟨_, _, _, G.counted c.dialect s store, ⟨hrows, hunlimited, hbare⟩, ⟨?_, ?_, ?_⟩, ⟨hcount, ?_⟩, ?_, ?_⟩
  · rw [← G.head?_answer (s := { s with window := ⟨some 1, s.window.offset⟩ }) (by simp)]
    exact gives_first hone
  · intro hlimit
    refine (G.head?_answer fun limit hwindow => hlimit limit ?_).symm
    rwa [hparts.window] at hwindow
  · intro limit hlimit hle
    have hwindow : s.window.limit = some limit := by rw [hparts.window, hlimit]
    rw [G.answer_limited hwindow, Int.toNat_of_nonpos hle, List.take_zero]
  · rw [← decide_eq_decide.2 (Int.natCast_pos (n := G.counted c.dialect s store))]
    exact gives_exists hcount
  · intro hgroupBy
    have hnone : s.groupBy = [] := (eq_nil_iff_of_mapM hparts.groupBy).2 hgroupBy
    refine ⟨G.counted_eq hnone, (G.length_answer_bare).trans ?_⟩
    cases hcollects : G.collects s.projection with
    | true => rw [G.groups_of_collects hnone hcollects, if_pos rfl, List.length_singleton]
    | false =>
        rw [G.groups_of_not_collects hnone hcollects, if_neg Bool.false_ne_true, List.length_map, G.counted_eq hnone]
  · intro hgroupBy
    have hsome : s.groupBy ≠ [] := mt (eq_nil_iff_of_mapM hparts.groupBy).1 hgroupBy
    have hlength : (G.answer c.dialect { s with orderBy := [], window := {} } store).length =
        (classes (E.alike s.groupBy) (E.found c.dialect s store)).length := by
      rw [G.length_answer_bare, G.groups_of_groupBy hsome]
    rw [hlength]
    rcases G.counted_cases hsome c.dialect store with ⟨hzero, hnil⟩ | ⟨group, hgroup, hsize⟩
    · rw [hzero, hnil]
      exact ⟨rfl, iff_of_false (Nat.lt_irrefl 0) (Nat.lt_irrefl 0), fun h => absurd h (Nat.lt_irrefl 0)⟩
    · have hpositive := length_pos_of_mem_classes (E.alike_self s.groupBy) hgroup
      rw [hsize]
      exact ⟨rfl, iff_of_true hpositive (List.length_pos_of_mem hgroup), fun _ => ⟨group, hgroup, rfl⟩⟩

end

/-! ### Rows of two kinds -/

/-- The kinds of rows. -/
def kinds : Query := { table := "t", columns := [.text "kind"], groupBy := [.text "kind"] }

/-- The compiler for the table of kinds. -/
def kindsCompiler : Compiler := Engine.plainCompiler .sqlite []

/-- What a driver reads in the statements about kinds. -/
def kindsStatement (sql : String) (_ : List Value) : Option Statement :=
  (if sql = "SELECT \"kind\" FROM \"t\" GROUP BY \"kind\"" then kindsCompiler.select kinds
  else if sql = "SELECT \"kind\" FROM \"t\" GROUP BY \"kind\" LIMIT 1" then
    kindsCompiler.select { kinds with limit := some 1 }
  else kindsCompiler.select kinds.counting).toOption

theorem kindsStatement_readings {reading : Query} (h : reading ∈ kinds.readings) {s : Statement}
    (hs : kindsCompiler.select reading = .ok s) : kindsStatement s.sql s.params = some s := by
  have hall : ((kindsCompiler.select kinds).toOption.map Statement.sql) =
      some "SELECT \"kind\" FROM \"t\" GROUP BY \"kind\"" := by decide +kernel
  have hone : ((kindsCompiler.select { kinds with limit := some 1 }).toOption.map Statement.sql) =
      some "SELECT \"kind\" FROM \"t\" GROUP BY \"kind\" LIMIT 1" := by decide +kernel
  have hcounting : ((kindsCompiler.select kinds.counting).toOption.map Statement.sql) =
      some "SELECT COUNT(1) AS c FROM \"t\" GROUP BY \"kind\"" := by decide +kernel
  have hsql : ∀ {text}, (kindsCompiler.select reading).toOption.map Statement.sql = some text → s.sql = text := by
    intro text htext
    rw [hs] at htext
    exact Option.some.inj htext
  simp only [Query.readings, List.mem_cons, List.not_mem_nil, or_false] at h
  rcases h with rfl | rfl | rfl | rfl | rfl
  case inl | inr.inl | inr.inr.inl =>
    rw [kindsStatement, hsql hall, if_pos rfl]
    exact congrArg Except.toOption hs
  case inr.inr.inr.inl =>
    rw [kindsStatement, hsql hone, if_neg (by decide), if_pos rfl, hs]
    rfl
  case inr.inr.inr.inr =>
    rw [kindsStatement, hsql hcounting, if_neg (by decide), if_neg (by decide), hs]
    rfl

/-- An engine that makes groups of integers and texts. -/
def Engine.grouping : Engine := { Engine.simple with combined := Aggregation.simple.answer .sqlite }

/-- A handle on the table of kinds. -/
def kindsAccess : Access (Session Store) := (Engine.grouping.database .sqlite kindsStatement).access {}

theorem evaluates_kinds (store : Store) : kindsAccess.Evaluates "t" none kindsCompiler (kinds.reads kindsCompiler)
    (Aggregation.simple.answer .sqlite · store) (Database.Holds id (fun _ => none) · store) := by
  refine (Engine.grouping.serves_database .sqlite [] "t" ?_).evaluates ?_
  · rintro _ ⟨s, ⟨reading, hreading, hs⟩, rfl⟩
    exact kindsStatement_readings hreading (bind_eq_ok.2 ⟨s, hs, rfl⟩)
  · rintro s ⟨reading, hreading, hs⟩ - -
    have hgroupBy : s.groupBy = ["kind"] := by
      obtain ⟨-, -, -, hsame, -⟩ := Query.readings_keep hreading
      have hmade := (selects_of_selection hs).groupBy
      rw [hsame] at hmade
      exact (Except.ok.inj hmade).symm
    rw [Engine.answer, hgroupBy, List.isEmpty_cons, Bool.and_false, Bool.false_and, if_neg Bool.false_ne_true]
    rfl

/-- Three rows of each of two kinds. -/
def twoKinds : Store := fun _ => ["a", "b", "a", "b", "a", "b"].map fun kind => [(.text "kind", .text kind)]

/-- The selection of the kinds. -/
def kindsSelection : Selection := { projection := [.column "kind"], table := "t", groupBy := ["kind"] }

theorem classes_twoKinds : classes (Engine.simple.alike kindsSelection.groupBy)
    (Engine.simple.found .sqlite kindsSelection twoKinds) =
      [List.replicate 3 [(.text "kind", .text "a")], List.replicate 3 [(.text "kind", .text "b")]] := by
  have hfound : Engine.simple.found .sqlite kindsSelection twoKinds = twoKinds "t" :=
    List.filter_eq_self.2 fun row _ => rfl
  rw [hfound]
  rfl

/-- Two kinds are there, so there are rows. -/
theorem derived_reads_kinds :
    kindsAccess.Evaluates kinds.table kinds.timeout kindsCompiler (kinds.reads kindsCompiler)
      (Aggregation.simple.answer kindsCompiler.dialect · twoKinds) (Database.Holds id (fun _ => none) · twoKinds) ∧
    kinds.joins = [] ∧ kinds.having = [] ∧ kindsCompiler.selection kinds = .ok kindsSelection ∧
    ∃ w', outcome (Query.exists? kindsAccess kinds) { outside := twoKinds } = (.ok true, w') := by
  have V := evaluates_kinds twoKinds
  have hs : kindsCompiler.selection kinds = .ok kindsSelection := rfl
  obtain ⟨rows, unlimited, bare, n, -, -, ⟨-, hexists⟩, -, hgroups⟩ := derived_reads Aggregation.simple V rfl rfl hs
  obtain ⟨hlength, hpositive, -⟩ := hgroups (List.cons_ne_nil _ _)
  have htwo : bare.length = 2 := hlength.trans (congrArg List.length classes_twoKinds)
  obtain ⟨w', hw', -⟩ := hexists _ (Engine.holds_start (fun _ => none) twoKinds)
  rw [decide_eq_true (hpositive.2 (htwo ▸ Nat.two_pos))] at hw'
  exact ⟨V, rfl, rfl, hs, w', hw'⟩

/-- Two kinds come back, and the number of rows is told as three. -/
theorem count_one_kind :
    kindsAccess.Evaluates kinds.table kinds.timeout kindsCompiler (kinds.reads kindsCompiler)
      (Aggregation.simple.answer kindsCompiler.dialect · twoKinds) (Database.Holds id (fun _ => none) · twoKinds) ∧
    ∃ rows w' w'', outcome (Query.get kindsAccess kinds.bare) { outside := twoKinds } = (.ok rows, w') ∧ rows.length = 2 ∧
      outcome (Query.count kindsAccess kinds) { outside := twoKinds } = (.ok 3, w'') := by
  have V := evaluates_kinds twoKinds
  have hs : kindsCompiler.selection kinds = .ok kindsSelection := rfl
  have hstart := Engine.holds_start (fun _ => none) twoKinds
  have hgroupBy : kindsSelection.groupBy ≠ [] := List.cons_ne_nil _ _
  obtain ⟨w', hbare, -⟩ := gives_reading (q := kinds) V rfl rfl (by simp [Query.readings]) (selection_bare hs) _ hstart
  obtain ⟨w'', hcount, -⟩ := gives_counted Aggregation.simple V rfl rfl hs _ hstart
  have hthree : Aggregation.simple.counted kindsCompiler.dialect kindsSelection twoKinds = 3 := by
    have hcases := Aggregation.simple.counted_cases hgroupBy .sqlite twoKinds
    rw [classes_twoKinds] at hcases
    obtain ⟨-, hnil⟩ | ⟨group, hgroup, hsize⟩ := hcases
    · cases hnil
    · refine hsize.trans ?_
      rcases List.mem_pair.1 hgroup with rfl | rfl <;> rfl
  rw [hthree] at hcount
  refine ⟨V, _, w', w'', hbare, ?_, hcount⟩
  rw [Aggregation.simple.length_answer_bare, Aggregation.simple.groups_of_groupBy hgroupBy]
  exact congrArg List.length classes_twoKinds

end Polyquery
