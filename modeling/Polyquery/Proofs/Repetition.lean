import Polyquery.Proofs.Reach
import Polyquery.Proofs.Upsert

/-! Upserts in steps, done twice. Main statement: where the scope of a handle holds of the row that is stored, and of rows
that the upsert overwrites, the second upsert finds what the first has left and leaves it as it is. A scope is not written
into new rows, so without this the second one adds the row once more. -/

namespace Polyquery

open Sql Session

variable {σ : Type} {E : Engine} {c : Compiler} {cells : List (String × Value)} {conflict names : List String}

/-- Rows with the same cell in every column. -/
def Row.Alike (a b : Row) : Prop := ∀ column, a.get column = b.get column

/-! ### Columns that are named twice -/

theorem Row.putEntry_held {done : List String} {name : String} (hmem : name ∈ done) :
    Value.putEntry (.text name) (cellOf cells name) (named (cellsOf cells done)) = named (cellsOf cells done) := by
  have hcons : ∀ other rest, named (cellsOf cells (other :: rest)) =
      (.text other, cellOf cells other) :: named (cellsOf cells rest) := fun _ _ => rfl
  induction done with
  | nil => cases hmem
  | cons other done ih =>
      rw [hcons, Value.putEntry, Value.same_text]
      by_cases hsame : other = name
      · rw [if_pos (decide_eq_true hsame), hsame]
      · rw [if_neg (by simpa using hsame), ih ((List.mem_cons.1 hmem).resolve_left (Ne.symm hsame))]

/-- Entries under names that repeat make the row with each name once, in the order of their first mention. -/
theorem Row.ofEntries_distinct (cells : List (String × Value)) (names : List String) :
    Value.ofEntries (named (cellsOf cells names)) = named (cellsOf cells names.eraseDups) := by
  suffices hfold : ∀ done : List String,
      (named (cellsOf cells names)).foldl (fun done entry => Value.putEntry entry.1 entry.2 done)
          (named (cellsOf cells done)) =
        named (cellsOf cells (done ++ (names.filter fun name => !done.contains name).eraseDups)) by
    have hnone : (names.filter fun name => !([] : List String).contains name) = names :=
      List.filter_eq_self.2 fun _ _ => rfl
    have hall := hfold []
    rw [List.nil_append, hnone] at hall
    exact hall
  induction names with
  | nil => exact fun done => by rw [List.filter_nil, List.eraseDups_nil, List.append_nil]; rfl
  | cons name names ih =>
      intro done
      change (named (cellsOf cells names)).foldl _ (Value.putEntry (.text name) (cellOf cells name)
        (named (cellsOf cells done))) = _
      by_cases hheld : name ∈ done
      · rw [putEntry_held hheld, ih, List.filter_cons_of_neg (by simpa using hheld)]
      · have hnew : Value.putEntry (.text name) (cellOf cells name) (named (cellsOf cells done)) =
            named (cellsOf cells (done ++ [name])) := by
          rw [putEntry_named (by rwa [map_cellsOf]), cellsOf, cellsOf, List.map_append]
          rfl
        have hlater : (names.filter fun other => !(done ++ [name]).contains other) =
            (names.filter fun other => !done.contains other).filter fun other => !other == name := by
          rw [List.filter_filter]
          refine List.filter_congr fun other _ => Bool.eq_iff_iff.2 ?_
          simp [and_comm]
        rw [hnew, ih, hlater, List.filter_cons_of_pos (by simpa using hheld), List.eraseDups_cons, List.append_assoc,
          List.singleton_append]

theorem upsertable_distinct {update : Option (List String)} (U : Upsertable cells conflict update) :
    Upsertable cells conflict (some (updateNames cells conflict update).eraseDups) where
  keyed := U.keyed
  keysIn := U.keysIn
  updating := by
    obtain ⟨name, hname⟩ := List.exists_mem_of_ne_nil _ U.updating
    exact List.ne_nil_of_mem (List.mem_eraseDups.2 hname)
  updatesIn name hname := U.updatesIn name (List.mem_eraseDups.1 hname)

/-! ### The row that was written -/

namespace Engine

theorem get_cellsOf_of_mem {column : String} (h : column ∈ names) (cells : List (String × Value)) (row : Row) :
    (overwritten (cellsOf cells names) row).get column = cellOf cells column := by
  refine get_overwritten_of_mem (by rwa [map_cellsOf]) (fun cell hcell hname => ?_) row
  obtain ⟨name, -, rfl⟩ := List.mem_map.1 hcell
  exact congrArg (cellOf cells) hname

theorem get_cellsOf_of_notMem {column : String} (h : column ∉ names) (cells : List (String × Value)) (row : Row) :
    (overwritten (cellsOf cells names) row).get column = row.get column :=
  get_overwritten_of_notMem (by rwa [map_cellsOf]) row

/-- A row that has the new cells already is overwritten with what it has. -/
theorem alike_overwritten {row : Row} (h : ∀ name ∈ names, row.get name = cellOf cells name) :
    row.Alike (overwritten (cellsOf cells names) row) := by
  intro column
  by_cases hmem : column ∈ names
  · rw [get_cellsOf_of_mem hmem, h column hmem]
  · rw [get_cellsOf_of_notMem hmem]

theorem keyTruth_self (C : Collation) (value : Value) : C.keyTruth value value = .yes := by
  have hlawful := C.lawful
  rw [Collation.keyTruth]
  cases hnull : value.isNull with
  | true => rfl
  | false => exact C.compared_equal.2 ⟨hnull, hnull, Std.ReflCmp.compare_self⟩

/-- The rows that the count of an upsert finds: those in the scope that have its keys. -/
theorem meets_keys_inScope (E : Engine) {c : Compiler} (hplain : ∀ column ∈ conflict, PlainColumn column) {chain : Chain}
    (h : c.whereChain (keyFilters cells conflict) .withTrashed c.scope "" = .ok chain) (row : Row) :
    E.meets c.dialect chain row = true ↔
      E.InScope c row ∧ ∀ column ∈ conflict, E.keyTruth (row.get column) (cellOf cells column) = .yes := by
  have hvisible : visibilityTruth c.dialect (E.truth row) c.softDelete .withTrashed "" = .yes := by
    cases c.softDelete <;> rfl
  rw [E.meets_whereChain h, hvisible, Truth.and_yes, E.truths_keys c.dialect cells hplain, Truth.chain_all,
    Truth.and_eq_yes_iff, Truth.all_eq_yes_iff, Truth.all_eq_yes_iff, List.forall_mem_map]
  rfl

/-- What an upsert writes stays in the scope of its handle: the row that is stored is in it, and overwriting leads no row
out of it. -/
structure KeepsScope (E : Engine) (c : Compiler) (cells : List (String × Value)) (names : List String) : Prop where
  inserted : E.InScope c (E.stored cells)
  updated : ∀ row, E.InScope c row → E.InScope c (overwritten (cellsOf cells names) row)

theorem inScope_named {given : List (String × Value)} (hscope : c.scope = Row.named given)
    (hplain : ∀ entry ∈ given, PlainColumn entry.1) (row : Row) :
    E.InScope c row ↔ ∀ entry ∈ given, E.keyTruth (row.get entry.1) entry.2 = .yes := by
  rw [InScope, scopeTruths, hscope, List.forall_mem_map, Row.named, List.forall_mem_map]
  refine forall₂_congr fun entry hentry => ?_
  rw [← E.comparisonTruth_key c.dialect (hplain entry hentry)]
  rfl

/-- A row that carries the columns of the scope, with values that are equal, keeps the scope. -/
theorem keepsScope_carried {given : List (String × Value)} (hscope : c.scope = Row.named given)
    (hplain : ∀ entry ∈ given, PlainColumn entry.1) (hnodup : (cells.map (·.1)).Nodup)
    (hcarried : ∀ entry ∈ given, ∃ value, (entry.1, value) ∈ cells ∧ E.keyTruth value entry.2 = .yes)
    (names : List String) : E.KeepsScope c cells names := by
  constructor
  · refine (inScope_named hscope hplain _).2 fun entry hentry => ?_
    obtain ⟨value, hmem, htruth⟩ := hcarried entry hentry
    rwa [E.stored_get hnodup hmem]
  · intro row hrow
    refine (inScope_named hscope hplain _).2 fun entry hentry => ?_
    obtain ⟨value, hmem, htruth⟩ := hcarried entry hentry
    by_cases hwritten : entry.1 ∈ names
    · rwa [get_cellsOf_of_mem hwritten, cellOf_of_mem hnodup hmem]
    · rw [get_cellsOf_of_notMem hwritten]
      exact (inScope_named hscope hplain row).1 hrow entry hentry

section

variable {chain : Chain} (hplain : ∀ column ∈ conflict, PlainColumn column)
  (h : c.whereChain (keyFilters cells conflict) .withTrashed c.scope "" = .ok chain) (K : E.KeepsScope c cells names)
include hplain h K

theorem meets_overwritten {row : Row} (hmeets : E.meets c.dialect chain row = true) :
    E.meets c.dialect chain (overwritten (cellsOf cells names) row) = true := by
  obtain ⟨hscope, hkeys⟩ := (E.meets_keys_inScope hplain h row).1 hmeets
  refine (E.meets_keys_inScope hplain h _).2 ⟨K.updated row hscope, fun column hcolumn => ?_⟩
  by_cases hmem : column ∈ names
  · rw [get_cellsOf_of_mem hmem, keyTruth_self]
  · rw [get_cellsOf_of_notMem hmem, hkeys column hcolumn]

theorem meets_stored (hnodup : (cells.map (·.1)).Nodup) (hkeys : ∀ column ∈ conflict, column ∈ cells.map (·.1)) :
    E.meets c.dialect chain (E.stored cells) = true := by
  refine (E.meets_keys_inScope hplain h _).2 ⟨K.inserted, fun column hcolumn => ?_⟩
  obtain ⟨cell, hcell, rfl⟩ := List.mem_map.1 (hkeys column hcolumn)
  rw [E.stored_get hnodup hcell, cellOf_of_mem hnodup hcell, keyTruth_self]

/-- Behind an upsert in steps its count finds a row, and whatever it finds has the new cells. -/
theorem stepped_settled (hnodup : (cells.map (·.1)).Nodup) (hkeys : ∀ column ∈ conflict, column ∈ cells.map (·.1))
    (hnames : ∀ name ∈ names, name ∈ cells.map (·.1)) (rows : List Row) :
    (∃ row ∈ E.stepped (E.meets c.dialect chain) cells names rows, E.meets c.dialect chain row = true) ∧
      ∀ row ∈ E.stepped (E.meets c.dialect chain) cells names rows, E.meets c.dialect chain row = true →
        ∀ name ∈ names, row.get name = cellOf cells name := by
  rw [stepped]
  cases hfound : rows.any (E.meets c.dialect chain) with
  | true =>
      rw [if_pos rfl]
      constructor
      · obtain ⟨row, hrow, hmeets⟩ := List.any_eq_true.1 hfound
        refine ⟨_, List.mem_map_of_mem hrow, ?_⟩
        rw [if_pos hmeets]
        exact meets_overwritten hplain h K hmeets
      · intro row' hrow' hmeets' name hname
        obtain ⟨row, -, rfl⟩ := List.mem_map.1 hrow'
        split at hmeets'
        · rw [if_pos ‹_›]
          exact get_cellsOf_of_mem hname cells row
        · exact absurd hmeets' ‹_›
  | false =>
      rw [if_neg Bool.false_ne_true]
      refine ⟨⟨_, List.mem_concat_self, meets_stored hplain h K hnodup hkeys⟩, fun row hrow hmeets name hname => ?_⟩
      rcases List.mem_append.1 hrow with hold | hnew
      · exact absurd hmeets (by simpa using List.any_eq_false.1 hfound row hold)
      · rw [List.mem_singleton.1 hnew]
        obtain ⟨cell, hcell, rfl⟩ := List.mem_map.1 (hnames name hname)
        rw [E.stored_get hnodup hcell, cellOf_of_mem hnodup hcell]

/-- An upsert in steps leaves the rows of an earlier one as they are. -/
theorem stepped_twice (hnodup : (cells.map (·.1)).Nodup) (hkeys : ∀ column ∈ conflict, column ∈ cells.map (·.1))
    (hnames : ∀ name ∈ names, name ∈ cells.map (·.1)) (rows : List Row) :
    let once := E.stepped (E.meets c.dialect chain) cells names rows
    List.Forall₂ Row.Alike once (E.stepped (E.meets c.dialect chain) cells names once) := by
  intro once
  obtain ⟨⟨row, hrow, hmeets⟩, hsettled⟩ := stepped_settled hplain h K hnodup hkeys hnames rows
  have hfound : once.any (E.meets c.dialect chain) = true := List.any_eq_true.2 ⟨row, hrow, hmeets⟩
  rw [stepped, if_pos hfound, List.forall₂_map_right_iff]
  refine List.forall₂_same.2 fun row hrow => ?_
  split
  · exact alike_overwritten (hsettled row hrow ‹_›)
  · exact fun column => rfl

end

end Engine

/-! ### The same upsert once more -/

namespace Query

variable {db : Access (Session σ)} {holds : World σ → Store → Prop} {q : Query} {update : Option (List String)}

/-- One upsert in steps through a handle, as a transaction. -/
theorem upsert_found
    (S : E.Serves db q.table q.timeout c
      (Stepping c q.table cells conflict (some (updateNames cells conflict update).eraseDups)) holds)
    (hsteps : c.dialect.hasUpsert = false) (U : Upsertable cells conflict update) (hcells : (cells.map (·.1)).Nodup)
    {chain : Chain} (h : c.whereChain (keyFilters cells conflict) .withTrashed c.scope "" = .ok chain) (store : Store) :
    ∃ n, ∀ {w}, holds w store → ∃ w',
      outcome (upsert db q (Row.named cells) (namesValue conflict) (updateValue update)) w = (.ok n, w') ∧
        holds w' (Engine.put (c.table q.table) (E.stepped (E.meets c.dialect chain) cells
          (updateNames cells conflict update).eraseDups (store (c.table q.table))) store) := by
  obtain ⟨n, hsteps'⟩ := upsertInSteps_found S (upsertable_distinct U) hcells
    (Row.ofEntries_distinct cells (updateNames cells conflict update)) h store
  refine ⟨n, fun {w} hholds => ?_⟩
  rw [upsert_stepped db (S.dialect ▸ hsteps) q U]
  exact S.transaction hsteps' hholds

/-- Where what it writes stays in the scope, and the conflict columns are plain, an upsert in steps that is done twice leaves
the rows that it leaves when it is done once: the second time it finds what the first has written. -/
theorem upsert_twice
    (S : E.Serves db q.table q.timeout c
      (Stepping c q.table cells conflict (some (updateNames cells conflict update).eraseDups)) holds)
    (hsteps : c.dialect.hasUpsert = false) (U : Upsertable cells conflict update) (hcells : (cells.map (·.1)).Nodup)
    (hplain : ∀ column ∈ conflict, PlainColumn column)
    (K : E.KeepsScope c cells (updateNames cells conflict update).eraseDups) {chain : Chain}
    (h : c.whereChain (keyFilters cells conflict) .withTrashed c.scope "" = .ok chain) {w : World σ} {store : Store}
    (hholds : holds w store) :
    let once := upsert db q (Row.named cells) (namesValue conflict) (updateValue update)
    ∃ n n' v v' rows rows', outcome once w = (.ok n, v) ∧ outcome once v = (.ok n', v') ∧
      holds v (Engine.put (c.table q.table) rows store) ∧ holds v' (Engine.put (c.table q.table) rows' store) ∧
      (∃ row ∈ rows, E.meets c.dialect chain row = true) ∧ List.Forall₂ Row.Alike rows rows' := by
  intro once
  obtain ⟨n, hfirst⟩ := upsert_found S hsteps U hcells h store
  obtain ⟨v, honce, hleft⟩ := hfirst hholds
  obtain ⟨n', hsecond⟩ := upsert_found S hsteps U hcells h (Engine.put (c.table q.table) _ store)
  obtain ⟨v', htwice, hleft'⟩ := hsecond hleft
  have hput : ∀ rows rows', Engine.put (c.table q.table) rows' (Engine.put (c.table q.table) rows store) =
      Engine.put (c.table q.table) rows' store := by
    intro rows rows'
    funext name
    by_cases hname : name = c.table q.table
    · rw [hname, Engine.put_self, Engine.put_self]
    · rw [Engine.put_other hname, Engine.put_other hname, Engine.put_other hname]
  rw [Engine.put_self, hput] at hleft'
  have hnames : ∀ name ∈ (updateNames cells conflict update).eraseDups, name ∈ cells.map (·.1) := fun name hname =>
    U.updatesIn name (List.mem_eraseDups.1 hname)
  exact ⟨n, n', v, v', _, _, honce, htwice, hleft, hleft',
    (Engine.stepped_settled hplain h K hcells U.keysIn hnames _).1,
    Engine.stepped_twice hplain h K hcells U.keysIn hnames _⟩

/-! ### A tenant's rows -/

/-- The statements of an upsert in steps that compile. -/
def steps (c : Compiler) (cells : List (String × Value)) (conflict names : List String) : List Statement :=
  [c.select { keyQuery "t" cells conflict with columns := [.text "COUNT(1) AS c"] },
    c.update (keyQuery "t" cells conflict) (Row.named (cellsOf cells names)) .upsert,
    (c.insert "t" [Row.named cells]).map fun s => { s with operation := .upsert }].filterMap Except.toOption

theorem mem_steps {s : Statement} (h : Stepping c "t" cells conflict (some names) s) : s ∈ steps c cells conflict names := by
  rw [steps, List.mem_filterMap]
  cases h with
  | counting hcompiled => exact ⟨_, .head _, by rw [hcompiled]; rfl⟩
  | changing hcompiled =>
      have hnames : updateNames cells conflict (some names) = names := rfl
      exact ⟨_, .tail _ (.head _), by rw [← hnames, hcompiled]; rfl⟩
  | inserting hcompiled => exact ⟨_, .tail _ (.tail _ (.head _)), by rw [hcompiled]; rfl⟩

/-- Statements with texts of their own are found by them. -/
theorem find?_sql {known : List Statement} (hdistinct : (known.map Statement.sql).Nodup) {s : Statement} (h : s ∈ known) :
    known.find? (fun other => other.sql = s.sql) = some s := by
  induction known with
  | nil => cases h
  | cons first known ih =>
      obtain ⟨hnew, hrest⟩ := List.nodup_cons.1 hdistinct
      rcases List.mem_cons.1 h with rfl | h
      · exact List.find?_cons_of_pos (decide_eq_true rfl)
      · have hother : first.sql ≠ s.sql := fun hsame => hnew (hsame ▸ List.mem_map_of_mem h)
        rw [List.find?_cons_of_neg (by simpa using hother)]
        exact ih hrest h

/-- The compiler of a tenant. -/
def tenantCompiler : Compiler := Engine.plainCompiler .ansi [(.text "tenant", .int 7)]

/-- A handle of that tenant, over a driver that knows the statements of an upsert by their texts. -/
def tenantAccess (cells : List (String × Value)) (names : List String) : Access (Session Store) :=
  let known := steps tenantCompiler cells ["id"] names
  (Engine.simple.database .ansi fun sql _ => known.find? fun s => s.sql = sql).access { scope := tenantCompiler.scope }

/-- An upsert through that handle. -/
def upsertTenant (cells : List (String × Value)) (names : List String) : Session Store Value :=
  upsert (tenantAccess cells names) { table := "t" } (Row.named cells) (namesValue ["id"]) (updateValue (some names))

theorem serves_tenant (hdistinct : ((steps tenantCompiler cells ["id"] names).map Statement.sql).Nodup) :
    Engine.simple.Serves (tenantAccess cells names) "t" none tenantCompiler
      (Stepping tenantCompiler "t" cells ["id"] (some names)) (Database.Holds id fun _ => none) :=
  Engine.simple.serves_database .ansi tenantCompiler.scope "t" fun h => find?_sql hdistinct (mem_steps h)

/-- A row of the tenant is added beside that of another tenant, and found the second time. -/
theorem upsert_twice_tenant :
    let cells := [("id", .int 1), ("tenant", .int 7), ("v", .int 2)]
    let store : Store := fun _ => [Row.named [("id", .int 1), ("tenant", .int 8), ("v", .int 0)]]
    ∃ n n' v v', outcome (upsertTenant cells ["v"]) { outside := store } = (.ok n, v) ∧
      outcome (upsertTenant cells ["v"]) v = (.ok n', v') ∧ List.Forall₂ Row.Alike (v.outside "t") (v'.outside "t") := by
  intro cells store
  have U : Upsertable cells ["id"] (some ["v"]) := ⟨by decide, by decide, by decide, by decide⟩
  have K : Engine.simple.KeepsScope tenantCompiler cells ["v"] := by
    have hscope : tenantCompiler.scope = Row.named [("tenant", .int 7)] := rfl
    refine Engine.keepsScope_carried hscope ?_ (by decide) ?_ _
    · exact List.forall_mem_singleton.2 ⟨by decide, by decide⟩
    · exact List.forall_mem_singleton.2 ⟨.int 7, .tail _ (.head _), by decide⟩
  have hplain : ∀ column ∈ ["id"], PlainColumn column := List.forall_mem_singleton.2 ⟨by decide, by decide⟩
  obtain ⟨chain, hchain⟩ : ∃ chain, tenantCompiler.whereChain (keyFilters cells ["id"]) .withTrashed
      tenantCompiler.scope "" = .ok chain := ⟨_, rfl⟩
  obtain ⟨n, n', v, v', rows, rows', honce, htwice, hleft, hleft', -, halike⟩ :=
    upsert_twice (q := { table := "t" }) (serves_tenant (by decide +kernel)) rfl U (by decide) hplain K hchain
      (Engine.holds_start (fun _ => none) store)
  have hrows : v.outside "t" = rows := congrFun hleft.content "t"
  have hrows' : v'.outside "t" = rows' := congrFun hleft'.content "t"
  exact ⟨n, n', v, v', honce, htwice, by rwa [hrows, hrows']⟩

/-- The scope is not written into new rows: a row without the tenant's column is added again each time. -/
theorem upsert_twice_scoped :
    let once := upsertTenant (keyedCells "id" 1 2) ["v"]
    let twice := do
      let _ ← once
      once
    Upsertable (keyedCells "id" 1 2) ["id"] (some ["v"]) ∧ (ending twice { outside := fun _ => [] }).isOk = true ∧
      ((after once { outside := fun _ => [] }).outside "t").length = 1 ∧
      ((after twice { outside := fun _ => [] }).outside "t").length = 2 := by
  refine ⟨⟨by decide, by decide, by decide, by decide⟩, ?_, ?_, ?_⟩ <;> decide +kernel

end Query

end Polyquery
