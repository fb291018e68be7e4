import Polyquery.Proofs.Uniformity

/-! Rules on tables. Policy looks at the one table that a statement is submitted for, and requests submit their statements
for the table that these read from or write to; tables that a statement joins are not looked at. Main statement: requests go
as if whatever reads from a table that the rules bar, or writes to one, were turned away at once, before any guard, layer or
driver sees it. -/

namespace Polyquery

open Sql Session Rehearsal

variable {σ : Type} {db : Database σ} {h : Handle}

/-! ### Barred tables -/

/-- Whether rules bar a table: it is denied, or only others are allowed. -/
def TableRules.Bars (rules : TableRules) (table : String) : Prop :=
  table ∈ rules.denied ∨ rules.allowed ≠ [] ∧ table ∉ rules.allowed

instance (rules : TableRules) : DecidablePred rules.Bars := fun _ => inferInstanceAs (Decidable (_ ∨ _))

/-- The rule by which a statement on a barred table is rejected. Where changes are declined, they are declined before. -/
def TableRules.barring (rules : TableRules) (readonly : Bool) (c : Context) (table : String) : Rule :=
  if readonly && c.isWrite then .readonlyMode
  else if rules.allowed ≠ [] ∧ table ∉ rules.allowed then .tableNotAllowed
  else .tableDenied

/-- A statement on a barred table is rejected, and no guard is asked. -/
theorem Policy.check_barred {rules : TableRules} {table : String} (hbars : rules.Bars table) {c : Context}
    (htable : c.table = some table) (guards : List Guard) (readonly : Bool) :
    check rules guards readonly c = ([], .error (reject c (rules.barring readonly c table))) := by
  have hallowed : (!rules.allowed.isEmpty && !rules.allowed.contains table) =
      decide (rules.allowed ≠ [] ∧ table ∉ rules.allowed) := by
    rw [Bool.eq_iff_iff]
    simp
  have hchecked : checkTable rules c = .error (reject c
      (if rules.allowed ≠ [] ∧ table ∉ rules.allowed then .tableNotAllowed else .tableDenied)) := by
    simp only [checkTable, htable, hallowed, decide_eq_true_eq]
    by_cases hmissing : rules.allowed ≠ [] ∧ table ∉ rules.allowed
    · rw [if_pos hmissing, if_pos hmissing]
    · rw [if_neg hmissing, if_neg hmissing, if_pos (List.contains_iff_mem.2 (hbars.resolve_right hmissing))]
  rw [check, TableRules.barring]
  by_cases hwrite : (readonly && c.isWrite) = true
  · rw [if_pos hwrite, if_pos hwrite]
  · rw [if_neg hwrite, if_neg hwrite, hchecked]

namespace Database

/-- Whether the rules of a database bar a table, named with its prefix. They name tables without it. -/
def Bars (db : Database σ) (table : String) : Prop :=
  let rules := db.settings.rules
  { rules with
    allowed := rules.allowed.map db.settings.tableName
    denied := rules.denied.map db.settings.tableName : TableRules }.Bars table

instance (db : Database σ) : DecidablePred db.Bars := fun _ => inferInstanceAs (Decidable (_ ∨ _))

/-- A prefix hides no table from the rules. -/
theorem bars_tableName (db : Database σ) (table : String) :
    db.Bars (db.settings.tableName table) ↔ db.settings.rules.Bars table := by
  have hinjective : Function.Injective db.settings.tableName := fun _ _ => String.append_right_inj _ |>.1
  simp only [Bars, TableRules.Bars, List.mem_map_of_injective hinjective, ne_eq, List.map_eq_nil_iff]

/-! ### Requests -/

def turnAway (db : Database σ) (h : Handle) (s : Statement) (table : String) : Session σ Result := do
  let c : Context := { sql := s.sql, params := s.params, operation := s.operation, table }
  modify fun w => { w with recorder := w.recorder.record s.sql s.params }
  throw (Policy.reject c (db.settings.rules.barring h.readonly c table))

/-- What a handle lets its queries do, except that whatever is about a barred table is turned away at once. -/
def screened (db : Database σ) (h : Handle) : Access (Session σ) :=
  { db.access h with
    run := fun s table timeout => if db.Bars s.command.target then db.turnAway h s table else db.run h s table timeout }

/-- A statement that is submitted for a barred table is recorded and rejected, and nothing else happens. -/
theorem run_barred {table : String} (hbars : db.settings.rules.Bars table) (s : Statement) (timeout : Option Int) :
    db.run h s table timeout = db.turnAway h s table := by
  refine eq_of_outcome fun w => ?_
  have hchecked := Policy.check_barred hbars (c :=
    { sql := s.sql, params := s.params, operation := s.operation, table, route := h.route, timeout }) rfl
  exact outcome_runText_rejected (hchecked _ _)

theorem turnAway_rejects (db : Database σ) (h : Handle) (s : Statement) (table : String) (w : World σ) :
    ∃ f, f.isRejection = true ∧
      outcome (db.turnAway h s table) w = (.error f, { w with recorder := w.recorder.record s.sql s.params }) := by
  refine ⟨_, ?_, rfl⟩
  generalize db.settings.rules.barring _ _ _ = rule
  cases rule <;> rfl

theorem relates_screened (db : Database σ) (h : Handle) :
    (db.access h).Relates (db.screened h) (·.tablePrefix = db.settings.tablePrefix.getD "") (fun x y => x = y) where
  pure _ := rfl
  throw _ := rfl
  bind hx hk := by rw [hx, funext hk]
  known_bind {_ _ o _ _} hk := by
    cases o with
    | ok a => exact hk a rfl
    | error f => rfl
  dialect := rfl
  compiler {_ k l} table hk := by
    change db.compiler h table >>= k = db.compiler h table >>= l
    simp only [compiler, bind_assoc, pure_bind]
    exact congrArg (db.softDeleteFor? table >>= ·) (funext fun _ => hk _ rfl)
  hasColumn _ _ := rfl
  run {c s table} hprefix habout timeout := by
    -- the table that the rules see is the one in the text without its prefix
    have htarget : s.command.target = db.settings.tableName table := by
      rw [habout.target, Compiler.table, hprefix, Settings.tableName]
    change db.run h s table timeout = if db.Bars s.command.target then db.turnAway h s table else db.run h s table timeout
    split
    · rename_i hbars
      rw [htarget, bars_tableName] at hbars
      exact run_barred hbars s timeout
    · rfl
  lastKey _ := rfl
  transaction hx := congrArg (db.transaction h.testMode .null) hx

end Database

/-- A statement names the table that it is about behind one of these words. -/
theorem Statement.names_target (s : Statement) :
    ∃ before word rest, word ∈ [" FROM ", "INSERT INTO ", "UPDATE ", "DELETE FROM "] ∧
      s.fragment = before ++ .words word :: Fragment.reference s.command.target ++ rest := by
  obtain ⟨dialect, operation, command⟩ := s
  cases command with
  | select selection =>
      refine ⟨.words "SELECT " :: Fragment.separated ", " (selection.projection.map Projected.fragment), " FROM ", ?_⟩
      simp only [Statement.fragment, Command.fragment, Selection.fragment, List.append_assoc, List.cons_append]
      exact ⟨_, by simp, rfl⟩
  | insert insertion =>
      refine ⟨[], "INSERT INTO ", ?_⟩
      simp only [Statement.fragment, Command.fragment, Insertion.fragment, List.append_assoc, List.cons_append]
      exact ⟨_, by simp, rfl⟩
  | update change =>
      refine ⟨[], "UPDATE ", ?_⟩
      simp only [Statement.fragment, Command.fragment, Change.fragment, List.append_assoc, List.cons_append]
      exact ⟨_, by simp, rfl⟩
  | delete removal => exact ⟨[], "DELETE FROM ", whereClause removal.condition, by simp, rfl⟩

/-- Requests go through a handle as if every statement were turned away that names a table, behind `FROM`, `INTO` or
`UPDATE`, which the rules deny or do not allow. What is turned away is recorded and rejected, and nothing else happens: no
guard is asked, and no layer or driver sees it. Rules name tables without their prefix. -/
theorem answer_screened (db : Database σ) (h : Handle) (q : Query) (e : Ending) :
    e.answer (db.access h) q = e.answer (db.screened h) q ∧
    (∀ s table timeout, db.Bars s.command.target → ∀ w, ∃ f, f.isRejection = true ∧
      outcome ((db.screened h).run s table timeout) w =
        (.error f, { w with recorder := w.recorder.record s.sql s.params })) ∧
    ∀ s : Statement, ∃ before word rest, word ∈ [" FROM ", "INSERT INTO ", "UPDATE ", "DELETE FROM "] ∧
      s.fragment = before ++ .words word :: Fragment.reference s.command.target ++ rest := by
  refine ⟨(db.relates_screened h).answer q e, fun s table timeout hbars w => ?_, Statement.names_target⟩
  have hturned : (db.screened h).run s table timeout = db.turnAway h s table := if_pos hbars
  rw [hturned]
  exact db.turnAway_rejects h s table w

/-- What a statement joins is not looked at, and a rule that names a table with its prefix means another one. -/
theorem joined_unscreened :
    let sent (settings : Settings) (q : Query) :=
      (after (Ending.rows.answer ({ Database.ready with settings }.access {}) q) { outside := () }).journal.filterMap
        (Event.executed? · |>.map (·.1))
    sent { rules := { denied := ["secrets"] } }
        { table := "users", joins := [{ table := "secrets", left := "secrets.id", right := "users.id" }] } =
      ["SELECT * FROM \"users\" INNER JOIN \"secrets\" ON \"secrets\".\"id\" = \"users\".\"id\""] ∧
    sent { tablePrefix := some "app_", rules := { denied := ["app_users"] } } { table := "users" } =
      ["SELECT * FROM \"app_users\""] := by
  decide +kernel

end Polyquery
