import Polyquery.Proofs.Attempts
import Polyquery.Proofs.Engine
import Polyquery.Proofs.Lookups
import Polyquery.Session.Access

/-! Handles over a driver behind which an engine stands. Nothing but the driver touches the store, and where a handle has no
modes and its session neither layers nor guards, every statement reaches the driver as it is. Main statement: such a handle
gives its queries an access through which the engine carries out what the driver understands. -/

namespace Polyquery

open Sql Session

variable {σ : Type}

/-- A driver behind which an engine stands: on the store that a state holds it carries out the statements that it
understands. -/
structure Engine.Drives (E : Engine) (p : Port σ) (sent : Statement → Prop) (content : σ → Store) : Prop where
  prepare : ∀ sql s, ∃ s', p.prepare sql s = .ok () s' ∧ content s' = content s
  execute : ∀ {statement}, sent statement → ∀ s, ∃ s', p.execute statement.sql statement.params s =
    .ok (E.result statement (content s)) s' ∧ content s' = E.effect statement (content s)
  start : ∀ s, ∃ s', p.start s = .ok () s' ∧ content s' = content s
  commit : ∀ s, ∃ s', p.commit s = .ok () s' ∧ content s' = content s

namespace Engine

/-- A statement carried out on a store. -/
def carryOut (E : Engine) (s : Statement) : Effect Store Result := fun store => .ok (E.result s store) (E.effect s store)

/-- The driver of an engine, which carries out the statement that it reads in a text with its parameters. -/
def driver (E : Engine) (read : String → List Value → Option Statement) : Port Store where
  prepare _ := pure ()
  execute sql params := match read sql params with
    | some s => E.carryOut s
    | none => throw (.of (.execution ⟨.fatal, "syntax error", some sql, .null⟩))
  lastKey := pure .null
  start := pure ()
  commit := pure ()
  rollback := pure ()

/-- An engine stands behind its driver for the statements that are read as they are meant. -/
theorem drives_driver (E : Engine) {read : String → List Value → Option Statement} {sent : Statement → Prop}
    (hread : ∀ {s}, sent s → read s.sql s.params = some s) : E.Drives (E.driver read) sent id where
  prepare _ s := ⟨s, rfl, rfl⟩
  execute {statement} hsent s := by
    refine ⟨E.effect statement s, ?_, rfl⟩
    dsimp only [driver]
    rw [hread hsent]
    rfl
  start s := ⟨s, rfl, rfl⟩
  commit s := ⟨s, rfl, rfl⟩

end Engine

namespace Database

variable {db : Database σ} {h : Handle} {p : Port σ} {content : σ → Store} {columns : String → Option (List String)}
  {E : Engine} {sent : Statement → Prop} {w : World σ} {store : Store} {table : String}

/-- A handle whose statements on a table go to a driver as they are, over a catalogue of known columns. -/
structure Passes (db : Database σ) (h : Handle) (p : Port σ) (columns : String → Option (List String))
    (table : String) : Prop where
  primary : db.primary = .port p
  replica : db.replica = none
  catalogue : ∃ schema, db.catalogue = .reflected schema columns
  writable : h.readonly = false
  live : h.testMode = false
  allowed : ∀ {c : Context}, c.table = some table → Policy.checkTable db.settings.rules c = .ok ()
  attempts : 1 ≤ db.settings.retry.attempts

/-- A session without layers and guards that holds a store, and remembers nothing wrong about columns. -/
structure Holds (content : σ → Store) (columns : String → Option (List String)) (w : World σ) (store : Store) : Prop where
  content : content w.outside = store
  layers : w.layers = []
  guards : w.guards = []
  columns : ∀ {table column found}, w.columns.get? table column = some found →
    found = (columns table).any (·.contains column)

theorem Holds.called (H : Holds content columns w store) (event : Event) {s : σ} {store' : Store}
    (hcontent : content s = store') : Holds content columns (called w event s) store' :=
  ⟨hcontent, H.layers, H.guards, H.columns⟩

/-! ### The compiler of a table -/

/-- The compiler for a table where the columns are known. -/
def compilerFor (db : Database σ) (h : Handle) (columns : String → Option (List String)) (table : String) : Compiler where
  dialect := db.dialect
  scope := h.scope
  softDelete :=
    let s := db.settings.softDelete
    if s.enabled && table ≠ "" then
      if (columns (db.settings.tableName table)).any (·.contains s.column) then some s else none
    else none
  maxInValues := db.settings.maxInValues
  tablePrefix := db.settings.tablePrefix.getD ""
  now := .text db.moment.text

theorem tableHasColumn_holds {schema : Option String} (hcatalogue : db.catalogue = .reflected schema columns)
    (H : Holds content columns w store) (table column : String) :
    ∃ w', outcome (db.tableHasColumn table column) w = (.ok ((columns table).any (·.contains column)), w') ∧
      Holds content columns w' store := by
  rw [tableHasColumn, outcome_get_bind]
  cases hknown : w.columns.get? table column with
  | some found => exact ⟨w, by rw [outcome_pure, H.columns hknown], H⟩
  | none =>
      have hasked := lookUpColumn_reflected db table column (w := w) hcatalogue
      refine ⟨_, outcome_bind_ok hasked, H.content, H.layers, H.guards, fun {other name found} hfound => ?_⟩
      dsimp only [outcome, called] at hfound
      rw [ColumnCache.get?_put] at hfound
      split at hfound
      case isTrue hsame =>
        obtain ⟨rfl, rfl⟩ := hsame
        exact (Option.some.inj hfound).symm
      case isFalse => exact H.columns hfound

theorem compiler_holds (P : db.Passes h p columns table) (H : Holds content columns w store) :
    ∃ w', outcome (db.compiler h table) w = (.ok (db.compilerFor h columns table), w') ∧
      Holds content columns w' store := by
  obtain ⟨schema, hcatalogue⟩ := P.catalogue
  have hsoft : ∃ w', outcome (db.softDeleteFor? table) w = (.ok (db.compilerFor h columns table).softDelete, w') ∧
      Holds content columns w' store := by
    rw [softDeleteFor?, compilerFor]
    dsimp only
    cases hasked : db.settings.softDelete.enabled && table ≠ "" with
    | false => exact ⟨w, rfl, H⟩
    | true =>
        obtain ⟨w', hcolumn, H'⟩ := tableHasColumn_holds hcatalogue H (db.settings.tableName table)
          db.settings.softDelete.column
        refine ⟨w', ?_, H'⟩
        rw [if_pos rfl, if_pos rfl, hasColumn, outcome_bind_ok hcolumn]
        cases (columns (db.settings.tableName table)).any (·.contains db.settings.softDelete.column) <;> rfl
  obtain ⟨w', hsoft, H'⟩ := hsoft
  exact ⟨w', outcome_bind_ok hsoft, H'⟩

/-! ### A statement on its way to the driver -/

theorem prepare_holds (D : E.Drives p sent content) (hprimary : db.primary = .port p) (H : Holds content columns w store)
    (sql : String) : ∃ w', outcome (db.prepare .primary sql) w = (.ok ⟨sql⟩, w') ∧ Holds content columns w' store := by
  obtain ⟨s, hprepared, hcontent⟩ := D.prepare sql w.outside
  refine ⟨_, ?_, H.called (.driver .primary (.prepare sql)) (hcontent.trans H.content)⟩
  rw [prepare, driver, hprimary, Driver.prepare, outcome_call_bind_ok hprepared, outcome_pure]

theorem execute_holds (D : E.Drives p sent content) (hprimary : db.primary = .port p) (H : Holds content columns w store)
    {s : Statement} (hsent : sent s) :
    ∃ w', outcome (db.execute .primary ⟨s.sql⟩ s.params) w = (.ok (E.result s store), w') ∧
      Holds content columns w' (E.effect s store) := by
  obtain ⟨x, hexecuted, hcontent⟩ := D.execute hsent w.outside
  rw [H.content] at hexecuted hcontent
  refine ⟨_, ?_, H.called (.driver .primary (.execute s.sql s.params)) hcontent⟩
  rw [execute, driver, hprimary, Driver.execute, outcome_call_ok hexecuted]

theorem report_holds (c : Context) (r : Result) (H : Holds content columns w store) :
    ∃ w', outcome (report c r) w = (.ok (), w') ∧ Holds content columns w' store := by
  rw [report, outcome_get_bind]
  cases w.measures <;> cases w.reports <;> exact ⟨_, rfl, H.content, H.layers, H.guards, H.columns⟩

theorem core_holds (D : E.Drives p sent content) (hprimary : db.primary = .port p) (H : Holds content columns w store)
    {s : Statement} (hsent : sent s) {c : Context} (hsql : c.sql = s.sql) (hparams : c.params = s.params)
    (htimeout : c.timeout = none) :
    ∃ w', outcome (db.core .primary c) w = (.ok (E.result s store), w') ∧
      Holds content columns w' (E.effect s store) := by
  obtain ⟨w₁, hprepared, H₁⟩ := prepare_holds D hprimary H c.sql
  obtain ⟨w₂, hexecuted, H₂⟩ := execute_holds D hprimary H₁ hsent
  obtain ⟨w₃, hreported, H₃⟩ := report_holds c (E.result s store) H₂
  refine ⟨w₃, ?_, H₃⟩
  have hperformed : outcome (db.perform .primary ⟨c.sql⟩ c) w₁ = (.ok (E.result s store), w₂) := by
    rw [perform, hsql, hparams, outcome_attempt_bind_of hexecuted, outcome_pure]
  have hensured : outcome (ensuring (db.perform .primary ⟨c.sql⟩ c) (pure ())) w₁ = (.ok (E.result s store), w₂) := by
    rw [outcome_ensuring_ok (outcome_pure () _), ending, after, hperformed]
  have hlift : outcome (db.applyTimeout .primary c.timeout) w₁ = (.ok none, w₁) := by
    rw [htimeout]
    rfl
  rw [core, outcome_bind_ok hprepared, outcome_bind_ok hlift, outcome_bind_ok hensured, outcome_bind_ok hreported,
    outcome_pure]

/-- No layers stand between a session without any and its driver. -/
theorem chainFor_holds (link : Link) (H : Holds content columns w store) :
    ∃ w', outcome (chainFor link) w = (.ok ⟨link, []⟩, w') ∧ Holds content columns w' store := by
  rcases outcome_chainFor link w with ⟨⟨_, layers⟩, -, rfl, hsame, hfound⟩ | ⟨kept, -, hcomposed⟩
  · have hnone : layers = [] := by simpa [sameLayers, H.layers] using hsame
    exact ⟨w, by rw [hfound, hnone], H⟩
  · rw [H.layers] at hcomposed
    exact ⟨_, hcomposed, H.content, rfl, H.guards, H.columns⟩

theorem run_holds (D : E.Drives p sent content) (P : db.Passes h p columns table) (H : Holds content columns w store)
    {s : Statement} (hsent : sent s) :
    ∃ w', outcome (db.run h s table none) w = (.ok (E.result s store), w') ∧
      Holds content columns w' (E.effect s store) := by
  have hlink : outcome (db.linkFor h s.operation) w = (.ok .primary, w) := by
    rw [linkFor, outcome_get_bind, P.replica]
    simp
  have hverdict : Policy.check db.settings.rules w.guards h.readonly
      { sql := s.sql, params := s.params, operation := s.operation, table := some table, route := h.route } =
        ([], .ok ()) := by
    rw [Policy.check, P.writable, P.allowed rfl, H.guards]
    rfl
  have H₁ : Holds content columns { w with recorder := w.recorder.record s.sql s.params } store :=
    ⟨H.content, H.layers, H.guards, H.columns⟩
  obtain ⟨w₂, hchained, H₂⟩ := chainFor_holds .primary H₁
  obtain ⟨w₃, hcore, H₃⟩ := core_holds D P.primary H₂ hsent (c :=
    { sql := s.sql, params := s.params, operation := s.operation, table := some table, route := h.route }) rfl rfl rfl
  refine ⟨w₃, ?_, H₃⟩
  rw [run, runText, outcome_bind_ok hlink, runContext, P.live, submitWithin, submitThrough, outcome_modify_bind,
    outcome_get_bind]
  dsimp only
  rw [hverdict]
  change outcome (chainFor .primary >>= _) _ = _
  rw [outcome_bind_ok hchained]
  exact hcore

/-! ### Transactions -/

theorem start_holds (D : E.Drives p sent content) (hprimary : db.primary = .port p) (H : Holds content columns w store) :
    ∃ w', outcome (db.primary.start .primary) w = (.ok (), w') ∧ Holds content columns w' store := by
  obtain ⟨s, hstart, hcontent⟩ := D.start w.outside
  have H' := H.called (.driver .primary .start) (hcontent.trans H.content)
  rw [hprimary, Driver.start, outcome_call_bind_ok hstart]
  exact ⟨_, rfl, H'.content, H'.layers, H'.guards, H'.columns⟩

theorem close_holds (D : E.Drives p sent content) (hprimary : db.primary = .port p) (dry : Bool) (v : Value)
    (H : Holds content columns w store) :
    ∃ w', outcome (db.close dry (.ok v)) w = (.ok v, w') ∧ Holds content columns w' store := by
  cases dry with
  | true => exact ⟨w, rfl, H⟩
  | false =>
      obtain ⟨s, hcommit, hcontent⟩ := D.commit w.outside
      have H' := H.called (.driver .primary .commit) (hcontent.trans H.content)
      have hcommitted : outcome (db.primary.commit db.dialect .primary) w =
          (.ok (), after (setInTransaction .primary false) (called w (.driver .primary .commit) s)) := by
        rw [hprimary, Driver.commit, outcome_call_bind_ok hcommit]
        rfl
      have hclosed : outcome db.commitOrRollBack w = (.ok (), _) := outcome_attempt_bind_of hcommitted
      exact ⟨_, outcome_bind_ok hclosed, H'.content, H'.layers, H'.guards, H'.columns⟩

/-- Work that succeeds is committed at the first attempt. -/
theorem tryOnce_holds (D : E.Drives p sent content) (hprimary : db.primary = .port p) (dry : Bool) {x : Session σ Value}
    {v : Value} {store' : Store} (hx : ∀ {w}, Holds content columns w store →
      ∃ w', outcome x w = (.ok v, w') ∧ Holds content columns w' store') (H : Holds content columns w store) :
    ∃ w', outcome (db.tryOnce dry x) w = (.ok v, w') ∧ Holds content columns w' store' := by
  have hrest : ∀ {w : World σ}, Holds content columns w store → ∃ w', outcome (do
      modify fun w => { w with depth := w.depth + 1 }
      let outcome ← attempt x
      modify fun w => { w with depth := w.depth - 1 }
      db.close dry outcome) w = (.ok v, w') ∧ Holds content columns w' store' := by
    intro w H
    have Hentered : Holds content columns { w with depth := w.depth + 1 } store :=
      ⟨H.content, H.layers, H.guards, H.columns⟩
    obtain ⟨w₁, hworked, H₁⟩ := hx Hentered
    have Hleft : Holds content columns { w₁ with depth := w₁.depth - 1 } store' :=
      ⟨H₁.content, H₁.layers, H₁.guards, H₁.columns⟩
    rw [outcome_modify_bind, outcome_attempt_bind_of hworked, outcome_modify_bind]
    exact close_holds D hprimary dry v Hleft
  cases dry with
  | true => exact hrest H
  | false =>
      obtain ⟨w₁, hstarted, H₁⟩ := start_holds D hprimary H
      have hgo : outcome (db.tryOnce false x) w = _ := outcome_bind_ok hstarted
      rw [hgo]
      exact hrest H₁

theorem transaction_holds (D : E.Drives p sent content) (P : db.Passes h p columns table) {x : Session σ Value} {v : Value}
    {store' : Store} (hx : ∀ {w}, Holds content columns w store →
      ∃ w', outcome x w = (.ok v, w') ∧ Holds content columns w' store') (H : Holds content columns w store) :
    ∃ w', outcome (db.transaction h.testMode .null x) w = (.ok v, w') ∧ Holds content columns w' store' := by
  rcases Nat.eq_zero_or_pos w.depth with hdepth | hdepth
  · obtain ⟨w', honce, H'⟩ := tryOnce_holds D P.primary h.testMode hx H
    refine ⟨w', ?_, H'⟩
    have htried : ∀ more, outcome (db.tryAgain h.testMode x more 1) w = (.ok v, w') := by
      intro more
      cases more with
      | zero => exact honce
      | succ more => rw [tryAgain, outcome_attempt_bind_of honce, outcome_pure]
    rw [(db.transaction_outermost h.testMode .null x hdepth).2 _ rfl, if_neg (Int.not_lt.2 P.attempts), ending, after,
      htried]
    rfl
  · rw [transaction_nested h.testMode .null x hdepth]
    exact hx H

/-- Through such a handle the engine carries out what its driver understands. -/
theorem serves (D : E.Drives p sent content) (P : db.Passes h p columns table) :
    E.Serves (db.access h) table none (db.compilerFor h columns table) sent (Holds content columns) where
  dialect := rfl
  compiler H := compiler_holds P H
  run hsent H := run_holds D P H hsent
  transaction hx _ H := transaction_holds D P hx H

end Database

/-! ### A database over an engine -/

namespace Engine

/-- A database over the driver of an engine, where the columns of tables are not known. -/
def database (E : Engine) (d : Dialect) (read : String → List Value → Option Statement) : Database Store where
  settings := {}
  dialect := d
  primary := .port (E.driver read)
  catalogue := .reflected none fun _ => none
  moment := ⟨2024, 1, 1, 0, 0, 0⟩
  chance := .ofInt 0

/-- The compilers of such a database, under a scope. -/
def plainCompiler (d : Dialect) (scope : Row) : Compiler where
  dialect := d
  scope := scope
  now := .text (Moment.text ⟨2024, 1, 1, 0, 0, 0⟩)

theorem serves_database (E : Engine) (d : Dialect) (scope : Row) (table : String)
    {read : String → List Value → Option Statement} {sent : Statement → Prop}
    (hread : ∀ {s}, sent s → read s.sql s.params = some s) :
    E.Serves ((E.database d read).access { scope }) table none (plainCompiler d scope) sent
      (Database.Holds id fun _ => none) := by
  have hcompiler : (E.database d read).compilerFor { scope } (fun _ => none) table = plainCompiler d scope := rfl
  rw [← hcompiler]
  have hallowed : ∀ {c : Context}, c.table = some table → Policy.checkTable {} c = .ok () := by
    intro c hc
    rw [Policy.checkTable, hc]
    rfl
  have hattempts : 1 ≤ ({} : Settings).retry.attempts := by decide
  exact Database.serves (E.drives_driver hread) ⟨rfl, rfl, ⟨none, rfl⟩, rfl, rfl, hallowed, hattempts⟩

/-- A session that starts on a store. -/
theorem holds_start (columns : String → Option (List String)) (store : Store) :
    Database.Holds id columns { outside := store } store :=
  ⟨rfl, rfl, rfl, nofun⟩

end Engine

end Polyquery
