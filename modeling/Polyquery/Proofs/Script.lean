import Polyquery.Proofs.Atomicity

/-! What callers do in a session: statements, transactions around more of the same, and whatever else they compute, each
step depending on what came of those before it. Main statement: at the end of a session the committed statements are, in
order, those that were sent on their own and returned, and those that the last attempts of the outermost transactions
sent, for the transactions that returned. -/

namespace Polyquery

open Session

/-- A course of steps with an outcome. Outcomes are handed on as they are, so that a step may catch the failure of the
one before it; `quietly` stands for all that has nothing to do with the database. -/
inductive Script {σ : Type} (L : Ledger σ) : Type → Type 1 where
  | done {α : Type} (outcome : Except Failure α) : Script L α
  | quietly {α β : Type} (x : Session σ β) (quiet : L.Quiet x) (next : Except Failure β → Script L α) : Script L α
  | execute {α : Type} (statement : Prepared) (params : List Value) (next : Except Failure Result → Script L α) :
    Script L α
  | transaction {α β : Type} (attempts : Value) (work : Script L β) (next : Except Failure β → Script L α) : Script L α

variable {σ α : Type} {L : Ledger σ} {c : Connection σ} {db : Database σ} {h : Handle} {w : World σ}

namespace Script

/-- A script on a handle. -/
def play (db : Database σ) (h : Handle) {α : Type} : Script L α → Session σ α
  | done outcome => settle outcome
  | quietly x _ next => do
    let outcome ← attempt x
    (next outcome).play db h
  | execute statement params next => do
    let outcome ← attempt (db.execute .primary statement params)
    (next outcome).play db h
  | transaction attempts work next => do
    let outcome ← attempt (db.transaction h.testMode attempts (work.play db h))
    (next outcome).play db h

/-- The statements that the database accepts while a script runs. -/
def accepted (db : Database σ) (h : Handle) (c : Connection σ) {α : Type} : Script L α → World σ → List Sent
  | done _, _ => []
  | quietly x _ next, w => (next (ending x w)).accepted db h c (after x w)
  | execute statement params next, w =>
    let x := db.execute .primary statement params
    (if c.accepts statement.sql params w.outside then [(statement.sql, params)] else []) ++
      (next (ending x w)).accepted db h c (after x w)
  | transaction attempts work next, w =>
    let x := db.transaction h.testMode attempts (work.play db h)
    work.accepted db h c w ++ (next (ending x w)).accepted db h c (after x w)

/-- The statements that a script delivers: each one on its own that returned, and of each transaction that returned those
accepted in its last attempt. -/
def delivered (db : Database σ) (h : Handle) (c : Connection σ) {α : Type} : Script L α → World σ → List Sent
  | done _, _ => []
  | quietly x _ next, w => (next (ending x w)).delivered db h c (after x w)
  | execute statement params next, w =>
    let x := db.execute .primary statement params
    (if (ending x w).isOk then [(statement.sql, params)] else []) ++ (next (ending x w)).delivered db h c (after x w)
  | transaction attempts work next, w =>
    let x := db.transaction h.testMode attempts (work.play db h)
    (if (ending x w).isOk then work.accepted db h c (db.lastBegun attempts (work.play db h) w) else []) ++
      (next (ending x w)).delivered db h c (after x w)

/-- Inside a transaction what a script sends is pending as far as the database accepts it. -/
theorem play_works (hdb : db.primary = .connection c) (hlive : h.testMode = false) (G : L.Governs c) (S : c.Steady)
    (script : Script L α) : Database.Works L (script.play db h) (script.accepted db h c) := by
  induction script with
  | done outcome => exact fun w _ _ => Ledger.quiet_settle outcome w
  | quietly x quiet next ih =>
      intro w hopen hdepth
      have hfirst := quiet w
      exact hfirst.trans (ih (ending x w) _ (hfirst.inTransaction.trans hopen) (hfirst.depth ▸ hdepth))
  | execute statement params next ih =>
      intro w hopen hdepth
      have hfirst : L.Adds w (after (db.execute .primary statement params) w)
          (if c.accepts statement.sql params w.outside then [(statement.sql, params)] else []) := by
        rw [Database.execute_eq hdb]
        exact Connection.runOnCursor_open G S hopen
      exact hfirst.trans (ih (ending (db.execute .primary statement params) w) _
        (hfirst.inTransaction.trans hopen) (hfirst.depth ▸ hdepth))
  | transaction attempts work next ihWork ih =>
      intro w hopen hdepth
      have hfirst : L.Adds w (after (db.transaction h.testMode attempts (work.play db h)) w)
          (work.accepted db h c w) := by
        rw [hlive, after, Database.transaction_nested false attempts (work.play db h) hdepth]
        exact ihWork w hopen hdepth
      exact hfirst.trans (ih (ending (db.transaction h.testMode attempts (work.play db h)) w) _
        (hfirst.inTransaction.trans hopen) (hfirst.depth ▸ hdepth))

/-- From an idle session on, a script commits what it delivers. -/
theorem play_commits (hdb : db.primary = .connection c) (hlive : h.testMode = false) (G : L.Governs c) (S : c.Steady)
    (hsleep : ∀ pause, L.Untouched (db.sleep pause)) (script : Script L α) :
    ∀ {w : World σ}, L.Idle w → L.Commits w (after (script.play db h) w) (script.delivered db h c w) := by
  induction script with
  | done outcome => exact fun hidle => (Ledger.quiet_settle outcome _).commits hidle
  | quietly x quiet next ih =>
      intro w hidle
      have hfirst := (quiet w).commits hidle
      exact hfirst.trans (ih (ending x w) hfirst.idle)
  | execute statement params next ih =>
      intro w hidle
      have hfirst : L.Atomic (db.execute .primary statement params) w [(statement.sql, params)] := by
        rw [Database.execute_eq hdb]
        exact Connection.runOnCursor_closed G S hidle
      exact hfirst.trans (ih (ending (db.execute .primary statement params) w) hfirst.idle)
  | transaction attempts work next _ ih =>
      intro w hidle
      have hfirst : L.Atomic (db.transaction h.testMode attempts (work.play db h)) w
          (work.accepted db h c (db.lastBegun attempts (work.play db h) w)) := by
        rw [hlive]
        exact Database.transaction_atomic hdb G S hsleep (play_works hdb hlive G S work) attempts hidle
      exact hfirst.trans (ih (ending (db.transaction h.testMode attempts (work.play db h)) w) hfirst.idle)

end Script

/-! ### A database in memory -/

/-- A database that is nothing but its ledger, committed statements before pending ones. It refuses empty statements. -/
def Connection.memory : Connection (List Sent × List Sent) where
  cursor := pure ()
  execute sql params := fun (committed, pending) =>
    if sql = "" then .error (.of (.foreign .database [])) (committed, pending)
    else .ok {} (committed, pending ++ [(sql, params)])
  fetch := pure []
  close := pure ()
  commit := fun (committed, pending) => .ok () (committed ++ pending, [])
  rollback := fun (committed, _) => .ok () (committed, [])

/-- The ledger of a database in memory. -/
def Ledger.memory : Ledger (List Sent × List Sent) := ⟨Prod.fst, Prod.snd⟩

theorem Connection.memory_steady : Connection.memory.Steady where
  cursor s := ⟨s, rfl⟩
  execute {sql params s f s'} h := by
    change (if sql = "" then _ else _) = _ at h
    split at h
    · cases h
      rfl
    · cases h
  fetch h := by cases h
  close s := ⟨s, rfl⟩
  commit h := by cases h

theorem Ledger.memory_governs : Ledger.memory.Governs Connection.memory where
  cursor := ⟨fun h => by cases h; exact ⟨rfl, rfl⟩, fun h => by cases h⟩
  accepted {sql params s reply s'} h := by
    change (if sql = "" then _ else _) = _ at h
    split at h
    · cases h
    · cases h
      exact ⟨rfl, rfl⟩
  refused {sql params s f s'} h := by
    change (if sql = "" then _ else _) = _ at h
    split at h
    · cases h
      exact ⟨rfl, rfl⟩
    · cases h
  fetch := ⟨fun h => by cases h; exact ⟨rfl, rfl⟩, fun h => by cases h⟩
  close := ⟨fun h => by cases h; exact ⟨rfl, rfl⟩, fun h => by cases h⟩
  commit h := by
    cases h
    exact ⟨rfl, rfl⟩
  unable h := by cases h
  rollback s := ⟨(s.1, []), rfl, rfl, rfl⟩

/-- A statement on its own, and one in a transaction. -/
theorem play_commits_memory :
    let db : Database (List Sent × List Sent) :=
      { settings := {}, dialect := .sqlite, primary := .connection .memory, moment := ⟨2024, 1, 1, 0, 0, 0⟩
        chance := .ofInt 0 }
    let script : Script Ledger.memory Unit :=
      .execute ⟨"INSERT INTO t VALUES (1)"⟩ [] fun _ =>
        .transaction .null (.execute ⟨"INSERT INTO t VALUES (?)"⟩ [.int 2] fun _ => .done (.ok ())) .done
    Ledger.memory.committed (after (script.play db {}) { outside := ([], []) }).outside =
      [("INSERT INTO t VALUES (1)", []), ("INSERT INTO t VALUES (?)", [.int 2])] := by
  intro db script
  have hsleep : ∀ pause, Ledger.memory.Untouched (db.sleep pause) := fun _ =>
    ⟨fun h => by cases h; exact ⟨rfl, rfl⟩, fun h => by cases h⟩
  have hcommits := @Script.play_commits _ _ Ledger.memory Connection.memory db {} rfl rfl Ledger.memory_governs
    Connection.memory_steady hsleep script { outside := ([], []) } ⟨rfl, rfl, rfl⟩
  rw [hcommits.committed]
  rfl

end Polyquery
