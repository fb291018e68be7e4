import Polyquery.Proofs.Level
import Polyquery.Proofs.Script

/-! What is left behind when calls fail. Main statement: neither a statement on its own nor a transaction leaves anything
pending, whatever the connection refuses, unless an interrupt comes between the acceptance of a statement and its commit, or
from the commit of a transaction. After such an interrupt what was pending is committed by whatever comes next. -/

namespace Polyquery

open Session

variable {σ α : Type} {L : Ledger σ} {c : Connection σ} {db : Database σ} {w : World σ}

/-! ### Interrupts -/

/-- Nothing is tried again after an interrupt. -/
theorem Database.isRetryable_of_isInterrupt {f : Failure} (h : f.isInterrupt = true) : db.isRetryable f = false := by
  rw [isRetryable, Failure.severity?_of_isInterrupt h, h, Bool.not_true, Bool.and_false, Bool.false_and]

/-- An interrupt leaves a transaction as it is. -/
theorem Database.leaving_of_isInterrupt {f : Failure} (h : f.isInterrupt = true) : leaving f = f := by
  obtain ⟨arguments, hcause⟩ := Failure.cause_of_isInterrupt h
  rw [leaving, hcause]

/-! ### Transactions -/

namespace Database

/-- A row of attempts leaves nothing pending, unless an interrupt comes from the commit of the last one. -/
theorem tryAgain_leaves {work : Session σ α} (hdb : db.primary = .connection c) (G : L.Governs c)
    (hsleep : ∀ pause, L.Untouched (db.sleep pause)) (hwork : Leads World.Level work) (more : Nat) :
    ∀ (number : Nat) {w : World σ}, w.depth = 0 →
      let x := db.tryAgain false work more number
      Ledger.Free (after x w) ∧ (L.pending (after x w).outside = [] ∨ ∃ f, ending x w = .error f ∧
        c.InterruptsCommit (after work (db.lastStart work more number w).begun).outside f) := by
  have hends {w : World σ} (hdepth : w.depth = 0) :=
    tryOnce_ends hdb G ((hwork w.begun).trans (congrArg (· + 1) hdepth))
  induction more with
  | zero => exact fun _ _ hdepth => ⟨(hends hdepth).free, (hends hdepth).pending⟩
  | succ more ih =>
      intro number w hdepth x
      rcases db.tryAgain_turn work more number w with ⟨a, ha, hall, hlast⟩ | ⟨f, waited, hf, hwaited, hturn⟩
      · have hidle := ((hends hdepth).ok ha).idle
        rw [after, hall]
        exact ⟨hidle.free, .inl hidle.pending⟩
      · obtain ⟨hfree, -, hpending⟩ := (hends hdepth).error hf
        -- before the next attempt nothing is pending, since what may be tried again is no interrupt
        have hwait : db.isRetryable f = true → L.Idle waited := by
          intro hretry
          have hno : ¬c.InterruptsCommit (after work w.begun).outside f := by
            rintro ⟨hinterrupt, -⟩
            rw [isRetryable_of_isInterrupt hinterrupt] at hretry
            cases hretry
          rw [hwaited]
          exact ((waitAfter_quiet hsleep number f _).commits ⟨hfree.closed, hpending.resolve_right hno, hfree.depth⟩).idle
        rcases hturn with ⟨hend, hlast⟩ | ⟨hretry, g, hend⟩ | ⟨hretry, hgo, hlast⟩
        · rw [after, ending, hend, hlast]
          exact ⟨hfree, hpending.imp id fun hcut => ⟨f, rfl, hcut⟩⟩
        · rw [after, hend]
          exact ⟨(hwait hretry).free, .inl (hwait hretry).pending⟩
        · rw [after, ending, hgo, hlast]
          exact ih (number + 1) (hwait hretry).depth

/-- A transaction that is not inside another one leaves nothing pending, unless an interrupt comes from its commit. -/
theorem transaction_leaves {work : Session σ α} (hdb : db.primary = .connection c) (G : L.Governs c)
    (hsleep : ∀ pause, L.Untouched (db.sleep pause)) (hwork : Leads World.Level work) (attempts : Value)
    (hidle : L.Idle w) :
    let x := db.transaction false attempts work
    Ledger.Free (after x w) ∧ (L.pending (after x w).outside = [] ∨ ∃ f, ending x w = .error f ∧
      c.InterruptsCommit (after work (db.lastBegun attempts work w)).outside f) := by
  intro x
  obtain ⟨hunasked, hgo⟩ := db.transaction_outermost false attempts work hidle.depth
  rw [lastBegun]
  cases hattempts : db.settings.retry.attemptsFrom attempts with
  | error f =>
      rw [after, hunasked f hattempts]
      exact ⟨hidle.free, .inl hidle.pending⟩
  | ok number =>
      rw [after, ending, hgo number hattempts]
      split
      · exact ⟨hidle.free, .inl hidle.pending⟩
      · obtain ⟨hfree, hpending⟩ := tryAgain_leaves hdb G hsleep hwork (number.toNat - 1) 1 hidle.depth
        refine ⟨hfree, hpending.imp id ?_⟩
        rintro ⟨f, hf, hinterrupt, hcommit⟩
        refine ⟨f, ?_, hinterrupt, hcommit⟩
        rw [hf, Except.mapError, leaving_of_isInterrupt hinterrupt]

/-- Whatever the connection refuses, no call leaves a statement behind for a later commit. A statement on its own leaves
nothing pending unless an interrupt comes between its acceptance and its commit, and neither does a transaction around any
work that stays at its depth, as all does that goes on through handles, unless an interrupt comes from its commit. In any
case no transaction is open behind them. -/
theorem nothing_left (hdb : db.primary = .connection c) (G : L.Governs c)
    (hsleep : ∀ pause, L.Untouched (db.sleep pause)) (hidle : L.Idle w) :
    (∀ statement params,
      let w' := after (db.execute .primary statement params) w
      Ledger.Free w' ∧ (L.pending w'.outside = [] ∨ c.IsInterrupted statement.sql params w)) ∧
    (∀ {α : Type} (attempts : Value) (work : Session σ α), Leads World.Level work →
      let x := db.transaction false attempts work
      Ledger.Free (after x w) ∧ (L.pending (after x w).outside = [] ∨ ∃ f, ending x w = .error f ∧
        c.InterruptsCommit (after work (db.lastBegun attempts work w)).outside f)) ∧
    ∀ {α : Type} (allowed : Handle → Prop) (course : Course allowed α), Leads World.Level (course.play db) := by
  refine ⟨fun statement params => ?_, fun attempts work hwork => transaction_leaves hdb G hsleep hwork attempts hidle,
    fun allowed course => course.play_level db⟩
  rw [execute_eq hdb]
  exact Connection.runOnCursor_leaves G _ _ _ hidle

end Database

/-! ### Databases in memory -/

/-- A database in memory. -/
def Database.inMemory (c : Connection (List Sent × List Sent)) : Database (List Sent × List Sent) where
  settings := {}
  dialect := .sqlite
  primary := .connection c
  moment := ⟨2024, 1, 1, 0, 0, 0⟩
  chance := .ofInt 0

theorem Database.untouched_inMemory (c : Connection (List Sent × List Sent)) (pause : Int) :
    Ledger.memory.Untouched ((Database.inMemory c).sleep pause) :=
  ⟨fun h => by cases h; exact ⟨rfl, rfl⟩, fun h => by cases h⟩

/-- A transaction whose second statement is refused leaves nothing of the first one behind. -/
theorem nothing_left_refused :
    let db := Database.inMemory .memory
    let work : Course (fun _ => True) Result :=
      .raw {} trivial "INSERT INTO t VALUES (1)" [] fun _ => .raw {} trivial "" [] .done
    let w := after (db.transaction false .null (work.play db)) { outside := ([], []) }
    Ledger.Free w ∧ Ledger.memory.pending w.outside = [] := by
  intro db work w
  obtain ⟨-, htransaction, hlevel⟩ := @Database.nothing_left _ Ledger.memory .memory db { outside := ([], []) } rfl
    Ledger.memory_governs (Database.untouched_inMemory .memory) ⟨rfl, rfl, rfl⟩
  obtain ⟨hfree, hpending⟩ := htransaction .null (work.play db) (hlevel (fun _ => True) work)
  have hleft := hpending.resolve_right fun ⟨f, _, hinterrupt, s, hcommit⟩ =>
    absurd hinterrupt (Bool.eq_false_iff.1 (Connection.memory_steady.commit hcommit))
  unfold w
  exact ⟨hfree, hleft⟩

/-- A database in memory whose commit is interrupted while one statement is pending. -/
def Connection.interrupted : Connection (List Sent × List Sent) :=
  { Connection.memory with
    commit := fun (committed, pending) =>
      if pending.length = 1 then .error (.of (.interrupt [.text "stop"])) (committed, pending)
      else .ok () (committed ++ pending, []) }

theorem Ledger.interrupted_governs : Ledger.memory.Governs Connection.interrupted where
  cursor := memory_governs.cursor
  accepted := memory_governs.accepted
  refused := memory_governs.refused
  fetch := memory_governs.fetch
  close := memory_governs.close
  commit {s s'} h := by
    change (if s.2.length = 1 then _ else _) = _ at h
    split at h
    · cases h
    · cases h
      exact ⟨rfl, rfl⟩
  unable {s f s'} h := by
    change (if s.2.length = 1 then _ else _) = _ at h
    split at h
    · cases h
      rfl
    · cases h
  rollback := memory_governs.rollback

/-- A statement whose commit is interrupted stays pending, on its own as well as in a transaction, and is committed with
the next one. -/
theorem interrupted_left :
    Ledger.memory.Governs Connection.interrupted ∧
    let db := Database.inMemory .interrupted
    let alone := db.execute .primary ⟨"INSERT INTO t VALUES (1)"⟩ []
    ∀ x ∈ [alone, db.transaction false .null alone],
      let w := after x { outside := ([], []) }
      (ending x { outside := ([], []) }).isOk = false ∧
        (Ledger.memory.pending w.outside).map (·.1) = ["INSERT INTO t VALUES (1)"] ∧
        (Ledger.memory.committed (after (db.execute .primary ⟨"INSERT INTO t VALUES (2)"⟩ []) w).outside).map (·.1) =
          ["INSERT INTO t VALUES (1)", "INSERT INTO t VALUES (2)"] := by
  refine ⟨Ledger.interrupted_governs, ?_⟩
  intro db alone x hx
  obtain rfl | rfl : x = alone ∨ x = db.transaction false .null alone := by simpa using hx
  all_goals decide +kernel

end Polyquery
