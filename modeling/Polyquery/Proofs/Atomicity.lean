import Polyquery.Proofs.Ledger
import Polyquery.Session.Transaction

/-! Transactions on a ledger. Main statement: a unit of work whose statements are pending while it runs, run as a
transaction, commits the statements of its last attempt if it returns, and nothing if it fails; attempts before the last
one leave nothing behind. -/

namespace Polyquery

open Session

variable {σ α : Type} {L : Ledger σ} {c : Connection σ} {db : Database σ} {w w' : World σ}

/-- The state in which the work of an attempt starts. -/
def World.begun (w : World σ) : World σ :=
  { w with primary := { w.primary with inTransaction := true }, depth := w.depth + 1 }

/-- The state behind the work of an attempt. -/
def World.unwound (w : World σ) : World σ := { w with depth := w.depth - 1 }

/-- The state without an open transaction. -/
def World.closed (w : World σ) : World σ := { w with primary := { w.primary with inTransaction := false } }

namespace Failure

variable {f : Failure}

theorem cause_of_isInterrupt (h : f.isInterrupt = true) : ∃ arguments, f.cause = .interrupt arguments := by
  rw [isInterrupt] at h
  split at h
  · exact ⟨_, ‹_›⟩
  · cases h

theorem severity?_of_isInterrupt (h : f.isInterrupt = true) : f.severity? = none := by
  obtain ⟨arguments, hcause⟩ := cause_of_isInterrupt h
  rw [severity?, ownKind?, hcause]

/-- An interrupt is no failure of execution. -/
theorem isExecution_of_isInterrupt (h : f.isInterrupt = true) : f.isExecution = false := by
  rw [isExecution, severity?_of_isInterrupt h]
  rfl

end Failure

namespace Connection

variable {d : Dialect} {call : WireCall} {word : String} {effect : Effect σ Unit} {s : σ}

theorem isExecution_translated (d : Dialect) (sql : String) (f : Failure) : (translated d sql f).isExecution = true := rfl

theorem outcome_endTransaction_ok (h : effect w.outside = .ok () s) :
    outcome (endTransaction d .primary call word effect) w = (.ok (), (called w (.wire .primary call) s).closed) :=
  outcome_attempt_call_ok h _ _

theorem outcome_endTransaction_error {f : Failure} (h : effect w.outside = .error f s) :
    outcome (endTransaction d .primary call word effect) w =
      (.error (if f.isInterrupt then f else translated d word f), (called w (.wire .primary call) s).closed) :=
  outcome_attempt_call_error h _ _

end Connection

namespace Database

/-- The state in which the last of a row of attempts starts. -/
def lastStart (db : Database σ) (work : Session σ α) : Nat → Nat → World σ → World σ
  | 0, _, w => w
  | more + 1, number, w =>
    match outcome (db.tryOnce false work) w with
    | (.ok _, _) => w
    | (.error f, failed) =>
      if db.isRetryable f then
        match outcome (db.waitAfter number f) failed with
        | (.ok (), waited) => db.lastStart work more (number + 1) waited
        | (.error _, _) => w
      else w

/-- The state in which the work of a transaction starts for the last time. -/
def lastBegun (db : Database σ) (attempts : Value) (work : Session σ α) (w : World σ) : World σ :=
  match db.settings.retry.attemptsFrom attempts with
  | .ok attempts => (db.lastStart work (attempts.toNat - 1) 1 w).begun
  | .error _ => w

/-- One turn of a row of attempts: the first attempt returns; or it fails, and then the row ends with its failure, or with
that of the wait, or goes on from the state behind the wait. -/
theorem tryAgain_turn (work : Session σ α) (more number : Nat) (w : World σ) :
    (∃ a, outcome (db.tryOnce false work) w = (.ok a, after (db.tryOnce false work) w) ∧
      outcome (db.tryAgain false work (more + 1) number) w = (.ok a, after (db.tryOnce false work) w) ∧
      db.lastStart work (more + 1) number w = w) ∨
    ∃ f waited, outcome (db.tryOnce false work) w = (.error f, after (db.tryOnce false work) w) ∧
      waited = after (db.waitAfter number f) (after (db.tryOnce false work) w) ∧
      (outcome (db.tryAgain false work (more + 1) number) w = (.error f, after (db.tryOnce false work) w) ∧
          db.lastStart work (more + 1) number w = w ∨
        db.isRetryable f = true ∧ (∃ g, outcome (db.tryAgain false work (more + 1) number) w = (.error g, waited)) ∨
        db.isRetryable f = true ∧
        outcome (db.tryAgain false work (more + 1) number) w =
            outcome (db.tryAgain false work more (number + 1)) waited ∧
          db.lastStart work (more + 1) number w = db.lastStart work more (number + 1) waited) := by
  rcases outcome_cases (db.tryOnce false work) w with ⟨a, ha⟩ | ⟨f, hf⟩
  · refine .inl ⟨a, ha, outcome_attempt_bind_of ha, ?_⟩
    rw [lastStart, ha]
  · refine .inr ⟨f, _, hf, rfl, ?_⟩
    have hgo : outcome (db.tryAgain false work (more + 1) number) w = outcome (if db.isRetryable f then do
        db.waitAfter number f
        db.tryAgain false work more (number + 1)
      else throw f) (after (db.tryOnce false work) w) := outcome_attempt_bind_of hf
    by_cases hretry : db.isRetryable f = true
    · rw [if_pos hretry] at hgo
      rcases outcome_cases (db.waitAfter number f) (after (db.tryOnce false work) w) with ⟨_, hwait⟩ | ⟨g, hwait⟩
      · refine .inr (.inr ⟨hretry, hgo.trans (outcome_bind_ok hwait), ?_⟩)
        simp only [lastStart, hf, if_pos hretry, hwait]
      · exact .inr (.inl ⟨hretry, g, hgo.trans (outcome_bind_error hwait)⟩)
    · rw [if_neg hretry] at hgo
      refine .inl ⟨hgo, ?_⟩
      simp only [lastStart, hf, if_neg hretry]

/-! ### Statements of the driver -/

theorem execute_eq (hdb : db.primary = .connection c) (statement : Prepared) (params : List Value) :
    db.execute .primary statement params = c.runOnCursor db.dialect .primary statement.sql params := by
  rw [Database.execute, Database.driver, hdb]
  rfl

/-! ### The end of a transaction -/

/-- A rollback leaves nothing behind. -/
theorem rollBackQuietly_ends (hdb : db.primary = .connection c) (G : L.Governs c) (hdepth : w.depth = 0) :
    ∃ w', outcome db.rollBackQuietly w = (.ok (), w') ∧ L.Commits w w' [] := by
  obtain ⟨s, hrollback, hcommitted, hpending⟩ := G.rollback w.outside
  refine ⟨(called w (.wire .primary .rollback) s).closed, ?_, ⟨rfl, hpending, hdepth⟩, ?_⟩
  · rw [rollBackQuietly, hdb]
    exact outcome_attempt_bind_of (Connection.outcome_endTransaction_ok hrollback)
  · rw [List.append_nil]
    exact hcommitted

/-- What is pending is committed, or nothing of it is left, unless an interrupt comes from the commit. -/
theorem commitOrRollBack_ends (hdb : db.primary = .connection c) (G : L.Governs c) (hdepth : w.depth = 0) :
    L.Ends (c.InterruptsCommit w.outside) w (after db.commitOrRollBack w) (L.pending w.outside)
      (ending db.commitOrRollBack w) := by
  cases hcommit : c.commit w.outside with
  | ok _ s =>
      have hend : outcome db.commitOrRollBack w = (.ok (), (called w (.wire .primary .commit) s).closed) := by
        rw [commitOrRollBack, hdb]
        exact outcome_attempt_bind_of (Connection.outcome_endTransaction_ok hcommit)
      exact Ledger.ends_ok hend ⟨⟨rfl, (G.commit hcommit).2, hdepth⟩, (G.commit hcommit).1⟩
  | error f s =>
      let failed := (called w (.wire .primary .commit) s).closed
      let told := if f.isInterrupt then f else Connection.translated db.dialect "COMMIT" f
      have hfailed : outcome (db.primary.commit db.dialect .primary) w = (.error told, failed) := by
        rw [hdb]
        exact Connection.outcome_endTransaction_error hcommit
      have hthrown : outcome db.commitOrRollBack w = outcome (do
          if told.isExecution then db.rollBackQuietly
          throw told) failed := by
        rw [commitOrRollBack, outcome_attempt_bind_of hfailed]
      have hdepth : failed.depth = 0 := hdepth
      cases hinterrupt : f.isInterrupt with
      | true =>
          have htold : told = f := if_pos hinterrupt
          rw [htold, Failure.isExecution_of_isInterrupt hinterrupt, if_neg Bool.false_ne_true] at hthrown
          exact Ledger.ends_error hthrown ⟨rfl, hdepth⟩ (G.unable hcommit) (.inr ⟨hinterrupt, s, hcommit⟩)
      | false =>
          have htold : told = Connection.translated db.dialect "COMMIT" f := by
            rw [show told = if f.isInterrupt then f else _ from rfl, hinterrupt, if_neg Bool.false_ne_true]
          obtain ⟨w', hrollback, hcommits⟩ := rollBackQuietly_ends hdb G hdepth
          have hback := hcommits.of_committed (w := w) (G.unable hcommit)
          rw [htold, if_pos (Connection.isExecution_translated db.dialect "COMMIT" f)] at hthrown
          exact Ledger.ends_error (hthrown.trans (outcome_bind_ok hrollback)) hback.idle.free
            (by rw [hback.committed, List.append_nil]) (.inl hback.idle.pending)

/-! ### Attempts -/

/-- Work on a ledger: inside a transaction it adds to what is pending the statements that it is said to send. -/
def Works (L : Ledger σ) (work : Session σ α) (sent : World σ → List Sent) : Prop :=
  ∀ w, w.primary.inTransaction = true → 0 < w.depth → L.Adds w (after work w) (sent w)

theorem outcome_tryOnce (hdb : db.primary = .connection c) (work : Session σ α) (w : World σ) :
    outcome (db.tryOnce false work) w = outcome (do
      let outcome ← attempt work
      modify World.unwound
      match outcome with
      | .error f => do
        db.rollBackQuietly
        throw f
      | .ok a => do
        db.commitOrRollBack
        pure a) w.begun := by
  rw [tryOnce, hdb]
  rfl

/-- An attempt commits what its work has left pending, or nothing of it is left, unless an interrupt comes from the
commit. -/
theorem tryOnce_ends {work : Session σ α} (hdb : db.primary = .connection c) (G : L.Governs c)
    (hdepth : (after work w.begun).depth = 1) :
    let worked := after work w.begun
    L.Ends (c.InterruptsCommit worked.outside) worked (after (db.tryOnce false work) w) (L.pending worked.outside)
      (ending (db.tryOnce false work) w) := by
  intro worked
  have hunwound : worked.unwound.depth = 0 := by
    change worked.depth - 1 = 0
    rw [hdepth]
  have hend := commitOrRollBack_ends hdb G hunwound
  have htry := outcome_tryOnce hdb work w
  rcases outcome_cases work w.begun with ⟨a, ha⟩ | ⟨f, hf⟩
  · have hfinish : outcome (db.tryOnce false work) w = outcome (do
        db.commitOrRollBack
        pure a) worked.unwound := htry.trans (outcome_attempt_bind_of ha)
    rcases outcome_cases db.commitOrRollBack worked.unwound with ⟨_, hcommit⟩ | ⟨f, hcommit⟩
    · have hcommits := hend.ok hcommit
      exact Ledger.ends_ok (hfinish.trans (outcome_bind_ok hcommit)) ⟨hcommits.idle, hcommits.committed⟩
    · obtain ⟨hfree, hcommitted, hpending⟩ := hend.error hcommit
      exact Ledger.ends_error (hfinish.trans (outcome_bind_error hcommit)) hfree hcommitted hpending
  · have hfinish : outcome (db.tryOnce false work) w = outcome (do
        db.rollBackQuietly
        throw f) worked.unwound := htry.trans (outcome_attempt_bind_of hf)
    obtain ⟨w', hrollback, hcommits⟩ := rollBackQuietly_ends hdb G hunwound
    have hcommitted : L.committed w'.outside = L.committed worked.outside := by
      rw [hcommits.committed, List.append_nil]
      rfl
    exact Ledger.ends_error (hfinish.trans (outcome_bind_ok hrollback)) hcommits.idle.free hcommitted
      (.inl hcommits.idle.pending)

theorem tryOnce_atomic {work : Session σ α} {sent : World σ → List Sent} (hdb : db.primary = .connection c)
    (G : L.Governs c) (S : c.Steady) (hwork : Works L work sent) (hidle : L.Idle w) :
    L.Atomic (db.tryOnce false work) w (sent w.begun) := by
  have hadds := hwork w.begun rfl (Nat.succ_pos _)
  have hdepth : (after work w.begun).depth = 1 := by
    have hbegun : w.begun.depth = w.depth + 1 := rfl
    rw [hadds.depth, hbegun, hidle.depth]
  have hpending : L.pending (after work w.begun).outside = sent w.begun := by
    have hall := hadds.pending
    rwa [show L.pending w.begun.outside = [] from hidle.pending, List.nil_append] at hall
  have hend := tryOnce_ends hdb G hdepth
  dsimp only at hend
  rw [hpending] at hend
  refine hend.atomic hadds.committed fun f _ ⟨hinterrupt, s, hcommit⟩ => ?_
  rw [S.commit hcommit] at hinterrupt
  cases hinterrupt

theorem waitAfter_quiet (hsleep : ∀ pause, L.Untouched (db.sleep pause)) (number : Nat) (f : Failure) :
    L.Quiet (db.waitAfter number f) :=
  Ledger.quiet_bind (Ledger.quiet_settle _) fun _ => Ledger.quiet_bind (Ledger.quiet_emit _) fun _ =>
    Ledger.quiet_bind (Ledger.quiet_emit _) fun _ => Ledger.quiet_outside (hsleep _)

/-- A row of attempts commits what its last one sends, or nothing. -/
theorem tryAgain_atomic {work : Session σ α} {sent : World σ → List Sent} (hdb : db.primary = .connection c)
    (G : L.Governs c) (S : c.Steady) (hsleep : ∀ pause, L.Untouched (db.sleep pause)) (hwork : Works L work sent)
    (more : Nat) : ∀ (number : Nat) {w : World σ}, L.Idle w →
      L.Atomic (db.tryAgain false work more number) w (sent (db.lastStart work more number w).begun) := by
  induction more with
  | zero => exact fun _ _ hidle => tryOnce_atomic hdb G S hwork hidle
  | succ more ih =>
      intro number w hidle
      have hfirst := tryOnce_atomic hdb G S hwork hidle
      rcases db.tryAgain_turn work more number w with ⟨a, ha, hall, hlast⟩ | ⟨f, waited, hf, hwaited, hturn⟩
      · rw [hlast]
        exact Ledger.atomic_ok hall (hfirst.ok ha)
      · have hleft := hfirst.error hf
        have hwait := hleft.trans ((waitAfter_quiet hsleep number f _).commits hleft.idle)
        rw [← hwaited] at hwait
        rcases hturn with ⟨hend, -⟩ | ⟨-, g, hend⟩ | ⟨-, hgo, hlast⟩
        · exact Ledger.atomic_error hend hleft
        · exact Ledger.atomic_error hend hwait
        · rw [hlast, Ledger.Atomic, ending, after, hgo]
          exact hwait.trans (ih (number + 1) hwait.idle)

/-- A transaction that is not inside another one asks first how often its work may be tried. -/
theorem transaction_outermost (db : Database σ) (dry : Bool) (attempts : Value) (work : Session σ α)
    (hdepth : w.depth = 0) :
    (∀ f, db.settings.retry.attemptsFrom attempts = .error f →
      outcome (db.transaction dry attempts work) w = (.error f, w)) ∧
    ∀ n, db.settings.retry.attemptsFrom attempts = .ok n →
      outcome (db.transaction dry attempts work) w =
        if n < 1 then (.error (.badValue "attempts must be >= 1"), w)
        else ((ending (db.tryAgain dry work (n.toNat - 1) 1) w).mapError leaving,
          after (db.tryAgain dry work (n.toNat - 1) 1) w) := by
  have hopen : ¬0 < w.depth := by omega
  rw [transaction, outcome_get_bind, if_neg hopen]
  refine ⟨fun f hf => ?_, fun n hn => ?_⟩
  · rw [hf]
    exact outcome_bind_error (outcome_settle _ _)
  · rw [hn, outcome_bind_ok (outcome_settle _ _)]
    split
    · rfl
    · rw [outcome_attempt_bind]
      cases ending (db.tryAgain dry work (n.toNat - 1) 1) w <;> rfl

/-- A transaction commits what its last attempt sends, or nothing. -/
theorem transaction_atomic {work : Session σ α} {sent : World σ → List Sent} (hdb : db.primary = .connection c)
    (G : L.Governs c) (S : c.Steady) (hsleep : ∀ pause, L.Untouched (db.sleep pause)) (hwork : Works L work sent)
    (attempts : Value) (hidle : L.Idle w) :
    L.Atomic (db.transaction false attempts work) w (sent (db.lastBegun attempts work w)) := by
  have hoff : L.Commits w w [] := ⟨hidle, (List.append_nil _).symm⟩
  obtain ⟨hunasked, hgo⟩ := db.transaction_outermost false attempts work hidle.depth
  rw [lastBegun]
  cases hattempts : db.settings.retry.attemptsFrom attempts with
  | error f => exact Ledger.atomic_error (hunasked f hattempts) hoff
  | ok number =>
      have hgo := hgo number hattempts
      by_cases hfew : number < 1
      · rw [if_pos hfew] at hgo
        exact Ledger.atomic_error hgo hoff
      · rw [if_neg hfew] at hgo
        have hall := tryAgain_atomic hdb G S hsleep hwork (number.toNat - 1) 1 hidle
        rcases outcome_cases (db.tryAgain false work (number.toNat - 1) 1) w with ⟨a, ha⟩ | ⟨f, hf⟩
        · rw [ending, after, ha] at hgo
          exact Ledger.atomic_ok hgo (hall.ok ha)
        · rw [ending, after, hf] at hgo
          exact Ledger.atomic_error hgo (hall.error hf)

/-- Inside a transaction another one is its work. -/
theorem transaction_nested (dry : Bool) (attempts : Value) (work : Session σ α) (hdepth : 0 < w.depth) :
    outcome (db.transaction dry attempts work) w = outcome work w := by
  rw [transaction, outcome_get_bind, if_pos hdepth]

end Database

end Polyquery
