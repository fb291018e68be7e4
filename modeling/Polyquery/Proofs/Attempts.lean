import Polyquery.Proofs.Work

/-! The attempts of a transaction. An attempt opens a transaction, works inside it, and commits or rolls back. Main
statement: a transaction is a row of such attempts, as many as were asked for at most. One follows another exactly if that
one has failed in a way that may be tried again, after one wait, and the transaction ends as the last of them does. -/

namespace Polyquery

open Session

variable {σ α : Type} {db : Database σ} {w w' w'' : World σ}

/-- A step that leaves the given events, at the same depth behind it. -/
structure World.Leaves (w w' : World σ) (events : List Event) : Prop where
  journal : w'.journal = w.journal ++ events
  depth : w'.depth = w.depth

theorem World.Leaves.trans {events events' : List Event} (h : w.Leaves w' events) (h' : w'.Leaves w'' events') :
    w.Leaves w'' (events ++ events') :=
  ⟨by rw [h'.journal, h.journal, List.append_assoc], h'.depth.trans h.depth⟩

/-- The state inside one more transaction. -/
def World.entered (w : World σ) : World σ := { w with depth := w.depth + 1 }

/-! ### The driver at the bounds of a transaction -/

namespace Driver

/-- The events by which a call shows. A connection opens a transaction by itself. -/
def shown : Driver σ → DriverCall → List Event
  | port _, call => [.driver .primary call]
  | connection _, .commit => [.wire .primary .commit]
  | connection _, .rollback => [.wire .primary .rollback]
  | connection _, _ => []

/-- A driver that never fails to open a transaction, and that fails to end one only by a failure of execution. -/
structure Orderly (d : Dialect) (driver : Driver σ) : Prop where
  start : ∀ w, ending (driver.start .primary) w = .ok ()
  commit : ∀ {w f}, ending (driver.commit d .primary) w = .error f → f.isExecution = true
  rollback : ∀ {w f}, ending (driver.rollback d .primary) w = .error f → f.isExecution = true

theorem leaves_start (driver : Driver σ) (w : World σ) :
    w.Leaves (after (driver.start .primary) w) (driver.shown .start) := by
  cases driver with
  | port p =>
      cases hstart : p.start w.outside with
      | ok _ s =>
          rw [after, start, outcome_call_bind_ok hstart]
          exact ⟨rfl, rfl⟩
      | error f s =>
          rw [after, start, outcome_call_bind_error hstart]
          exact ⟨rfl, rfl⟩
  | connection c => exact ⟨(List.append_nil _).symm, rfl⟩

theorem opened_start {d : Dialect} {driver : Driver σ} (O : driver.Orderly d) (w : World σ) :
    (after (driver.start .primary) w).primary.inTransaction = true := by
  cases driver with
  | port p =>
      cases hstart : p.start w.outside with
      | ok _ s =>
          rw [after, start, outcome_call_bind_ok hstart]
          rfl
      | error f s =>
          have hok := O.start w
          rw [ending, start, outcome_call_bind_error hstart] at hok
          cases hok
  | connection c => rfl

theorem leaves_endTransaction (d : Dialect) (call : WireCall) (word : String) (effect : Effect σ Unit) (w : World σ) :
    w.Leaves (after (Connection.endTransaction d .primary call word effect) w) [.wire .primary call] := by
  cases heffect : effect w.outside with
  | ok _ s =>
      rw [after, Connection.outcome_endTransaction_ok heffect]
      exact ⟨rfl, rfl⟩
  | error f s =>
      rw [after, Connection.outcome_endTransaction_error heffect]
      exact ⟨rfl, rfl⟩

theorem leaves_commit (driver : Driver σ) (d : Dialect) (w : World σ) :
    w.Leaves (after (driver.commit d .primary) w) (driver.shown .commit) := by
  cases driver with
  | port p =>
      cases hcommit : p.commit w.outside with
      | ok _ s =>
          rw [after, commit, outcome_call_bind_ok hcommit]
          exact ⟨rfl, rfl⟩
      | error f s =>
          rw [after, commit, outcome_call_bind_error hcommit]
          exact ⟨rfl, rfl⟩
  | connection c => exact leaves_endTransaction d .commit "COMMIT" c.commit w

theorem leaves_rollback (driver : Driver σ) (d : Dialect) (w : World σ) :
    w.Leaves (after (driver.rollback d .primary) w) (driver.shown .rollback) := by
  cases driver with
  | port p =>
      cases hrollback : p.rollback w.outside with
      | ok _ s =>
          rw [after, rollback, outcome_call_bind_ok hrollback]
          exact ⟨rfl, rfl⟩
      | error f s =>
          rw [after, rollback, outcome_call_bind_error hrollback]
          exact ⟨rfl, rfl⟩
  | connection c => exact leaves_endTransaction d .rollback "ROLLBACK" c.rollback w

end Driver

/-! ### One attempt -/

/-- An attempt at a unit of work: the state it is made in and the one in which its work starts, what the work comes to and
the events it leaves, and what the driver answers to a commit and to a rollback; what it is not asked for counts as granted. -/
structure Attempt (σ α : Type) where
  before : World σ
  begun : World σ
  worked : Except Failure α
  during : List Event
  committed : Except Failure Unit
  rolledBack : Except Failure Unit

namespace Attempt

variable {a : Attempt σ α} {dry : Bool} {work : Session σ α}

/-- What an attempt comes to: its work, unless that could not be committed. -/
def result (a : Attempt σ α) : Except Failure α :=
  match a.worked, a.committed with
  | .error f, _ => .error f
  | .ok _, .error f => .error f
  | .ok x, .ok () => .ok x

/-- The calls to the driver after the work. -/
def closing (a : Attempt σ α) : List DriverCall :=
  match a.worked, a.committed with
  | .error _, _ => [.rollback]
  | .ok _, .error _ => [.commit, .rollback]
  | .ok _, .ok () => [.commit]

def calls (a : Attempt σ α) : List DriverCall := .start :: a.closing

/-- The log record of a rollback that failed. -/
def warning : Except Failure Unit → List Event
  | .ok () => []
  | .error f => [.logged .warning "transaction_rollback_failed" [("error", .text f.message)]]

/-- The events of an attempt. A dry one leaves the driver alone. -/
def events (a : Attempt σ α) (driver : Driver σ) (dry : Bool) : List Event :=
  if dry then a.during
  else driver.shown .start ++ a.during ++ a.closing.flatMap driver.shown ++ warning a.rolledBack

/-- Whether an attempt has failed in a way that may be tried again. -/
def isRetryable (a : Attempt σ α) (db : Database σ) : Prop := ∃ f, a.result = .error f ∧ db.isRetryable f = true

/-- An attempt at the given work, which runs once, one transaction deeper, and within the bounds of that transaction. -/
structure Of (a : Attempt σ α) (db : Database σ) (dry : Bool) (work : Session σ α) : Prop where
  begun : a.begun = (if dry then a.before else after (db.primary.start .primary) a.before).entered
  opened : dry = false → a.begun.primary.inTransaction = true
  worked : ending work a.begun = a.worked
  during : (after work a.begun).journal = a.begun.journal ++ a.during
  within : ∀ event ∈ a.during, event.isBound a.begun.primary.inTransaction = false
  granted : dry = true → a.committed = .ok () ∧ a.rolledBack = .ok ()

theorem result_eq_worked (a : Attempt σ α) (h : a.committed = .ok ()) : a.result = a.worked := by
  rw [result, h]
  cases a.worked <;> rfl

/-- An attempt that fails has been rolled back, after its work or after a commit that failed; else it is committed. -/
theorem calls_cases (a : Attempt σ α) :
    (∃ f, a.result = .error f) ∧ (a.calls = [.start, .rollback] ∨ a.calls = [.start, .commit, .rollback]) ∨
      (∃ x, a.result = .ok x) ∧ a.calls = [.start, .commit] := by
  obtain ⟨before, begun, worked, during, committed, rolledBack⟩ := a
  cases worked with
  | error f => exact .inl ⟨⟨f, rfl⟩, .inl rfl⟩
  | ok x =>
      cases committed with
      | error f => exact .inl ⟨⟨f, rfl⟩, .inr rfl⟩
      | ok _ => exact .inr ⟨⟨x, rfl⟩, rfl⟩

end Attempt

namespace Database

variable {dry : Bool} {work : Session σ α}

/-- A rollback that fails is only logged. -/
theorem leaves_rollBackQuietly (O : db.primary.Orderly db.dialect) (w : World σ) :
    ∃ rolledBack w', outcome db.rollBackQuietly w = (.ok (), w') ∧
      w.Leaves w' (db.primary.shown .rollback ++ Attempt.warning rolledBack) := by
  have hrolled := db.primary.leaves_rollback db.dialect w
  rcases outcome_cases (db.primary.rollback db.dialect .primary) w with ⟨_, hok⟩ | ⟨f, hf⟩
  · refine ⟨.ok (), _, outcome_attempt_bind_of hok, hrolled.trans ⟨(List.append_nil _).symm, rfl⟩⟩
  · have hexecution : f.isExecution = true := O.rollback (by rw [ending, hf])
    have hquiet : outcome db.rollBackQuietly w = outcome (log .warning "transaction_rollback_failed"
        [("error", .text f.message)]) (after (db.primary.rollback db.dialect .primary) w) := by
      rw [rollBackQuietly, outcome_attempt_bind_of hf]
      dsimp only
      rw [if_pos hexecution]
    exact ⟨.error f, _, hquiet, hrolled.trans ⟨rfl, rfl⟩⟩

/-- The end of an attempt, behind its work. -/
def close (db : Database σ) (dry : Bool) : Except Failure α → Session σ α
  | .error f => do
    unless dry do db.rollBackQuietly
    throw f
  | .ok a => do
    unless dry do db.commitOrRollBack
    pure a

/-- The state in which the work of an attempt starts. -/
def begin (db : Database σ) (dry : Bool) (w : World σ) : World σ :=
  (if dry then w else after (db.primary.start .primary) w).entered

theorem outcome_close_dry (worked : Except Failure α) (w : World σ) : outcome (db.close true worked) w = (worked, w) := by
  cases worked <;> rfl

/-- Whatever the work of an attempt came to, the driver's answers decide how the attempt ends: work that failed is rolled
back, other work is committed, or rolled back if that fails. -/
theorem leaves_close (O : db.primary.Orderly db.dialect) (a : Attempt σ α) (w : World σ) :
    ∃ committed rolledBack w', outcome (db.close false a.worked) w = ({ a with committed }.result, w') ∧
      w.Leaves w' ({ a with committed }.closing.flatMap db.primary.shown ++ Attempt.warning rolledBack) := by
  obtain ⟨before, begun, worked, during, committed, rolledBack⟩ := a
  cases worked with
  | error f =>
      obtain ⟨rolledBack, w', hquiet, hrolled⟩ := leaves_rollBackQuietly O w
      refine ⟨.ok (), rolledBack, w', outcome_bind_ok hquiet, ?_⟩
      change w.Leaves w' ((db.primary.shown .rollback ++ []) ++ _)
      rwa [List.append_nil]
  | ok x =>
      have hcommitted := db.primary.leaves_commit db.dialect w
      rcases outcome_cases (db.primary.commit db.dialect .primary) w with ⟨_, hok⟩ | ⟨f, hf⟩
      · have hall : outcome db.commitOrRollBack w = (.ok (), _) := outcome_attempt_bind_of hok
        refine ⟨.ok (), .ok (), _, outcome_bind_ok hall, ?_⟩
        change w.Leaves _ ((db.primary.shown .commit ++ []) ++ [])
        rwa [List.append_nil, List.append_nil]
      · obtain ⟨rolledBack, w', hquiet, hrolled⟩ :=
          leaves_rollBackQuietly O (after (db.primary.commit db.dialect .primary) w)
        have hall : outcome db.commitOrRollBack w = (.error f, w') := by
          rw [commitOrRollBack, outcome_attempt_bind_of hf]
          dsimp only
          rw [if_pos (O.commit (by rw [ending, hf])), outcome_bind_ok hquiet]
          rfl
        refine ⟨.error f, rolledBack, w', outcome_bind_error hall, ?_⟩
        change w.Leaves w' ((db.primary.shown .commit ++ (db.primary.shown .rollback ++ [])) ++ _)
        rw [List.append_nil, List.append_assoc]
        exact hcommitted.trans hrolled

theorem tryOnce_eq (O : db.primary.Orderly db.dialect) (dry : Bool) (work : Session σ α) (w : World σ) :
    outcome (db.tryOnce dry work) w =
      outcome (db.close dry (ending work (db.begin dry w))) (after work (db.begin dry w)).unwound := by
  have hrest : ∀ w : World σ, outcome (do
      modify fun w => { w with depth := w.depth + 1 }
      let outcome ← attempt work
      modify fun w => { w with depth := w.depth - 1 }
      db.close dry outcome) w = outcome (db.close dry (ending work w.entered)) (after work w.entered).unwound :=
    fun _ => rfl
  cases dry with
  | true => exact hrest w
  | false =>
      have hstart : outcome (db.primary.start .primary) w = (.ok (), after (db.primary.start .primary) w) := by
        rw [outcome_eq, O.start w]
      have hgo : outcome (db.tryOnce false work) w = _ := outcome_bind_ok hstart
      exact hgo.trans (hrest _)

theorem leaves_begin (db : Database σ) (dry : Bool) (w : World σ) :
    (db.begin dry w).journal = w.journal ++ (if dry then [] else db.primary.shown .start) ∧
      (db.begin dry w).depth = w.depth + 1 := by
  cases dry with
  | true => exact ⟨(List.append_nil _).symm, rfl⟩
  | false =>
      have hstart := db.primary.leaves_start w
      exact ⟨hstart.journal, congrArg (· + 1) hstart.depth⟩

/-- An attempt behind its work: its events so far, at the depth that it was made at. -/
theorem leaves_unwound {during : List Event} (hdepth : (after work (db.begin dry w)).depth = (db.begin dry w).depth)
    (hjournal : (after work (db.begin dry w)).journal = (db.begin dry w).journal ++ during) :
    w.Leaves (after work (db.begin dry w)).unwound ((if dry then [] else db.primary.shown .start) ++ during) := by
  have hbegin := db.leaves_begin dry w
  refine ⟨?_, ?_⟩
  · change (after work (db.begin dry w)).journal = _
    rw [hjournal, hbegin.1, List.append_assoc]
  · change (after work (db.begin dry w)).depth - 1 = w.depth
    rw [hdepth, hbegin.2, Nat.add_sub_cancel]

/-- Trying once makes an attempt, and ends as it. -/
theorem tryOnce_made (O : db.primary.Orderly db.dialect) (hwork : ∀ {w : World σ}, 0 < w.depth → w.Within (after work w))
    (dry : Bool) (w : World σ) :
    ∃ a : Attempt σ α, a.before = w ∧ a.Of db dry work ∧ ending (db.tryOnce dry work) w = a.result ∧
      w.Leaves (after (db.tryOnce dry work) w) (a.events db.primary dry) := by
  have hdeep : 0 < (db.begin dry w).depth := (db.leaves_begin dry w).2 ▸ Nat.succ_pos _
  obtain ⟨during, hduring, hwithin⟩ := (hwork hdeep).journal
  have hunwound := leaves_unwound (hwork hdeep).depth hduring
  have htry := tryOnce_eq O dry work w
  let asked : Attempt σ α := ⟨w, db.begin dry w, ending work (db.begin dry w), during, .ok (), .ok ()⟩
  cases dry with
  | true =>
      refine ⟨asked, rfl, ⟨rfl, fun h => absurd h.symm Bool.false_ne_true, rfl, hduring, hwithin, fun _ => ⟨rfl, rfl⟩⟩, ?_⟩
      rw [ending, after, htry, outcome_close_dry, asked.result_eq_worked rfl]
      exact ⟨rfl, hunwound⟩
  | false =>
      obtain ⟨committed, rolledBack, w', hclose, hclosed⟩ :=
        leaves_close O asked (after work (db.begin false w)).unwound
      refine ⟨{ asked with committed, rolledBack }, rfl,
        ⟨rfl, fun _ => Driver.opened_start O w, rfl, hduring, hwithin,
          fun h => absurd h Bool.false_ne_true⟩, ?_⟩
      rw [ending, after, htry]
      rw [show db.close false (ending work (db.begin false w)) = db.close false asked.worked from rfl, hclose]
      refine ⟨rfl, ?_⟩
      have hall := hunwound.trans hclosed
      rwa [← List.append_assoc] at hall

/-! ### Rows of attempts -/

/-- The wait after an attempt, in microseconds. -/
def pauseAfter (db : Database σ) (number : Nat) : Except Failure Int :=
  (db.settings.retry.wait number db.chance).microseconds

/-- The events of a retry: the log record of the wait, and the wait. -/
def retried (db : Database σ) (number : Nat) (f : Failure) : List Event :=
  match db.pauseAfter number with
  | .ok pause =>
    [.logged .warning "transaction_retry"
      [("attempt", .int number), ("sleep", .int pause), ("error", .text f.message)], .slept pause]
  | .error _ => []

/-- Waits that come to an end: each is of a length in whole microseconds, and sleeping returns. -/
structure Rests (db : Database σ) (first more : Nat) : Prop where
  pause : ∀ number, first ≤ number → number < first + more → ∃ pause, db.pauseAfter number = .ok pause
  sleep : ∀ pause s, ∃ s', db.sleep pause s = .ok () s'

theorem leaves_waitAfter {number first more : Nat} (R : db.Rests first more) (hfirst : first ≤ number)
    (hmore : number < first + more) (f : Failure) (w : World σ) :
    ∃ w', outcome (db.waitAfter number f) w = (.ok (), w') ∧ w.Leaves w' (db.retried number f) := by
  obtain ⟨pause, hpause⟩ := R.pause number hfirst hmore
  obtain ⟨s, hsleep⟩ := R.sleep pause w.outside
  have hsettle : outcome (settle (db.settings.retry.wait number db.chance).microseconds : Session σ Int) w =
      (.ok pause, w) := by
    rw [outcome_settle]
    exact congrArg (·, w) hpause
  rw [retried, hpause, waitAfter, outcome_bind_ok hsettle]
  refine ⟨_, outcome_call_ok (w := { w with journal := w.journal ++ [_] }) hsleep _, ?_, rfl⟩
  exact List.append_assoc _ _ _

/-- The events of a row of attempts, the first one with the given number: one retry between two of them. -/
def rowEvents (db : Database σ) (dry : Bool) : Nat → List (Attempt σ α) → List Event
  | _, [] => []
  | _, [a] => a.events db.primary dry
  | number, a :: b :: rest =>
    let between := match a.result with
      | .ok _ => []
      | .error f => db.retried number f
    a.events db.primary dry ++ between ++ db.rowEvents dry (number + 1) (b :: rest)

/-- The state in which the attempt after one with the given number is made. -/
def behind (db : Database σ) (dry : Bool) (work : Session σ α) (number : Nat) (a : Attempt σ α) : World σ :=
  let closed := after (db.tryOnce dry work) a.before
  match a.result with
  | .ok _ => closed
  | .error f => after (db.waitAfter number f) closed

/-- A row of attempts at a unit of work from a state on, the first one with the given number, and at most as many as the
limit says. Another one follows exactly if one failed in a way that may be tried again and the limit is not reached. -/
structure Tries (db : Database σ) (dry : Bool) (work : Session σ α) (first limit : Nat) (w : World σ)
    (row : List (Attempt σ α)) : Prop where
  made : ∀ a ∈ row, a.Of db dry work
  head : row.head?.map (·.before) = some w
  few : row.length ≤ limit
  another : ∀ i (h : i < row.length), i + 1 < row.length ↔ row[i].isRetryable db ∧ i + 1 < limit
  next : ∀ i (h : i + 1 < row.length), row[i + 1].before = db.behind dry work (first + i) row[i]

/-- An attempt that is not tried again. -/
theorem tries_one {a : Attempt σ α} {first limit : Nat} (hmade : a.Of db dry work) (hbefore : a.before = w)
    (hlimit : 1 ≤ limit) (hend : a.isRetryable db → limit = 1) : db.Tries dry work first limit w [a] where
  made := List.forall_mem_singleton.2 hmade
  head := congrArg some hbefore
  few := hlimit
  another i h := by
    obtain rfl : i = 0 := by simpa using h
    refine ⟨fun h => absurd h (by simp), fun ⟨hretry, hmore⟩ => ?_⟩
    have hone := hend hretry
    omega
  next i h := by simp at h

theorem Tries.exists_cons {first limit : Nat} {row : List (Attempt σ α)} (h : db.Tries dry work first limit w row) :
    ∃ a rest, row = a :: rest ∧ a.before = w := by
  cases row with
  | nil => exact absurd h.head nofun
  | cons a rest => exact ⟨a, rest, rfl, Option.some.inj h.head⟩

/-- A retryable attempt in front of a row that starts behind it. -/
theorem Tries.cons {a : Attempt σ α} {first limit : Nat} {row : List (Attempt σ α)} (hmade : a.Of db dry work)
    (hbefore : a.before = w) (hretry : a.isRetryable db)
    (h : db.Tries dry work (first + 1) limit (db.behind dry work first a) row) :
    db.Tries dry work first (limit + 1) w (a :: row) := by
  obtain ⟨b, rest, rfl, hb⟩ := h.exists_cons
  have hfew := h.few
  refine ⟨List.forall_mem_cons.2 ⟨hmade, h.made⟩, congrArg some hbefore, Nat.succ_le_succ hfew, ?_, ?_⟩
  · intro i hi
    cases i with
    | zero =>
        rw [List.length_cons] at hfew
        exact ⟨fun _ => ⟨hretry, by omega⟩, fun _ => by simp⟩
    | succ i => simpa using h.another i (by simpa using hi)
  · intro i hi
    cases i with
    | zero => exact hb
    | succ i =>
        have hnext := h.next i (by simpa using hi)
        rwa [show first + 1 + i = first + (i + 1) from by omega] at hnext

/-- A computation that makes a row of attempts from a state on: it ends as the last of them and leaves their events. -/
structure Makes (db : Database σ) (dry : Bool) (work : Session σ α) (first limit : Nat) (x : Session σ α) (w : World σ)
    (row : List (Attempt σ α)) : Prop where
  tries : db.Tries dry work first limit w row
  ends : ∃ last ∈ row.getLast?, ending x w = last.result
  leaves : w.Leaves (after x w) (db.rowEvents dry first row)

/-- What does nothing behind its first attempt, because that must not be tried again, makes a row of one. -/
theorem makes_one (O : db.primary.Orderly db.dialect) (hwork : ∀ {w : World σ}, 0 < w.depth → w.Within (after work w))
    {x : Session σ α} {first limit : Nat} (hx : outcome x w = outcome (db.tryOnce dry work) w) (hlimit : 1 ≤ limit)
    (hend : ∀ f, ending (db.tryOnce dry work) w = .error f → db.isRetryable f = true → limit = 1) :
    ∃ row, db.Makes dry work first limit x w row := by
  obtain ⟨a, hbefore, hmade, hending, hleaves⟩ := tryOnce_made O hwork dry w
  refine ⟨[a], tries_one hmade hbefore hlimit ?_, ⟨a, rfl, ?_⟩, ?_⟩
  · rintro ⟨f, hf, hretry⟩
    exact hend f (hending.trans hf) hretry
  · rw [ending, hx]
    exact hending
  · rw [after, hx]
    exact hleaves

/-- An attempt that met a conflict, the wait after it, and what makes a row behind them make the longer row. -/
theorem makes_cons (O : db.primary.Orderly db.dialect) (hwork : ∀ {w : World σ}, 0 < w.depth → w.Within (after work w))
    {x y : Session σ α} {first limit : Nat} {waited : World σ} {f : Failure} {row : List (Attempt σ α)}
    (hf : ending (db.tryOnce dry work) w = .error f) (hretry : db.isRetryable f = true)
    (hwait : outcome (db.waitAfter first f) (after (db.tryOnce dry work) w) = (.ok (), waited))
    (hwaited : (after (db.tryOnce dry work) w).Leaves waited (db.retried first f))
    (hx : outcome x w = outcome y waited) (hy : db.Makes dry work (first + 1) limit y waited row) :
    ∃ row, db.Makes dry work first (limit + 1) x w row := by
  obtain ⟨a, hbefore, hmade, hending, hleaves⟩ := tryOnce_made O hwork dry w
  have hresult : a.result = .error f := hending.symm.trans hf
  have hbehind : db.behind dry work first a = waited := by
    rw [behind, hresult, hbefore]
    exact congrArg Prod.snd hwait
  obtain ⟨htries, ⟨last, hlast, hend⟩, hrow⟩ := hy
  rw [← hbehind] at htries
  obtain ⟨b, rest, rfl, -⟩ := htries.exists_cons
  refine ⟨a :: b :: rest, Tries.cons hmade hbefore ⟨f, hresult, hretry⟩ htries, ⟨last, ?_, ?_⟩, ?_⟩
  · rw [List.getLast?_cons_cons]
    exact hlast
  · rw [ending, hx]
    exact hend
  · rw [after, hx, rowEvents, hresult]
    exact (hleaves.trans hwaited).trans hrow

/-- Trying again makes a row of attempts, with as many more than the first as are allowed. -/
theorem tryAgain_makes (O : db.primary.Orderly db.dialect)
    (hwork : ∀ {w : World σ}, 0 < w.depth → w.Within (after work w)) (more : Nat) : ∀ {first : Nat} (w : World σ),
    db.Rests first more → ∃ row, db.Makes dry work first (more + 1) (db.tryAgain dry work more first) w row := by
  induction more with
  | zero => exact fun w _ => makes_one O hwork rfl (Nat.le_refl 1) fun _ _ _ => rfl
  | succ more ih =>
      intro first w R
      rcases outcome_cases (db.tryOnce dry work) w with ⟨x, hok⟩ | ⟨f, hf⟩
      · -- the work is done, and the row with it
        have hall : outcome (db.tryAgain dry work (more + 1) first) w = outcome (db.tryOnce dry work) w :=
          (outcome_attempt_bind_of hok).trans hok.symm
        refine makes_one O hwork hall (Nat.le_add_left 1 _) fun f hf => ?_
        rw [ending, hok] at hf
        cases hf
      · have hgo : outcome (db.tryAgain dry work (more + 1) first) w = outcome (if db.isRetryable f then do
            db.waitAfter first f
            db.tryAgain dry work more (first + 1)
          else throw f) (after (db.tryOnce dry work) w) := outcome_attempt_bind_of hf
        by_cases hretry : db.isRetryable f = true
        · -- a conflict: the rest of the row starts behind the wait
          obtain ⟨waited, hwait, hwaited⟩ :=
            leaves_waitAfter R (Nat.le_refl first) (by omega) f (after (db.tryOnce dry work) w)
          rw [if_pos hretry, outcome_bind_ok hwait] at hgo
          obtain ⟨row, hrow⟩ := @ih (first + 1) waited ⟨fun n h h' => R.pause n (by omega) (by omega), R.sleep⟩
          exact makes_cons O hwork (by rw [ending, hf]) hretry hwait hwaited hgo hrow
        · -- whatever else went wrong ends the row
          rw [if_neg hretry] at hgo
          refine makes_one O hwork (hgo.trans hf.symm) (Nat.le_add_left 1 _) fun g hg hretry' => ?_
          rw [ending, hf] at hg
          cases hg
          exact absurd hretry' hretry

/-- A transaction around a unit of work is a row of attempts at it, each within its bounds, and leaves the events of the
row. It returns exactly if the last of them was committed, and ends as that one did; a failure to find more members of a
row is the only one that is told as another. Inside a transaction it is nothing but its work. -/
theorem transaction_tries (db : Database σ) (dry : Bool) (attempts : Value) (work : Work σ α) {n : Int} {w : World σ}
    (hasked : db.settings.retry.attemptsFrom attempts = .ok n) (hn : 1 ≤ n) (hdepth : w.depth = 0)
    (O : db.primary.Orderly db.dialect) (R : db.Rests 1 (n.toNat - 1)) :
    (∃ row last, db.Tries dry (work.play db) 1 n.toNat w row ∧ row.getLast? = some last ∧
      ending (db.transaction dry attempts (work.play db)) w = last.result.mapError leaving ∧
      ((∃ a, ending (db.transaction dry attempts (work.play db)) w = .ok a) ↔ last.calls = [.start, .commit]) ∧
      w.Leaves (after (db.transaction dry attempts (work.play db)) w) (db.rowEvents dry 1 row)) ∧
    ∀ inner : World σ, 0 < inner.depth →
      outcome (db.transaction dry attempts (work.play db)) inner = outcome (work.play db) inner ∧
        inner.Within (after (db.transaction dry attempts (work.play db)) inner) := by
  constructor
  · obtain ⟨row, htries, ⟨last, hlast, hending⟩, hleaves⟩ := tryAgain_makes O (work.within_play db) (n.toNat - 1) w R
    have htotal := (db.transaction_outermost dry attempts (work.play db) hdepth).2 n hasked
    rw [if_neg (Int.not_lt.2 hn)] at htotal
    rw [show n.toNat - 1 + 1 = n.toNat from by omega] at htries
    have hends : ending (db.transaction dry attempts (work.play db)) w = last.result.mapError leaving := by
      rw [ending, htotal, hending]
    refine ⟨row, last, htries, hlast, hends, ?_, by rwa [after, htotal]⟩
    rw [hends]
    rcases last.calls_cases with ⟨⟨f, hf⟩, hcalls⟩ | ⟨⟨x, hx⟩, hcalls⟩
    · rw [hf]
      refine ⟨fun hok => ?_, fun h => ?_⟩
      · obtain ⟨a, ha⟩ := hok
        cases ha
      · rcases hcalls with hcalls | hcalls <;> rw [hcalls] at h <;> cases h
    · rw [hx]
      exact ⟨fun _ => hcalls, fun _ => ⟨x, rfl⟩⟩
  · intro inner hinner
    have hnested : outcome (db.transaction dry attempts (work.play db)) inner = outcome (work.play db) inner :=
      transaction_nested dry attempts (work.play db) hinner
    refine ⟨hnested, ?_⟩
    rw [after, hnested]
    exact work.within_play db hinner

/-- A database whose driver grants everything. -/
def ready : Database Unit where
  settings := {}
  dialect := .sqlite
  primary := .port
    { prepare := fun _ => pure (), execute := fun _ _ => pure {}, lastKey := pure .null, start := pure ()
      commit := pure (), rollback := pure () }
  moment := ⟨2024, 1, 1, 0, 0, 0⟩
  chance := .ofInt 0

/-- Work that meets a conflict each time is tried as often as asked for. -/
theorem transaction_tries_twice :
    let locked : Failure := .of (.execution ⟨.retryable, "database is locked", none, .null⟩)
    let work : Work Unit Unit := .done (.error locked)
    ∃ row : List (Attempt Unit Unit), row.length = 2 ∧
      (after (ready.transaction false (.int 2) (work.play ready)) { outside := () }).journal =
        ready.rowEvents false 1 row := by
  intro locked work
  have R : ready.Rests 1 1 := by
    refine ⟨fun number hfirst hmore => ?_, fun pause s => ⟨(), rfl⟩⟩
    obtain rfl : number = 1 := by omega
    have hfinite : (ready.pauseAfter 1).isOk = true := by decide +kernel
    cases hpause : ready.pauseAfter 1 with
    | ok pause => exact ⟨pause, rfl⟩
    | error f =>
        rw [hpause] at hfinite
        cases hfinite
  have O : ready.primary.Orderly ready.dialect := ⟨fun _ => rfl, nofun, nofun⟩
  obtain ⟨⟨row, last, htries, -, -, -, hleaves⟩, -⟩ := transaction_tries (w := { outside := () }) ready false (.int 2)
    work rfl (by decide) rfl O R
  refine ⟨row, ?_, hleaves.journal⟩
  obtain ⟨a, rest, rfl, -⟩ := htries.exists_cons
  have hfailed : a.result = .error locked := by
    have hworked := (htries.made a List.mem_cons_self).worked
    rw [Attempt.result, ← hworked]
    rfl
  have hanother := (htries.another 0 (Nat.succ_pos _)).2 ⟨⟨locked, hfailed, rfl⟩, by decide⟩
  exact Nat.le_antisymm htries.few hanother

/-- Work that asks for a member behind the last one does not fail with its own failure. -/
theorem transaction_rewraps :
    let work : Work Unit Unit := .done (.error (.of .exhausted))
    ending (work.play ready) { outside := (), depth := 1 } = .error (.of .exhausted) ∧
      ending (ready.transaction false .null (work.play ready)) { outside := () } ≠ .error (.of .exhausted) := by
  refine ⟨rfl, fun h => ?_⟩
  have hwrapped : ending (ready.transaction false .null ((.done (.error (.of .exhausted)) : Work Unit Unit).play ready))
      { outside := () } = .error (leaving (.of .exhausted)) := rfl
  rw [hwrapped] at h
  cases h

end Database

end Polyquery
