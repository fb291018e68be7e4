import Polyquery.Number.Logarithm
import Polyquery.Session.Pipeline

/-! Transactions. A unit of work runs between start and commit; when it fails it is rolled back, and when the
failure tells of a conflict it is tried again after a wait. Transactions inside another one belong to it. -/

namespace Polyquery

open Session

namespace Retry

/-- Whether a delay that was doubled so often lies beyond its bound, as told from the logarithms: the first delay has
been doubled more often than it takes to reach the bound. A delay just short of the bound may count as beyond it. -/
def isBeyondBound (r : Retry) (doublings : Nat) : Bool :=
  (r.maxDelay.binaryLog - r.baseDelay.binaryLog).less (.ofInt doublings)

/-- The wait before the next attempt: twice as long each time up to a bound, and a random part on top. -/
def wait (r : Retry) (attempt : Nat) (chance : Double) : Double :=
  let nothing := Double.ofInt 0
  let factor := Double.ofInt (Double.twoTo (attempt - 1))
  let grown :=
    if factor.isInfinite || r.isBeyondBound (attempt - 1) then r.maxDelay
    else
      let delay := r.baseDelay * factor
      let bounded := if r.maxDelay.less delay then r.maxDelay else delay
      if nothing.less bounded then bounded else nothing
  grown + chance * r.jitter

/-- A number of attempts that no unit of work needs. -/
def endless : Int := 18446744073709551616

/-- The number of attempts that a value asks for, null asking for the usual one; a part of an attempt is one. -/
def attemptsFrom (r : Retry) : Value → Except Failure Int
  | .null => .ok r.attempts
  | .bool b => .ok (if b then 1 else 0)
  | .int n => .ok n
  | .real x => match x.floor? with
    | some n => .ok (if x.toInt?.isSome || n < 1 then n else n + 1)
    | none => .ok (if x.less (.ofInt 1) then 0 else endless)
  | _ => .error .wrongType

end Retry

/-- A duration in seconds as whole microseconds, halves going up. One without end fails as any integer would. -/
def Double.microseconds (x : Double) : Except Failure Int :=
  let scaled := x * .ofInt 1000000 + .ofDecimal false 5 (-1)
  match scaled.floor? with
  | some n => .ok n
  | none => (Value.real scaled).toInteger

namespace Database

variable {σ α : Type}

/-- Whether all may be tried again after a failure. -/
def isRetryable (db : Database σ) (f : Failure) : Bool :=
  match f.severity? with
  | some severity => severity = .retryable
  | none => !f.isOwn && !f.isInterrupt && db.dialect.isConflict f

/-- Rolls back; a failure of execution is only logged, so that the first failure stays the one to see. -/
def rollBackQuietly (db : Database σ) : Session σ Unit := do
  match ← attempt (db.primary.rollback db.dialect .primary) with
  | .ok () => pure ()
  | .error f =>
    if f.isExecution then log .warning "transaction_rollback_failed" [("error", .text f.message)]
    else throw f

/-- Commits; when that is refused the transaction is rolled back. -/
def commitOrRollBack (db : Database σ) : Session σ Unit := do
  match ← attempt (db.primary.commit db.dialect .primary) with
  | .ok () => pure ()
  | .error f => do
    if f.isExecution then db.rollBackQuietly
    throw f

/-- One attempt at a unit of work. A dry one leaves the driver alone. -/
def tryOnce (db : Database σ) (dry : Bool) (work : Session σ α) : Session σ α := do
  unless dry do db.primary.start .primary
  modify fun w => { w with depth := w.depth + 1 }
  let outcome ← attempt work
  modify fun w => { w with depth := w.depth - 1 }
  match outcome with
  | .error f => do
    unless dry do db.rollBackQuietly
    throw f
  | .ok a => do
    unless dry do db.commitOrRollBack
    pure a

/-- Waits before the next attempt. -/
def waitAfter (db : Database σ) (number : Nat) (f : Failure) : Session σ Unit := do
  let pause ← settle (db.settings.retry.wait number db.chance).microseconds
  log .warning "transaction_retry"
    [("attempt", .int number), ("sleep", .int pause), ("error", .text f.message)]
  emit (.slept pause)
  outside (db.sleep pause)

/-- Attempts at a unit of work, the first one with the given number and up to `more` after it. -/
def tryAgain (db : Database σ) (dry : Bool) (work : Session σ α) : Nat → Nat → Session σ α
  | 0, _ => db.tryOnce dry work
  | more + 1, number => do
    match ← attempt (db.tryOnce dry work) with
    | .ok a => pure a
    | .error f =>
      if db.isRetryable f then do
        db.waitAfter number f
        db.tryAgain dry work more (number + 1)
      else throw f

/-- A failure as it leaves a transaction. That a row has no further members would end the row of attempts, and is
told as an error of another kind. -/
def leaving (f : Failure) : Failure :=
  match f.cause with
  | .exhausted => .of (.foreign .runtime [.text "generator raised StopIteration"])
  | _ => f

/-- A unit of work as a transaction, tried as often as the settings say unless a number is given. -/
def transaction (db : Database σ) (dry : Bool) (attempts : Value) (work : Session σ α) : Session σ α := do
  if 0 < (← get).depth then work
  else
    let attempts ← settle (db.settings.retry.attemptsFrom attempts)
    if attempts < 1 then throw (.badValue "attempts must be >= 1")
    else do
      match ← attempt (db.tryAgain dry work (attempts.toNat - 1) 1) with
      | .ok a => pure a
      | .error f => throw (leaving f)

end Database

end Polyquery
