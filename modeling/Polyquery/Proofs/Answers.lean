import Polyquery.Proofs.Attempts
import Polyquery.Query.Terminal

/-! What computations answer, as far as they do. A computation that never answers fails wherever it starts. Main statement:
a transaction answers what its work answers. -/

namespace Polyquery

open Session

variable {σ α β : Type}

namespace Session

/-- What comes of a computation whose answer is told on. -/
theorem ending_tell (x : Session σ α) (tell : α → β) (w : World σ) :
    ending (do return tell (← x)) w = (ending x w).map tell := by
  rw [ending, outcome_bind]
  cases ending x w <;> rfl

/-- A known outcome comes of no change. -/
theorem outcome_known (o : Except Failure α) (w : World σ) : outcome (Query.known o) w = (o, w) := by cases o <;> rfl

/-- A computation that answers, if it does, something of a kind. -/
def Yields (x : Session σ α) (S : α → Prop) : Prop := ∀ w a, ending x w = .ok a → S a

section

variable {x : Session σ α} {S : α → Prop} {T : β → Prop}

theorem yields_any (x : Session σ α) : Yields x fun _ => True := fun _ _ _ => trivial

theorem yields_pure {a : α} (h : S a) : Yields (pure a : Session σ α) S := by
  intro w b hb
  cases hb
  exact h

theorem yields_throw (f : Failure) : Yields (throw f : Session σ α) S := fun _ _ hb => by cases hb

theorem yields_bind {k : α → Session σ β} (hx : Yields x S) (hk : ∀ a, S a → Yields (k a) T) : Yields (x >>= k) T := by
  intro w b hb
  obtain ⟨a, ha, hb⟩ := ending_bind_eq_ok.1 hb
  exact hk a (hx w a ha) _ b hb

/-- What follows a computation whatever it answers. -/
theorem yields_then {k : α → Session σ β} (hk : ∀ a, Yields (k a) T) : Yields (x >>= k) T :=
  yields_bind (yields_any x) fun a _ => hk a

theorem yields_attempt (hx : Yields x S) : Yields (attempt x) fun o => ∀ a, o = .ok a → S a := by
  intro w o ho a ha
  cases ho
  exact hx w a ha

theorem yields_known {o : Except Failure α} (h : ∀ a, o = .ok a → S a) : Yields (Query.known o : Session σ α) S := by
  cases o with
  | ok a => exact yields_pure (h a rfl)
  | error f => exact yields_throw f

/-- A computation that never answers. -/
def Fails (x : Session σ α) : Prop := Yields x fun _ => False

theorem Fails.error (h : Fails x) (w : World σ) : ∃ f, ending x w = .error f := by
  cases hx : ending x w with
  | ok a => exact (h w a hx).elim
  | error f => exact ⟨f, rfl⟩

theorem fails_bind {k : α → Session σ β} (h : Fails x) : Fails (x >>= k) := yields_bind h fun _ => False.elim

end

end Session

namespace Database

/-- A transaction answers what its work does. -/
theorem yields_transaction {x : Session σ α} {S : α → Prop} (hx : Yields x S) (db : Database σ) (dry : Bool)
    (attempts : Value) : Yields (db.transaction dry attempts x) S := by
  have honce : Yields (db.tryOnce dry x) S := by
    have hclose : ∀ o : Except Failure α, (∀ a, o = .ok a → S a) → Yields (db.close dry o) S := by
      intro o ho
      cases o with
      | ok a => cases dry <;> first | exact yields_pure (ho a rfl) | exact yields_then fun _ => yields_pure (ho a rfl)
      | error f => cases dry <;> first | exact yields_throw f | exact yields_then fun _ => yields_throw f
    have hwork : Yields (do
        modify fun w => { w with depth := w.depth + 1 }
        let outcome ← attempt x
        modify fun w => { w with depth := w.depth - 1 }
        db.close dry outcome) S :=
      yields_then fun _ => yields_bind (yields_attempt hx) fun o ho => yields_then fun _ => hclose o ho
    cases dry with
    | true => exact hwork
    | false => exact yields_then fun _ => hwork
  have hagain : ∀ more number, Yields (db.tryAgain dry x more number) S := by
    intro more
    induction more with
    | zero => exact fun number => honce
    | succ more ih =>
        refine fun number => yields_bind (yields_attempt honce) fun o ho => ?_
        split
        · exact yields_pure (ho _ rfl)
        · split
          · exact yields_then fun _ => ih _
          · exact yields_throw _
  refine yields_then fun w => ?_
  split
  · exact hx
  · refine yields_then fun n => ?_
    split
    · exact yields_throw _
    · refine yields_bind (yields_attempt (hagain _ _)) fun o ho => ?_
      split
      · exact yields_pure (ho _ rfl)
      · exact yields_throw _

end Database

end Polyquery
