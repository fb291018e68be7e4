import Polyquery.Session.World

/-! The outcome of a computation on a session and the state that it leaves, step by step. -/

namespace Polyquery.Session

variable {σ α β : Type}

/-- The state that a computation leaves. -/
def after (x : Session σ α) (w : World σ) : World σ := (outcome x w).2

/-- What comes of a computation. -/
def ending (x : Session σ α) (w : World σ) : Except Failure α := (outcome x w).1

theorem outcome_eq (x : Session σ α) (w : World σ) : outcome x w = (ending x w, after x w) := rfl

theorem outcome_cases (x : Session σ α) (w : World σ) :
    (∃ a, outcome x w = (.ok a, after x w)) ∨ ∃ f, outcome x w = (.error f, after x w) := by
  rw [outcome_eq]
  cases ending x w with
  | ok a => exact .inl ⟨a, rfl⟩
  | error f => exact .inr ⟨f, rfl⟩

@[simp] theorem outcome_pure (a : α) (w : World σ) : outcome (pure a : Session σ α) w = (.ok a, w) := rfl

@[simp] theorem outcome_throw (f : Failure) (w : World σ) : outcome (throw f : Session σ α) w = (.error f, w) := rfl

theorem outcome_bind (x : Session σ α) (k : α → Session σ β) (w : World σ) :
    outcome (x >>= k) w = match ending x w with
      | .ok a => outcome (k a) (after x w)
      | .error f => (.error f, after x w) := by
  simp only [ending, after, outcome, bind, EStateM.bind]
  cases x w <;> rfl

/-- Two computations come to the same if their first steps do, and so does what follows these. -/
theorem outcome_bind_congr {x y : Session σ α} {k l : α → Session σ β} {w : World σ} (hx : outcome x w = outcome y w)
    (hk : ∀ a, ending x w = .ok a → outcome (k a) (after x w) = outcome (l a) (after x w)) :
    outcome (x >>= k) w = outcome (y >>= l) w := by
  have hending : ending y w = ending x w := congrArg Prod.fst hx.symm
  have hafter : after y w = after x w := congrArg Prod.snd hx.symm
  rw [outcome_bind, outcome_bind, hending, hafter]
  cases ha : ending x w with
  | ok a => exact hk a ha
  | error f => rfl

/-- What a computation answers comes of its last step, behind what the first one answers. -/
theorem ending_bind_eq_ok {x : Session σ α} {k : α → Session σ β} {w : World σ} {b : β} :
    ending (x >>= k) w = .ok b ↔ ∃ a, ending x w = .ok a ∧ ending (k a) (after x w) = .ok b := by
  rw [ending, outcome_bind]
  cases ending x w with
  | ok a => exact ⟨fun h => ⟨a, rfl, h⟩, fun ⟨_, ha, h⟩ => Except.ok.inj ha ▸ h⟩
  | error f => exact ⟨nofun, nofun⟩

/-- Computations are the same if they come to the same from every state. -/
theorem eq_of_outcome {x y : Session σ α} (h : ∀ w, outcome x w = outcome y w) : x = y := by
  funext w
  have hw := h w
  rw [outcome, outcome] at hw
  cases hx : x w <;> cases hy : y w <;> rw [hx, hy] at hw <;> cases hw <;> rfl

/-- A step that succeeds, and what follows it. -/
theorem outcome_bind_ok {x : Session σ α} {k : α → Session σ β} {w w' : World σ} {a : α}
    (h : outcome x w = (.ok a, w')) : outcome (x >>= k) w = outcome (k a) w' := by
  rw [outcome_bind, ending, after, h]

/-- Nothing follows a step that fails. -/
theorem outcome_bind_error {x : Session σ α} {k : α → Session σ β} {w w' : World σ} {f : Failure}
    (h : outcome x w = (.error f, w')) : outcome (x >>= k) w = (.error f, w') := by
  rw [outcome_bind, ending, after, h]

@[simp] theorem outcome_attempt (x : Session σ α) (w : World σ) :
    outcome (attempt x) w = (.ok (ending x w), after x w) := rfl

/-- What follows a step whatever comes of it. -/
@[simp] theorem outcome_attempt_bind (x : Session σ α) (k : Except Failure α → Session σ β) (w : World σ) :
    outcome (attempt x >>= k) w = outcome (k (ending x w)) (after x w) := rfl

theorem outcome_attempt_bind_of {x : Session σ α} {k : Except Failure α → Session σ β} {w w' : World σ}
    {o : Except Failure α} (h : outcome x w = (o, w')) : outcome (attempt x >>= k) w = outcome (k o) w' := by
  rw [outcome_attempt_bind, ending, after, h]

@[simp] theorem outcome_settle (o : Except Failure α) (w : World σ) : outcome (settle o) w = (o, w) := by
  cases o <;> rfl

@[simp] theorem outcome_emit_bind (event : Event) (k : Unit → Session σ β) (w : World σ) :
    outcome (emit event >>= k) w = outcome (k ()) { w with journal := w.journal ++ [event] } := rfl

@[simp] theorem outcome_modify_bind (change : World σ → World σ) (k : Unit → Session σ β) (w : World σ) :
    outcome (modify change >>= k) w = outcome (k ()) (change w) := rfl

@[simp] theorem outcome_get_bind (k : World σ → Session σ β) (w : World σ) :
    outcome (get >>= k) w = outcome (k w) w := rfl

@[simp] theorem outcome_inTransaction_bind (link : Link) (k : Bool → Session σ β) (w : World σ) :
    outcome (inTransaction link >>= k) w = outcome (k (w.link link).inTransaction) w := rfl

theorem outcome_outside_ok {x : Effect σ α} {w : World σ} {a : α} {s : σ} (h : x w.outside = .ok a s) :
    outcome (outside x) w = (.ok a, { w with outside := s }) := by
  rw [outcome, outside, h]

theorem outcome_outside_error {x : Effect σ α} {w : World σ} {f : Failure} {s : σ}
    (h : x w.outside = .error f s) : outcome (outside x) w = (.error f, { w with outside := s }) := by
  rw [outcome, outside, h]

/-! ### Calls on the outside world, each behind its event -/

/-- The state behind an event and a change of the outside world. -/
def called (w : World σ) (event : Event) (s : σ) : World σ := { w with journal := w.journal ++ [event], outside := s }

theorem outcome_call_ok {x : Effect σ α} {w : World σ} {a : α} {s : σ} (h : x w.outside = .ok a s) (event : Event) :
    outcome (do
      emit event
      outside x) w = (.ok a, called w event s) := by
  rw [outcome_emit_bind]
  exact outcome_outside_ok h

theorem outcome_call_error {x : Effect σ α} {w : World σ} {f : Failure} {s : σ} (h : x w.outside = .error f s)
    (event : Event) :
    outcome (do
      emit event
      outside x) w = (.error f, called w event s) := by
  rw [outcome_emit_bind]
  exact outcome_outside_error h

theorem outcome_call_bind_ok {x : Effect σ α} {w : World σ} {a : α} {s : σ} (h : x w.outside = .ok a s)
    (event : Event) (k : α → Session σ β) :
    outcome (do
      emit event
      let a ← outside x
      k a) w = outcome (k a) (called w event s) := by
  rw [outcome_emit_bind]
  exact outcome_bind_ok (outcome_outside_ok h)

theorem outcome_call_bind_error {x : Effect σ α} {w : World σ} {f : Failure} {s : σ} (h : x w.outside = .error f s)
    (event : Event) (k : α → Session σ β) :
    outcome (do
      emit event
      let a ← outside x
      k a) w = (.error f, called w event s) := by
  rw [outcome_emit_bind]
  exact outcome_bind_error (outcome_outside_error h)

/-- A call whose failure is caught, and what follows it. -/
theorem outcome_attempt_call_ok {x : Effect σ α} {w : World σ} {a : α} {s : σ} (h : x w.outside = .ok a s)
    (event : Event) (k : Except Failure α → Session σ β) :
    outcome (do
      emit event
      let outcome ← attempt (outside x)
      k outcome) w = outcome (k (.ok a)) (called w event s) := by
  have hcall : outcome (outside x) (called w event w.outside) = (.ok a, called w event s) := outcome_outside_ok h
  rw [outcome_emit_bind]
  exact outcome_attempt_bind_of hcall

theorem outcome_attempt_call_error {x : Effect σ α} {w : World σ} {f : Failure} {s : σ} (h : x w.outside = .error f s)
    (event : Event) (k : Except Failure α → Session σ β) :
    outcome (do
      emit event
      let outcome ← attempt (outside x)
      k outcome) w = outcome (k (.error f)) (called w event s) := by
  have hcall : outcome (outside x) (called w event w.outside) = (.error f, called w event s) := outcome_outside_error h
  rw [outcome_emit_bind]
  exact outcome_attempt_bind_of hcall

/-! ### Cleanup -/

/-- A computation whose cleanup succeeds has its own outcome. -/
theorem outcome_ensuring_ok {x : Session σ α} {cleanup : Session σ Unit} {w w' : World σ}
    (h : outcome cleanup (after x w) = (.ok (), w')) : outcome (ensuring x cleanup) w = (ending x w, w') := by
  rw [ensuring, outcome_attempt_bind, outcome_bind_ok h, outcome_settle]

/-- A failure of cleanup takes the place of what came before it. -/
theorem outcome_ensuring_error {x : Session σ α} {cleanup : Session σ Unit} {w w' : World σ} {f : Failure}
    (h : outcome cleanup (after x w) = (.error f, w')) : outcome (ensuring x cleanup) w = (.error f, w') := by
  rw [ensuring, outcome_attempt_bind, outcome_bind_error h]

/-- Cleanup starts where a computation has led, and nothing follows it. -/
theorem after_ensuring (x : Session σ α) (cleanup : Session σ Unit) (w : World σ) :
    after (ensuring x cleanup) w = after cleanup (after x w) := by
  rw [after, ensuring, outcome_attempt_bind, outcome_bind]
  cases ending cleanup (after x w) with
  | ok _ => rw [outcome_settle]
  | error f => rfl

/-! ### Failures -/

/-- A computation that fails, if it does, by a failure of a kind. -/
def Raises (x : Session σ α) (S : Failure → Prop) : Prop := ∀ w f, ending x w = .error f → S f

variable {S : Failure → Prop}

theorem raises_pure (a : α) : Raises (pure a : Session σ α) S := fun _ _ h => by cases h

theorem raises_emit (event : Event) : Raises (emit event : Session σ Unit) S := fun _ _ h => by cases h

theorem raises_setLastKey (link : Link) (key : Value) : Raises (setLastKey link key : Session σ Unit) S :=
  fun _ _ h => by cases h

theorem raises_bind {x : Session σ α} {k : α → Session σ β} (hx : Raises x S) (hk : ∀ a, Raises (k a) S) :
    Raises (x >>= k) S := by
  intro w f h
  rw [ending, outcome_bind] at h
  cases hending : ending x w with
  | ok a =>
      rw [hending] at h
      exact hk a _ _ h
  | error f' =>
      rw [hending] at h
      cases h
      exact hx w f hending

theorem raises_settle {o : Except Failure α} (h : ∀ f, o = .error f → S f) : Raises (settle o : Session σ α) S := by
  intro w f hf
  rw [ending, outcome_settle] at hf
  exact h f hf

theorem raises_outside {x : Effect σ α} (h : ∀ {s f s'}, x s = .error f s' → S f) : Raises (outside x) S := by
  intro w f hf
  cases hx : x w.outside with
  | ok a s =>
      rw [ending, outcome_outside_ok hx] at hf
      cases hf
  | error f' s =>
      rw [ending, outcome_outside_error hx] at hf
      cases hf
      exact h hx

end Polyquery.Session
