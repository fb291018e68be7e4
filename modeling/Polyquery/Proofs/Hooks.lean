import Polyquery.Proofs.Course

/-! Computations to which the hooks of a caller do not matter: neither the layers that statements pass, nor whether
statements are reported and measured. Main statement: what a table is known to have is found out without any hook. -/

namespace Polyquery

open Session

variable {σ α β : Type}

/-- A world with the hooks of another one. -/
def World.hooked (w v : World σ) : World σ :=
  { w with layers := v.layers, chains := v.chains, reports := v.reports, measures := v.measures }

namespace Session

/-- A computation that ends alike under all hooks, and does not touch them. -/
def Unhooked (x : Session σ α) : Prop := ∀ w v : World σ, outcome x (w.hooked v) = (ending x w, (after x w).hooked v)

theorem unhooked_pure (a : α) : Unhooked (pure a : Session σ α) := fun _ _ => rfl

theorem unhooked_settle (o : Except Failure α) : Unhooked (settle o : Session σ α) := by
  intro w v
  rw [ending, after, outcome_settle, outcome_settle]

theorem unhooked_emit (event : Event) : Unhooked (emit event : Session σ Unit) := fun _ _ => rfl

theorem unhooked_modify {change : World σ → World σ} (h : ∀ w v, change (w.hooked v) = (change w).hooked v) :
    Unhooked (modify change) := fun w v => congrArg (Prod.mk _) (h w v)

theorem unhooked_setLastKey (link : Link) (key : Value) : Unhooked (setLastKey link key : Session σ Unit) :=
  unhooked_modify fun _ _ => by cases link <;> rfl

theorem unhooked_outside (x : Effect σ α) : Unhooked (outside x) := by
  intro w v
  cases hx : x w.outside with
  | ok a s => rw [outcome_outside_ok (w := w.hooked v) hx, ending, after, outcome_outside_ok hx]; rfl
  | error f s => rw [outcome_outside_error (w := w.hooked v) hx, ending, after, outcome_outside_error hx]; rfl

theorem unhooked_bind {x : Session σ α} {k : α → Session σ β} (hx : Unhooked x) (hk : ∀ a, Unhooked (k a)) :
    Unhooked (x >>= k) := by
  intro w v
  change _ = ((outcome (x >>= k) w).1, (outcome (x >>= k) w).2.hooked v)
  have hhooked := hx w v
  rcases outcome_cases x w with ⟨a, ha⟩ | ⟨f, hf⟩
  · rw [ending, ha] at hhooked
    rw [outcome_bind_ok hhooked, outcome_bind_ok ha]
    exact hk a (after x w) v
  · rw [ending, hf] at hhooked
    rw [outcome_bind_error hhooked, outcome_bind_error hf]

/-- What is read of a world and does not depend on its hooks. -/
theorem unhooked_get_bind {k : World σ → Session σ β} (hsame : ∀ w v : World σ, k (w.hooked v) = k w)
    (hk : ∀ w, Unhooked (k w)) : Unhooked (get >>= k) := by
  intro w v
  rw [outcome_get_bind, hsame, hk w]
  rfl

theorem unhooked_inTransaction (link : Link) : Unhooked (inTransaction link : Session σ Bool) :=
  unhooked_get_bind (fun _ _ => by cases link <;> rfl) fun _ => unhooked_pure _

theorem unhooked_attempt {x : Session σ α} (hx : Unhooked x) : Unhooked (attempt x) := by
  intro w v
  have hhooked := hx w v
  rw [outcome_eq, Prod.mk.injEq] at hhooked
  rw [outcome_attempt, hhooked.1, hhooked.2]
  rfl

theorem composes_unhooked : Composes (σ := σ) Unhooked where
  settle := unhooked_settle
  bind := unhooked_bind
  attempt := unhooked_attempt
  inTransaction := unhooked_inTransaction
  outside := unhooked_outside
  setLastKey := unhooked_setLastKey

end Session

/-! ### Questions about columns -/

theorem Driver.unhooked_prepare (d : Dialect) (link : Link) (sql : String) (driver : Driver σ) :
    Unhooked (driver.prepare d link sql) := by
  cases driver with
  | port p => exact unhooked_bind (unhooked_emit _) fun _ => unhooked_bind (unhooked_outside _) fun _ => unhooked_pure _
  | connection c =>
      intro w v
      rw [ending, after, outcome_prepare_connection, outcome_prepare_connection]
      rfl

namespace Database

theorem unhooked_lookUpColumn (db : Database σ) (table column : String) : Unhooked (db.lookUpColumn table column) := by
  rw [lookUpColumn.eq_def]
  cases db.catalogue with
  | queried =>
      exact unhooked_bind (Driver.unhooked_prepare _ _ _ _) fun _ =>
        unhooked_bind (composes_unhooked.execute (fun event _ => unhooked_emit event) _ _) fun _ => unhooked_pure _
  | listed has => exact composes_unhooked.call (unhooked_emit _) _
  | reflected schema columns => exact unhooked_bind (unhooked_emit _) fun _ => unhooked_pure _

end Database

end Polyquery
