import Polyquery.Proofs.Attempts
import Polyquery.Proofs.Course

/-! How deep a session is in transactions. Main statement: whatever goes on through the handles of a database, a session is
as deep behind it as it was before. -/

namespace Polyquery

open Session

variable {σ α : Type} {db : Database σ}

/-- Whether two worlds are at the same depth. -/
def World.Level (w w' : World σ) : Prop := w'.depth = w.depth

instance : IsPreorder (World σ) World.Level where
  refl _ := rfl
  trans _ _ _ h h' := Eq.trans h' h

theorem level_outside (x : Effect σ α) : Leads World.Level (outside x) := fun w => (bounded_outside x w).depth

namespace Database

theorem conveys_level (db : Database σ) (link : Link) : db.Conveys link World.Level where
  still h := h.depth
  prepare sql := Leads.mono (Driver.bounded_prepare sql _) (·.depth)
  execute statement params := Leads.mono (Driver.bounded_execute statement params _) (·.depth)

theorem level_rollBackQuietly : Leads World.Level db.rollBackQuietly := by
  refine leads_bind (leads_attempt fun w => (Driver.leaves_rollback _ _ w).depth) fun outcome => ?_
  split
  · exact leads_pure _
  · split
    · exact (db.conveys_level .primary).emit _
    · exact leads_throw _

theorem level_commitOrRollBack : Leads World.Level db.commitOrRollBack := by
  refine leads_bind (leads_attempt fun w => (Driver.leaves_commit _ _ w).depth) fun outcome => ?_
  split
  · exact leads_pure _
  · exact leads_when level_rollBackQuietly (leads_throw _)

/-- An attempt goes as far up as it has gone down. -/
theorem level_tryOnce (dry : Bool) {x : Session σ α} (hx : Leads World.Level x) :
    Leads World.Level (db.tryOnce dry x) := by
  have hclose : ∀ outcome : Except Failure α, Leads World.Level (db.close dry outcome) := by
    intro outcome
    cases dry <;> cases outcome
    · exact leads_bind level_rollBackQuietly fun _ => leads_throw _
    · exact leads_bind level_commitOrRollBack fun _ => leads_pure _
    · exact leads_throw _
    · exact leads_pure _
  have hinside : Leads World.Level (do
      modify fun w => { w with depth := w.depth + 1 }
      let outcome ← attempt x
      modify fun w => { w with depth := w.depth - 1 }
      db.close dry outcome) := by
    intro w
    have hback : (after x w.entered).unwound.depth = w.depth := by
      change (after x w.entered).depth - 1 = w.depth
      rw [hx w.entered]
      exact Nat.add_sub_cancel w.depth 1
    exact (hclose (ending x w.entered) (after x w.entered).unwound).trans hback
  cases dry with
  | true => exact hinside
  | false => exact leads_bind (fun w => (Driver.leaves_start _ w).depth) fun _ => hinside

theorem consults_level (db : Database σ) : db.Consults fun x => Leads World.Level x where
  toSequences := sequences_leads _
  read _ hk := leads_bind leads_get hk
  remember _ _ := rfl
  lookUp := (db.conveys_level .primary).lookUpColumn fun _ _ _ _ => level_outside _

theorem level_transaction (dry : Bool) (attempts : Value) {x : Session σ α} (hx : Leads World.Level x) :
    Leads World.Level (db.transaction dry attempts x) :=
  db.consults_level.transaction hx (level_tryOnce dry hx)
    ((db.conveys_level .primary).waitAfter fun _ => level_outside _) attempts

theorem level_runText (db : Database σ) (h : Handle) (sql : String) (params : List Value) (operation : Operation)
    (table : Option String) (timeout : Option Int) :
    Leads World.Level (db.runText h sql params operation table timeout) :=
  leads_bind (leads_bind leads_get fun _ => leads_pure _) fun link => (db.conveys_level link).runContext _ _ _

/-- Handles leave a session at its depth. -/
theorem conducts_level (db : Database σ) (allowed : Handle → Prop) :
    db.Conducts allowed fun x => Leads World.Level x where
  toConsults := db.consults_level
  run _ _ _ _ := db.level_runText _ _ _ _ _ _
  raw _ _ _ := db.level_runText _ _ _ _ _ _
  lastKey _ := (db.conveys_level .primary).lastKey (fun _ _ => level_outside _) _
  transaction _ _ _ attempts hx := level_transaction _ attempts hx

end Database

/-- Whatever goes on through handles, a session is as deep behind it as it was before. -/
theorem Course.play_level {allowed : Handle → Prop} (db : Database σ) (course : Course allowed α) :
    Leads World.Level (course.play db) :=
  course.conducted (db.conducts_level allowed)

end Polyquery
