import Polyquery.Proofs.Atomicity
import Polyquery.Proofs.Passage

/-! Units of work: statements, transactions inside the one that is open already, and whatever else is computed between
them, each step depending on what came of those before it. Main statement: a unit of work inside a transaction leaves
the transaction to its manager. It neither opens, commits nor rolls back, does not wait, and stays at its depth. -/

namespace Polyquery

open Session

variable {σ α β : Type} {c : Connection σ} {db : Database σ} {w w' w'' : World σ}

/-- Whether an event is about the bounds of transactions: one of their ends, a retry, or the wait before it. On a
connection commits and rollbacks are such bounds while a transaction is open; else each statement has its own. -/
def Event.isBound (opened : Bool) : Event → Bool
  | .driver _ .start | .driver _ .commit | .driver _ .rollback => true
  | .wire .primary .commit | .wire .primary .rollback => opened
  | .slept _ => true
  | .logged level name _ =>
    level = .warning && (name = "transaction_retry" || name = "transaction_rollback_failed")
  | _ => false

/-- A step within the bounds of a transaction: only events that are no bounds, and the same depth behind it. -/
structure World.Within (w w' : World σ) : Prop where
  depth : w'.depth = w.depth
  inTransaction : w'.primary.inTransaction = w.primary.inTransaction
  journal : ∃ events, w'.journal = w.journal ++ events ∧
    ∀ event ∈ events, event.isBound w.primary.inTransaction = false

theorem World.within_silent (hdepth : w'.depth = w.depth)
    (hopen : w'.primary.inTransaction = w.primary.inTransaction) (hjournal : w'.journal = w.journal) : w.Within w' :=
  ⟨hdepth, hopen, [], by rw [hjournal, List.append_nil], fun _ hmem => absurd hmem List.not_mem_nil⟩

theorem World.Within.trans (h : w.Within w') (h' : w'.Within w'') : w.Within w'' := by
  obtain ⟨events, hevents, hbound⟩ := h.journal
  obtain ⟨events', hevents', hbound'⟩ := h'.journal
  refine ⟨h'.depth.trans h.depth, h'.inTransaction.trans h.inTransaction, events ++ events', ?_, ?_⟩
  · rw [hevents', hevents, List.append_assoc]
  · rw [h.inTransaction] at hbound'
    exact List.forall_mem_append.2 ⟨hbound, hbound'⟩

instance : IsPreorder (World σ) World.Within where
  refl _ := World.within_silent rfl rfl rfl
  trans _ _ _ := World.Within.trans

theorem World.within_event {event : Event} (h : event.isBound w.primary.inTransaction = false) :
    w.Within { w with journal := w.journal ++ [event] } :=
  ⟨rfl, rfl, [event], rfl, List.forall_mem_singleton.2 h⟩

/-- A computation that stays within the bounds, whatever comes of it. -/
def Bounded (x : Session σ α) : Prop := ∀ w : World σ, w.Within (after x w)

theorem bounded_emit {event : Event} (h : ∀ opened, event.isBound opened = false) :
    Bounded (emit event : Session σ Unit) :=
  fun _ => World.within_event (h _)

theorem bounded_setLastKey (link : Link) (key : Value) : Bounded (setLastKey link key : Session σ Unit) := by
  intro w
  cases link <;> exact World.within_silent rfl rfl rfl

theorem bounded_outside (x : Effect σ α) : Bounded (outside x) := by
  intro w
  cases hx : x w.outside with
  | ok a s =>
      rw [after, outcome_outside_ok hx]
      exact World.within_silent rfl rfl rfl
  | error f s =>
      rw [after, outcome_outside_error hx]
      exact World.within_silent rfl rfl rfl

/-- What is only done outside of transactions may commit or roll back on a connection. -/
theorem bounded_ifOpen {link : Link} {x y : Session σ α} (hy : Bounded y)
    (hx : ∀ w : World σ, (w.link link).inTransaction = false → w.Within (after x w)) :
    Bounded (do if ← inTransaction link then y else x) := by
  intro w
  rw [after, outcome_inTransaction_bind]
  cases hopen : (w.link link).inTransaction with
  | true => exact hy w
  | false => exact hx w hopen

/-! ### Statements -/

namespace Connection

variable {d : Dialect} {link : Link} {sql : String} {params : List Value}

/-- Outside of transactions a commit or a rollback on the connection is the end of a statement. -/
theorem isBound_wire {opened : Bool} {call : WireCall} (h : (w.link link).inTransaction = false)
    (hopened : opened = w.primary.inTransaction) : (Event.wire link call).isBound opened = false := by
  subst hopened
  cases link with
  | primary => cases call <;> first | exact h | rfl
  | replica => cases call <;> rfl
  | further number => cases call <;> rfl

theorem bounded_gather (c : Connection σ) (reply : Reply) : Bounded (c.gather reply) := by
  unfold gather
  split
  · exact leads_bind (leads_settle _) fun _ => leads_pure _
  · exact leads_bind (bounded_outside _) fun _ => leads_bind (leads_settle _) fun _ => leads_pure _

theorem bounded_ask (c : Connection σ) (link : Link) (sql : String) (params : List Value) :
    Bounded (c.ask link sql params) := by
  refine leads_bind (bounded_emit fun _ => ?_) fun _ => leads_bind (bounded_outside _) fun reply =>
    leads_bind (bounded_gather c reply) fun result => ?_
  · cases link <;> rfl
  · split
    · exact leads_bind (bounded_setLastKey link _) fun _ => leads_pure _
    · exact leads_pure _

theorem bounded_publish (c : Connection σ) (link : Link) : Bounded (c.publish link) := by
  refine bounded_ifOpen (leads_pure _) fun w hclosed => ?_
  have hunbound : (Event.wire link .commit).isBound w.primary.inTransaction = false := isBound_wire hclosed rfl
  have hevent := World.within_event hunbound
  exact hevent.trans (bounded_outside c.commit _)

theorem within_undo (c : Connection σ) {link : Link} {w : World σ} (hclosed : (w.link link).inTransaction = false) :
    w.Within (after (c.undo link) w) := by
  have hunbound : (Event.wire link .rollback).isBound w.primary.inTransaction = false := isBound_wire hclosed rfl
  have hevent := World.within_event hunbound
  rw [after, undo, outcome_emit_bind, ← after]
  refine hevent.trans (leads_bind (leads_attempt (bounded_outside c.rollback)) (fun outcome => ?_) _)
  split
  · exact leads_pure _
  · split
    · exact leads_throw _
    · exact bounded_emit fun _ => rfl

theorem bounded_send (c : Connection σ) (link : Link) (sql : String) (params : List Value) :
    Bounded (c.send link sql params) := by
  rw [send_eq]
  exact leads_bind (bounded_ask c link sql params) fun _ => leads_bind (bounded_publish c link) fun _ =>
    leads_pure _

theorem bounded_runOnCursor (d : Dialect) (c : Connection σ) (link : Link) (sql : String) (params : List Value) :
    Bounded (c.runOnCursor d link sql params) := by
  have hrun : Bounded (c.run d link sql params) := by
    refine leads_bind (leads_attempt (bounded_send c link sql params)) fun outcome => ?_
    split
    · exact leads_pure _
    · split
      · exact leads_throw _
      · -- the failed statement is rolled back only if no transaction is open, where that is none of its bounds
        refine bounded_ifOpen (leads_throw _) fun w hclosed => ?_
        rw [after, outcome_bind]
        cases ending (c.undo link) w with
        | ok _ => exact (within_undo c hclosed).trans (leads_throw _ _)
        | error _ => exact within_undo c hclosed
  have hcall : ∀ {call : WireCall}, call = .cursor ∨ call = .close →
      Bounded (emit (.wire link call) : Session σ Unit) := by
    rintro call (rfl | rfl) <;> exact bounded_emit fun _ => by cases link <;> rfl
  have hclose : Bounded (do
      emit (.wire link .close)
      outside c.close) := leads_bind (hcall (.inr rfl)) fun _ => bounded_outside c.close
  exact leads_bind (hcall (.inl rfl)) fun _ => leads_bind (bounded_outside c.cursor) fun _ =>
    leads_ensuring hrun hclose

end Connection

namespace Driver

variable {d : Dialect} {link : Link}

theorem bounded_prepare (sql : String) (driver : Driver σ) : Bounded (driver.prepare d link sql) := by
  cases driver with
  | port p =>
      exact leads_bind (bounded_emit fun _ => rfl) fun _ => leads_bind (bounded_outside _) fun _ => leads_pure _
  | connection c =>
      intro w
      rw [after, outcome_prepare_connection]
      exact World.within_silent rfl rfl rfl

theorem bounded_execute (statement : Prepared) (params : List Value) (driver : Driver σ) :
    Bounded (driver.execute d link statement params) := by
  cases driver with
  | port p => exact leads_bind (bounded_emit fun _ => rfl) fun _ => bounded_outside _
  | connection c => exact Connection.bounded_runOnCursor d c link statement.sql params

end Driver

namespace Database

/-- The way of a statement keeps within the bounds of the transaction. -/
theorem sends_within (db : Database σ) (link : Link) : db.Sends link fun x => Leads World.Within x where
  toSequences := sequences_leads _
  hooked hk := leads_bind leads_get fun _ => hk _ _
  told {event} h := bounded_emit fun opened => by cases event <;> simp_all [Event.isTold, Event.isBound]
  prepare sql := Driver.bounded_prepare sql _
  execute statement params := Driver.bounded_execute statement params _

end Database

/-! ### Work -/

/-- A unit of work with an outcome. Outcomes are handed on as they are, so that a step may catch the failure of the one
before it. A statement is what reaches the driver; `aside` stands for all that callers and layers do besides statements and
transactions. -/
inductive Work (σ : Type) : Type → Type 1 where
  | done {α : Type} (outcome : Except Failure α) : Work σ α
  | aside {α β : Type} (x : Session σ β) (bounded : Bounded x) (next : Except Failure β → Work σ α) : Work σ α
  | statement {α : Type} (link : Link) (context : Context) (next : Except Failure Result → Work σ α) : Work σ α
  | transaction {α β : Type} (dry : Bool) (attempts : Value) (work : Work σ β) (next : Except Failure β → Work σ α) :
    Work σ α

namespace Work

/-- Work on a database. -/
def play (db : Database σ) {α : Type} : Work σ α → Session σ α
  | done outcome => settle outcome
  | aside x _ next => do
    let outcome ← attempt x
    (next outcome).play db
  | statement link context next => do
    let outcome ← attempt (db.core link context)
    (next outcome).play db
  | transaction dry attempts work next => do
    let outcome ← attempt (db.transaction dry attempts (work.play db))
    (next outcome).play db

end Work

/-- Inside a transaction work stays within its bounds, other transactions in it included. -/
theorem Work.within_play (db : Database σ) (work : Work σ α) :
    ∀ {w : World σ}, 0 < w.depth → w.Within (after (work.play db) w) := by
  induction work with
  | done outcome => exact fun _ => leads_settle outcome _
  | aside x bounded next ih =>
      intro w hdepth
      have hfirst := bounded w
      exact hfirst.trans (ih (ending x w) (hfirst.depth ▸ hdepth))
  | statement link context next ih =>
      intro w hdepth
      have hfirst := (db.sends_within link).core context w
      exact hfirst.trans (ih (ending (db.core link context) w) (hfirst.depth ▸ hdepth))
  | transaction dry attempts work next ihWork ih =>
      intro w hdepth
      -- inside a transaction this one is its own work, which the induction speaks of
      have hfirst : w.Within (after (db.transaction dry attempts (work.play db)) w) := by
        rw [after, Database.transaction_nested dry attempts (work.play db) hdepth]
        exact ihWork hdepth
      exact hfirst.trans (ih (ending (db.transaction dry attempts (work.play db)) w) (hfirst.depth ▸ hdepth))

end Polyquery
