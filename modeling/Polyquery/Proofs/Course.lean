import Polyquery.Proofs.Leads
import Polyquery.Proofs.Uniformity

/-! What goes on in a session: requests at the end of queries, texts of the caller's, and transactions around more of the
same, each step depending on what came of those before it. Main statement: what holds of the calls of handles, and of all
that is put together from them, holds of all that goes on through them. -/

namespace Polyquery

open Session Rehearsal

variable {σ α β : Type}

/-! ### Calls -/

/-- What holds of the lookups of columns, and of what is put together from them. -/
structure Database.Consults (db : Database σ) (P : ∀ {α : Type}, Session σ α → Prop) : Prop extends Sequences P where
  /-- Which columns are known, and whether a transaction is open, may be asked. -/
  read : ∀ {α : Type} {k : World σ → Session σ α},
    (∀ w v : World σ, w.columns = v.columns → w.depth = v.depth → k w = k v) → (∀ w, P (k w)) → P (get >>= k)
  remember : ∀ change : ColumnCache → ColumnCache, P (modify fun w => { w with columns := change w.columns })
  lookUp : ∀ table column, P (db.lookUpColumn table column)

/-- What holds of the calls of a database that the handles of a kind make, and of what is put together from them, of
transactions around it as well. -/
structure Database.Conducts (db : Database σ) (allowed : Handle → Prop) (P : ∀ {α : Type}, Session σ α → Prop) : Prop
    extends db.Consults P where
  run : ∀ {h : Handle} {s : Statement}, allowed h → s.IsTagged → ∀ table timeout, P (db.run h s table timeout)
  raw : ∀ {h : Handle}, allowed h → ∀ sql params, P (db.raw h sql params)
  lastKey : ∀ {h : Handle}, allowed h → ∀ r, P (db.lastKey h r)
  transaction : ∀ {h : Handle}, allowed h → ∀ {α : Type} {x : Session σ α} (attempts : Value), P x →
    P (db.transaction h.testMode attempts x)

/-- What holds of the calls of a database that the handles of a kind make, of where its transactions begin and end, and of
what is put together from them. -/
structure Database.Carries (db : Database σ) (allowed : Handle → Prop) (P : ∀ {α : Type}, Session σ α → Prop) : Prop
    extends db.Consults P where
  count : ∀ change : Nat → Nat, P (modify fun w => { w with depth := change w.depth })
  run : ∀ {h : Handle} {s : Statement}, allowed h → s.IsTagged → ∀ table timeout, P (db.run h s table timeout)
  raw : ∀ {h : Handle}, allowed h → ∀ sql params, P (db.raw h sql params)
  lastKey : ∀ {h : Handle}, allowed h → ∀ r, P (db.lastKey h r)
  start : ∀ {h : Handle}, allowed h → h.testMode = false → P (db.primary.start .primary)
  commit : ∀ {h : Handle}, allowed h → h.testMode = false → P db.commitOrRollBack
  rollback : ∀ {h : Handle}, allowed h → h.testMode = false → P db.rollBackQuietly
  wait : ∀ number f, P (db.waitAfter number f)

variable {db : Database σ} {allowed : Handle → Prop} {P : ∀ {α : Type}, Session σ α → Prop}

namespace Database.Consults

variable (C : db.Consults P)
include C

theorem hasColumn (table column : String) : P (db.hasColumn table column) := by
  refine C.read (fun w v hcolumns _ => by rw [hcolumns]) fun w => ?_
  split
  · exact C.settle (.ok _)
  · exact C.bind (C.lookUp _ _) fun found => C.bind (C.remember (·.put _ _ found)) fun _ => C.settle (.ok _)

theorem compiler (h : Handle) (table : String) : P (db.compiler h table) := by
  refine C.bind ?_ fun softDelete => C.settle (.ok _)
  unfold softDeleteFor?
  dsimp only
  split
  · refine C.bind (C.hasColumn _ _) fun found => ?_
    split <;> exact C.settle (.ok _)
  · exact C.settle (.ok _)

/-- Attempts with waits between them. -/
theorem tryAgain {dry : Bool} {x : Session σ α} (htry : P (db.tryOnce dry x))
    (hwait : ∀ number f, P (db.waitAfter number f)) (more : Nat) : ∀ number, P (db.tryAgain dry x more number) := by
  induction more with
  | zero => exact fun number => htry
  | succ more ih =>
      refine fun number => C.bind (C.attempt htry) fun outcome => ?_
      split
      · exact C.settle (.ok _)
      · split
        · exact C.bind (hwait _ _) fun _ => ih _
        · exact C.settle (.error _)

/-- A transaction is a row of attempts with waits between them. -/
theorem transaction {dry : Bool} {x : Session σ α} (hx : P x) (htry : P (db.tryOnce dry x))
    (hwait : ∀ number f, P (db.waitAfter number f)) (attempts : Value) : P (db.transaction dry attempts x) := by
  refine C.read (fun w v _ hdepth => by rw [hdepth]) fun w => ?_
  split
  · exact hx
  · refine C.bind (C.settle _) fun attempts => ?_
    split
    · exact C.settle (.error _)
    · refine C.bind (C.attempt (C.tryAgain htry hwait _ _)) fun outcome => ?_
      split
      · exact C.settle (.ok _)
      · exact C.settle (.error _)

end Database.Consults

/-- Lookups of columns keep what belongs to the session. -/
theorem Database.consults_keeps (db : Database σ) :
    db.Consults fun x =>
      Leads (World.Keeps fun event => ∃ table column, Event.OfLookup db.dialect table column event) x where
  toSequences := sequences_leads _
  read _ hk := leads_bind leads_get hk
  remember _ _ hw := World.kept_silent hw rfl (World.opened_eq rfl rfl rfl) rfl rfl rfl rfl
  lookUp table column :=
    (db.keeps_lookUpColumn table column).mono fun h hw => (h hw).mono fun _ hevent => ⟨table, column, hevent⟩

namespace Database.Carries

variable (C : db.Carries allowed P) {h : Handle} (hallowed : allowed h)
include C

include hallowed

theorem close (outcome : Except Failure α) : P (db.close h.testMode outcome) := by
  cases hmode : h.testMode with
  | true =>
      cases outcome with
      | ok a => exact C.settle (.ok a)
      | error f => exact C.settle (.error f)
  | false =>
      cases outcome with
      | ok a => exact C.bind (C.commit hallowed hmode) fun _ => C.settle (.ok a)
      | error f => exact C.bind (C.rollback hallowed hmode) fun _ => C.settle (.error f)

theorem tryOnce {x : Session σ α} (hx : P x) : P (db.tryOnce h.testMode x) := by
  have hwork : P (do
      modify fun w => { w with depth := w.depth + 1 }
      let outcome ← attempt x
      modify fun w => { w with depth := w.depth - 1 }
      db.close h.testMode outcome) :=
    C.bind (C.count (· + 1)) fun _ => C.bind (C.attempt hx) fun outcome =>
      C.bind (C.count (· - 1)) fun _ => C.close hallowed outcome
  cases hmode : h.testMode with
  | true =>
      rw [hmode] at hwork
      exact hwork
  | false =>
      rw [hmode] at hwork
      exact C.bind (C.start hallowed hmode) fun _ => hwork

omit hallowed in
/-- What is carried from the beginnings of transactions to their ends holds of transactions as a whole. -/
theorem conducts : db.Conducts allowed P where
  toConsults := C.toConsults
  run := C.run
  raw := C.raw
  lastKey := C.lastKey
  transaction hallowed _ _ attempts hx := C.transaction hx (C.tryOnce hallowed hx) C.wait attempts

end Database.Carries

/-- What a handle lets its queries do. -/
theorem Database.Conducts.access (C : db.Conducts allowed P) {h : Handle} (hallowed : allowed h) :
    (db.access h).Relates (db.noting h) (fun _ => True) (fun x _ => P x) where
  pure a := C.settle (.ok a)
  throw f := C.settle (.error f)
  bind := C.bind
  known_bind {_ _ o _ _} hk := by
    cases o with
    | ok a => exact hk a rfl
    | error f => exact C.settle (.error f)
  dialect := rfl
  compiler table hk := C.bind (C.compiler h table) fun c => hk c trivial
  hasColumn := C.hasColumn
  run _ habout := C.run hallowed habout.tagged _
  lastKey := C.lastKey hallowed
  transaction := C.transaction hallowed .null

/-! ### Courses -/

/-- A course of steps with an outcome, each through a handle of some kind. Outcomes are handed on as they are, so that a
step may catch the failure of the one before it. -/
inductive Course (allowed : Handle → Prop) : Type → Type 1 where
  | done {α : Type} (outcome : Except Failure α) : Course allowed α
  | query {α : Type} (h : Handle) (ok : allowed h) (q : Query) (e : Ending)
    (next : Except Failure Answer → Course allowed α) : Course allowed α
  | raw {α : Type} (h : Handle) (ok : allowed h) (sql : String) (params : List Value)
    (next : Except Failure Result → Course allowed α) : Course allowed α
  | transaction {α β : Type} (h : Handle) (ok : allowed h) (attempts : Value) (work : Course allowed β)
    (next : Except Failure β → Course allowed α) : Course allowed α

namespace Course

/-- A course on a database. -/
def play (db : Database σ) {α : Type} : Course allowed α → Session σ α
  | done outcome => settle outcome
  | query h _ q e next => do
    let outcome ← attempt (e.answer (db.access h) q)
    (next outcome).play db
  | raw h _ sql params next => do
    let outcome ← attempt (db.raw h sql params)
    (next outcome).play db
  | transaction h _ attempts work next => do
    let outcome ← attempt (db.transaction h.testMode attempts (work.play db))
    (next outcome).play db

/-- What a course submits. -/
def noted (db : Database σ) {α : Type} : Course allowed α → World σ → List Recorded
  | done _, _ => []
  | query h _ q e next, w =>
    let x := e.answer (db.access h) q
    (e.answer (db.noting h) q).notes w ++ (next (ending x w)).noted db (after x w)
  | raw h _ sql params next, w =>
    let x := db.raw h sql params
    ⟨sql, params⟩ :: (next (ending x w)).noted db (after x w)
  | transaction h _ attempts work next, w =>
    let x := db.transaction h.testMode attempts (work.play db)
    db.noted h.testMode attempts (work.play db) (work.noted db) w ++ (next (ending x w)).noted db (after x w)

/-- What holds of the calls of handles, and of transactions around it, holds of every course through them. -/
theorem conducted (C : db.Conducts allowed P) (course : Course allowed α) : P (course.play db) := by
  induction course with
  | done outcome => exact C.settle outcome
  | query h ok q e next ih => exact C.bind (C.attempt ((C.access ok).answer q e)) ih
  | raw h ok sql params next ih => exact C.bind (C.attempt (C.raw ok sql params)) ih
  | transaction h ok attempts work next ihWork ih => exact C.bind (C.attempt (C.transaction ok attempts ihWork)) ih

/-- What a database carries for the calls of handles holds of every course through them. -/
theorem carried (C : db.Carries allowed P) (course : Course allowed α) : P (course.play db) := course.conducted C.conducts

end Course

end Polyquery
