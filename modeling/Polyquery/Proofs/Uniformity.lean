import Polyquery.Proofs.Attempts
import Polyquery.Proofs.Compiled
import Polyquery.Proofs.Outcome
import Polyquery.Rehearsal.Ending
import Polyquery.Session.Access

/-! What queries can be asked at their ends is made of what an access does. Beside a session stands one that notes the
statements that it submits, and the same requests go through both. Main statement: what relates the calls of two
accesses, and is handed on from step to step, relates all requests through them; and all that is submitted counts as what
it is, and is about the table that it is submitted for. -/

namespace Polyquery

open Sql Session Rehearsal

variable {σ α β : Type} {c : Compiler} {q : Query} {s : Statement}

/-! ### Operations that statements count as -/

/-- Whether an operation changes rows. -/
def Operation.isChange : Operation → Bool
  | insert | update | delete | upsert => true
  | select | raw => false

/-- Whether a statement says to change rows. -/
def Statement.changes (s : Statement) : Bool :=
  match s.command with
  | .select _ => false
  | _ => true

/-- Whether a statement that says to change rows counts as a change. -/
def Statement.IsChange (s : Statement) : Prop := s.changes = true ∧ s.operation.isChange = true

/-- Whether a statement counts as what it is: as a change, or as a selection. -/
def Statement.IsTagged (s : Statement) : Prop := s.IsChange ∨ s.changes = false ∧ s.operation = .select

theorem Statement.IsChange.tagged (h : s.IsChange) : s.IsTagged := .inl h

namespace Compiler

theorem select_tagged (h : c.select q = .ok s) : s.IsTagged := by
  obtain ⟨selection, -, rfl⟩ := select_parts h
  exact .inr ⟨rfl, rfl⟩

/-- An insertion is a change, also as a part of an upsert. -/
theorem insert_change {name : String} {rows : List Row} {returning : Value} (h : c.insert name rows returning = .ok s) :
    s.IsChange ∧ { s with operation := .upsert }.IsChange := by
  obtain ⟨insertion, -, rfl⟩ := insert_parts h
  exact ⟨⟨rfl, rfl⟩, rfl, rfl⟩

theorem upsert_change {name : String} {row : Row} {conflict update : Value}
    (h : c.upsert name row conflict update = .ok s) : s.IsChange := by
  obtain ⟨-, columns, insertion, clause, -, -, -, rfl⟩ := upsert_parts h
  exact ⟨rfl, rfl⟩

theorem update_change {values : Row} {operation : Operation} (h : c.update q values operation = .ok s)
    (hchange : operation.isChange = true) : s.IsChange := by
  obtain ⟨-, assignments, condition, -, -, rfl⟩ := update_parts h
  exact ⟨rfl, hchange⟩

theorem remove_change {visibility : Visibility} (h : c.remove q visibility = .ok s) : s.IsChange := by
  obtain ⟨condition, -, rfl⟩ := remove_parts h
  exact ⟨rfl, rfl⟩

theorem delete_change {force : Bool} (h : c.delete q force = .ok s) : s.IsChange := by
  rcases delete_cases h with ⟨soft, -, -, hmark⟩ | ⟨-, -, hremove⟩ | ⟨-, hremove⟩
  · exact update_change hmark rfl
  · exact remove_change hremove
  · exact remove_change hremove

theorem restore_change (h : c.restore q = .ok (some s)) : s.IsChange := by
  obtain ⟨soft, -, hmark⟩ := restore_parts h
  exact update_change hmark rfl

theorem jsonUpdate_change {column : Value} {values : Row} (h : c.jsonUpdate q column values = .ok s) : s.IsChange := by
  obtain ⟨-, name, expression, condition, -, -, -, rfl⟩ := jsonUpdate_parts h
  exact ⟨rfl, rfl⟩

end Compiler

/-! ### The tables that statements are about -/

/-- The table that a command reads from or writes to, with its prefix. Tables that it joins are not meant. -/
def Sql.Command.target : Command → String
  | .select selection => selection.table
  | .insert insertion => insertion.table
  | .update change => change.table
  | .delete removal => removal.table

/-- Whether a statement reads from a table or writes to it, and counts as what it is: one that counts as a selection was
compiled as one. -/
structure Statement.IsAbout (s : Statement) (table : String) : Prop where
  tagged : s.IsTagged
  target : s.command.target = table
  selected : s.operation = .select → ∃ c q, Compiler.select c q = .ok s

/-- A change is about its table. -/
theorem Statement.IsChange.about (h : s.IsChange) {table : String} (htarget : s.command.target = table) :
    s.IsAbout table := by
  refine ⟨h.tagged, htarget, fun hselect => ?_⟩
  have hchange := h.2
  rw [hselect] at hchange
  cases hchange

namespace Compiler

theorem select_about (h : c.select q = .ok s) : s.IsAbout (c.table q.table) := by
  refine ⟨select_tagged h, ?_, fun _ => ⟨c, q, h⟩⟩
  obtain ⟨selection, hselects, rfl⟩ := select_parts h
  exact hselects.table

theorem insertion_table {name : String} {rows : List Row} {returning : Value} {insertion : Insertion}
    (h : c.insertion name rows returning = .ok insertion) : insertion.table = c.table name := by
  obtain ⟨columns, names, answered, -, -, -, rfl⟩ := insertion_parts h
  rfl

/-- An insertion is about its table, also as a part of an upsert. -/
theorem insert_about {name : String} {rows : List Row} {returning : Value} (h : c.insert name rows returning = .ok s) :
    s.IsAbout (c.table name) ∧ { s with operation := .upsert }.IsAbout (c.table name) := by
  obtain ⟨hchange, hupsert⟩ := insert_change h
  obtain ⟨insertion, hinsertion, rfl⟩ := insert_parts h
  exact ⟨hchange.about (insertion_table hinsertion), hupsert.about (insertion_table hinsertion)⟩

theorem upsert_about {name : String} {row : Row} {conflict update : Value}
    (h : c.upsert name row conflict update = .ok s) : s.IsAbout (c.table name) := by
  refine (upsert_change h).about ?_
  obtain ⟨-, columns, insertion, clause, -, hinsertion, -, rfl⟩ := upsert_parts h
  have htable := insertion_table hinsertion
  exact htable

theorem update_about {values : Row} {operation : Operation} (h : c.update q values operation = .ok s)
    (hchange : operation.isChange = true) : s.IsAbout (c.table q.table) := by
  refine (update_change h hchange).about ?_
  obtain ⟨-, assignments, condition, -, -, rfl⟩ := update_parts h
  rfl

theorem remove_about {visibility : Visibility} (h : c.remove q visibility = .ok s) : s.IsAbout (c.table q.table) := by
  refine (remove_change h).about ?_
  obtain ⟨condition, -, rfl⟩ := remove_parts h
  rfl

theorem delete_about {force : Bool} (h : c.delete q force = .ok s) : s.IsAbout (c.table q.table) := by
  rcases delete_cases h with ⟨soft, -, -, hmark⟩ | ⟨-, -, hremove⟩ | ⟨-, hremove⟩
  · exact update_about hmark rfl
  · exact remove_about hremove
  · exact remove_about hremove

theorem restore_about (h : c.restore q = .ok (some s)) : s.IsAbout (c.table q.table) := by
  obtain ⟨soft, -, hmark⟩ := restore_parts h
  have habout := update_about hmark rfl
  exact habout

theorem jsonUpdate_about {column : Value} {values : Row} (h : c.jsonUpdate q column values = .ok s) :
    s.IsAbout (c.table q.table) := by
  refine (jsonUpdate_change h).about ?_
  obtain ⟨-, name, expression, condition, -, -, -, rfl⟩ := jsonUpdate_parts h
  rfl

end Compiler

/-- The row that an upsert may find is looked for in its table. -/
theorem Query.conflictQuery_table {table : String} {row : Row} {conflict : List Value}
    (h : conflictQuery table row conflict = .ok q) : q.table = table := by
  obtain ⟨filters, -, hq⟩ := bind_eq_ok.1 h
  cases hq
  rfl

/-! ### Sessions that take notes -/

/-- A session with a note of the statements that it submits from each world. -/
structure Noting (σ α : Type) where
  session : Session σ α
  notes : World σ → List Recorded

/-- What is submitted behind a computation: what follows its answer submits, and nothing behind a failure. -/
def Session.notedBehind (x : Session σ α) (next : α → World σ → List Recorded) (w : World σ) : List Recorded :=
  match ending x w with
  | .ok a => next a (after x w)
  | .error _ => []

/-- What is submitted behind a computation that fails. -/
def Session.notedCatching (x : Session σ α) (next : Failure → World σ → List Recorded) (w : World σ) : List Recorded :=
  match ending x w with
  | .ok _ => []
  | .error f => next f (after x w)

namespace Noting

instance : Monad (Noting σ) where
  pure a := ⟨pure a, fun _ => []⟩
  bind x k := ⟨x.session >>= fun a => (k a).session, fun w => x.notes w ++ notedBehind x.session (fun a => (k a).notes) w⟩

instance : MonadExceptOf Failure (Noting σ) where
  throw f := ⟨throw f, fun _ => []⟩
  tryCatch x handle :=
    ⟨tryCatch x.session fun f => (handle f).session,
      fun w => x.notes w ++ notedCatching x.session (fun f => (handle f).notes) w⟩

/-- A session that submits nothing. -/
def quietly (x : Session σ α) : Noting σ α := ⟨x, fun _ => []⟩

end Noting

/-- A statement as it is recorded. -/
def Statement.recorded (s : Statement) : Recorded := ⟨s.sql, s.params⟩

namespace Database

/-- What is submitted by the attempts at a unit of work, the first with the given number and up to `more` after it. -/
def notedAgain (db : Database σ) (dry : Bool) (work : Session σ α) (notes : World σ → List Recorded) :
    Nat → Nat → World σ → List Recorded
  | 0, _, w => notes (db.begin dry w)
  | more + 1, number, w =>
    notes (db.begin dry w) ++ notedCatching (db.tryOnce dry work) (fun f w =>
      if db.isRetryable f then
        notedBehind (db.waitAfter number f) (fun _ => db.notedAgain dry work notes more (number + 1)) w
      else []) w

/-- What is submitted by a unit of work as a transaction. -/
def noted (db : Database σ) (dry : Bool) (attempts : Value) (work : Session σ α) (notes : World σ → List Recorded)
    (w : World σ) : List Recorded :=
  if 0 < w.depth then notes w
  else match db.settings.retry.attemptsFrom attempts with
    | .ok n => if n < 1 then [] else db.notedAgain dry work notes (n.toNat - 1) 1 w
    | .error _ => []

/-- What a handle lets its queries do, with a note of every statement that they run. -/
def noting (db : Database σ) (h : Handle) : Access (Noting σ) where
  dialect := db.dialect
  compiler table := .quietly (db.compiler h table)
  hasColumn table column := .quietly (db.hasColumn table column)
  run s table timeout := ⟨db.run h s table timeout, fun _ => [s.recorded]⟩
  lastKey r := .quietly (db.lastKey h r)
  transaction x := ⟨db.transaction h.testMode .null x.session, db.noted h.testMode .null x.session x.notes⟩

end Database

/-! ### Requests -/

/-- What relates computations one after the other if it relates each, and the calls of two accesses whose compilers are of a
kind. -/
structure Access.Relates {m n : Type → Type} [Monad m] [MonadExceptOf Failure m] [Monad n] [MonadExceptOf Failure n]
    (db : Access m) (db' : Access n) (kind : Compiler → Prop) (P : ∀ {α : Type}, m α → n α → Prop) : Prop where
  pure : ∀ {α : Type} (a : α), P (pure a : m α) (pure a)
  throw : ∀ {α : Type} (f : Failure), P (throw f : m α) (throw f)
  bind : ∀ {α β : Type} {x : m α} {y : n α} {k : α → m β} {l : α → n β},
    P x y → (∀ a, P (k a) (l a)) → P (x >>= k) (y >>= l)
  known_bind : ∀ {α β : Type} {o : Except Failure α} {k : α → m β} {l : α → n β},
    (∀ a, o = .ok a → P (k a) (l a)) → P (Query.known o >>= k) (Query.known o >>= l)
  dialect : db'.dialect = db.dialect
  compiler : ∀ {α : Type} {k : Compiler → m α} {l : Compiler → n α} (table : String),
    (∀ c, kind c → P (k c) (l c)) → P (db.compiler table >>= k) (db'.compiler table >>= l)
  hasColumn : ∀ table column, P (db.hasColumn table column) (db'.hasColumn table column)
  run : ∀ {c : Compiler} {s : Statement} {table : String}, kind c → s.IsAbout (c.table table) → ∀ timeout,
    P (db.run s table timeout) (db'.run s table timeout)
  lastKey : ∀ r, P (db.lastKey r) (db'.lastKey r)
  transaction : ∀ {x : m Value} {y : n Value}, P x y → P (db.transaction x) (db'.transaction y)

namespace Access.Relates

variable {m n : Type → Type} [Monad m] [MonadExceptOf Failure m] [Monad n] [MonadExceptOf Failure n]
  {db : Access m} {db' : Access n} {kind : Compiler → Prop} {P : ∀ {α : Type}, m α → n α → Prop}
  (U : db.Relates db' kind P)
include U

theorem known (o : Except Failure α) : P (Query.known o) (Query.known o) := by
  cases o with
  | ok a => exact U.pure a
  | error f => exact U.throw f

theorem perform {compile : Compiler → Except Failure Statement} {q : Query}
    (habout : ∀ {c s}, compile c = .ok s → s.IsAbout (c.table q.table)) :
    P (Query.perform db q compile) (Query.perform db' q compile) :=
  U.compiler q.table fun _ hkind => U.known_bind fun _ hs => U.run hkind (habout hs) q.timeout

theorem get (q : Query) : P (Query.get db q) (Query.get db' q) :=
  U.bind (U.perform Compiler.select_about) fun _ => U.pure _

theorem first (q : Query) : P (Query.first db q) (Query.first db' q) := U.bind (U.get _) fun _ => U.pure _

theorem aggregate (q : Query) (expression label : String) :
    P (Query.aggregate db q expression label) (Query.aggregate db' q expression label) :=
  U.bind (U.get _) fun _ => U.pure _

theorem count (q : Query) : P (Query.count db q) (Query.count db' q) :=
  U.bind (U.aggregate q _ _) fun _ => U.known _

theorem aggregateOf (q : Query) (function : String) (column : Value) (label : String) :
    P (Query.aggregateOf db q function column label) (Query.aggregateOf db' q function column label) := by
  unfold Query.aggregateOf
  rw [U.dialect]
  exact U.known_bind fun _ _ => U.aggregate q _ _

theorem insert (q : Query) (row : Row) (key : Value) : P (Query.insert db q row key) (Query.insert db' q row key) := by
  have hkey : P (Query.keyFor db q key) (Query.keyFor db' q key) := by
    unfold Query.keyFor
    rw [U.dialect]
    split
    · refine U.bind (U.hasColumn _ _) fun found => ?_
      cases found <;> exact U.pure _
    · exact U.pure _
  refine U.bind hkey fun key => U.bind (U.perform fun h => (Compiler.insert_about h).1) fun result => ?_
  cases key.isTruthy with
  | false => exact U.lastKey _
  | true =>
      cases result.rows with
      | nil => exact U.lastKey _
      | cons row rows =>
          dsimp only
          split
          · exact U.pure _
          · exact U.throw _

theorem insertGet (q : Query) (row : Row) (columns key : Value) :
    P (Query.insertGet db q row columns key) (Query.insertGet db' q row columns key) := by
  unfold Query.insertGet
  rw [U.dialect]
  split
  · exact U.bind (U.perform fun h => (Compiler.insert_about h).1) fun _ => U.pure _
  · refine U.bind (U.insert q row key) fun id => ?_
    split
    · exact U.pure _
    · exact U.known_bind fun _ _ => U.known_bind fun _ _ => U.first _

theorem restore (q : Query) : P (Query.restore db q) (Query.restore db' q) := by
  refine U.compiler q.table fun c hkind => U.known_bind fun statement hs => ?_
  cases statement with
  | none => exact U.pure _
  | some s => exact U.bind (U.run hkind (Compiler.restore_about hs) _) fun _ => U.pure _

theorem upsertInSteps (q : Query) (row : Row) (conflict columns : List Value) :
    P (Query.upsertInSteps db q row conflict columns) (Query.upsertInSteps db' q row conflict columns) := by
  refine U.compiler q.table fun c hkind => U.known_bind fun found hfound => U.known_bind fun counting hcounting => ?_
  have htable := Query.conflictQuery_table hfound
  have habout := Compiler.select_about hcounting
  rw [show ({ found with columns := [.text "COUNT(1) AS c"] } : Query).table = q.table from htable] at habout
  refine U.bind (U.run hkind habout _) fun counted => U.known_bind fun isThere _ => ?_
  cases isThere with
  | true =>
      refine U.known_bind fun s hs => U.bind (U.run hkind ?_ _) fun _ => U.pure _
      rw [← htable]
      exact Compiler.update_about hs rfl
  | false =>
      refine U.known_bind fun s hs => ?_
      obtain ⟨s', hinsert, rfl⟩ := map_eq_ok.1 hs
      exact U.bind (U.run hkind (Compiler.insert_about hinsert).2 _) fun _ => U.pure _

theorem upsert (q : Query) (row : Row) (conflict update : Value) :
    P (Query.upsert db q row conflict update) (Query.upsert db' q row conflict update) := by
  unfold Query.upsert
  rw [U.dialect]
  refine U.known_bind fun columns _ => ?_
  split
  · exact U.bind (U.perform Compiler.upsert_about) fun _ => U.pure _
  · exact U.known_bind fun conflict _ => U.transaction (U.upsertInSteps q row conflict columns)

/-- Every request is made of what an access does. -/
theorem answer (q : Query) (e : Ending) : P (e.answer db q) (e.answer db' q) := by
  have htold : ∀ {α : Type} {x : m α} {y : n α} {tell : α → Answer}, P x y →
      P (do return tell (← x)) (do return tell (← y)) := fun hx => U.bind hx fun _ => U.pure _
  have hchange : ∀ {compile : Compiler → Except Failure Statement},
      (∀ {c s}, compile c = .ok s → s.IsAbout (c.table q.table)) →
      P (do return (← Query.perform db q compile).rowcount) (do return (← Query.perform db' q compile).rowcount) :=
    fun habout => U.bind (U.perform habout) fun _ => U.pure _
  cases e with
  | statement => exact htold (U.compiler _ fun _ _ => U.known _)
  | state => exact U.pure _
  | rows => exact htold (U.get q)
  | firstRow => exact htold (U.first q)
  | existence => exact htold (U.bind (U.count q) fun _ => U.pure _)
  | count => exact htold (U.count q)
  | sum column => exact htold (U.bind (U.aggregateOf q _ column _) fun _ => U.pure _)
  | average column => exact htold (U.aggregateOf q _ column _)
  | least column => exact htold (U.aggregateOf q _ column _)
  | greatest column => exact htold (U.aggregateOf q _ column _)
  | pluck column key =>
      have hcells : P (Query.pluck db q column) (Query.pluck db' q column) :=
        U.bind (U.get _) fun _ => U.known_bind fun _ _ => U.pure _
      have hentries : ∀ key, P (Query.pluckBy db q column key) (Query.pluckBy db' q column key) := fun key =>
        U.bind (U.get _) fun _ => U.known_bind fun _ _ => U.known_bind fun _ _ => U.known _
      cases key with
      | null => exact htold hcells
      | _ => exact htold (hentries _)
  | page cursor key =>
      have hpage : P (Query.keysetPage db q cursor key) (Query.keysetPage db' q cursor key) := by
        refine U.known_bind fun projected _ => U.known_bind fun name _ => ?_
        split
        · exact U.bind (U.get _) fun _ => U.pure _
        · exact U.throw _
      exact htold hpage
  | insert row key => exact htold (U.insert q row key)
  | insertMany rows =>
      have hinsert : P (Query.insertMany db q rows) (Query.insertMany db' q rows) := by
        unfold Query.insertMany
        split
        · exact U.pure _
        · exact hchange fun h => (Compiler.insert_about h).1
      exact htold hinsert
  | insertGet row columns key => exact htold (U.insertGet q row columns key)
  | update values => exact htold (hchange fun h => Compiler.update_about h rfl)
  | delete forced => exact htold (hchange Compiler.delete_about)
  | restore => exact htold (U.restore q)
  | upsert row conflict columns => exact htold (U.upsert q row conflict columns)
  | jsonUpdate column values => exact htold (hchange Compiler.jsonUpdate_about)

end Access.Relates

end Polyquery
