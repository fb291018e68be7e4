import Polyquery.Proofs.Answers
import Polyquery.Proofs.Level
import Polyquery.Proofs.Observation

/-! The links that statements are sent on. Main statement: where columns cannot be returned, a row is inserted on the primary
and read back where the handle sends its selections at the time. This is the replica, and not the link that the row was
inserted on, exactly if the handle is routed there, there is one, and no transaction is open. -/

namespace Polyquery

open Session Account

variable {σ : Type}

/-! ### Links of statements -/

/-- The link that a deed sends a statement on. -/
def Deed.link? : Deed → Option Link
  | refused link _ _ | prepared link _ | tuned link _ _ | executed link _ _ => some link
  | _ => none

/-- Deeds that send statements on one link only. -/
def Deed.StayOn (link : Link) (deeds : List Deed) : Prop := ∀ deed ∈ deeds, ∀ other, deed.link? = some other → other = link

theorem Deed.joins_stayOn (link : Link) : Joins (StayOn link) where
  nil := List.forall_mem_nil _
  append hfirst hrest := List.forall_mem_append.2 ⟨hfirst, hrest⟩
  outside {deed} h := by
    refine List.forall_mem_singleton.2 fun other hother => ?_
    cases deed with
    | refused | prepared | tuned | executed => cases h
    | _ => cases hother

namespace Account

variable {link : Link} {c : Context} {d : Dialect} {deeds : List Deed}

open Deed

theorem stayOn_of_ofTuning (h : ∀ deed ∈ deeds, OfTuning link deed) : StayOn link deeds := by
  intro deed hdeed other hother
  cases h deed hdeed <;> cases hother
  rfl

theorem Executes.stayOn {o : Except Failure Result} (h : Executes link c deeds o) : StayOn link deeds := by
  cases h <;> simp [StayOn, Deed.link?]

/-- Behind the innermost layer a context stays on its link. -/
theorem stayOn_of_performs {o : Except Failure Result} (h : Performs link c d deeds o) : StayOn link deeds := by
  have hjoins := joins_stayOn link
  have hprepared : StayOn link [Deed.passed link c, .prepared link c] := by simp [StayOn, Deed.link?]
  cases h with
  | refused hprepare =>
      cases hprepare
      simp [StayOn, Deed.link?]
  | unset hset => exact hjoins.append hprepared (stayOn_of_ofTuning hset.ofTuning)
  | unlifted hset hrun hlift | failed hset hrun hlift =>
      exact hjoins.append hprepared (hjoins.append (stayOn_of_ofTuning hset.ofTuning)
        (hjoins.append hrun.stayOn (stayOn_of_ofTuning hlift.ofTuning)))
  | @succeeded _ _ _ _ r event hset hrun hlift =>
      have htold : StayOn link [Deed.measured c r, .reported c, .logged event] := by simp [StayOn, Deed.link?]
      exact hjoins.append hprepared (hjoins.append (stayOn_of_ofTuning hset.ofTuning) (hjoins.append hrun.stayOn
        (hjoins.append (stayOn_of_ofTuning hlift.ofTuning) htold)))

end Account

namespace Database

variable (db : Database σ)

/-- Whatever layers do to a context, all that is sent for it goes over its link: contexts of their own they have no room to
submit. -/
theorem stayOn_runContext (link : Link) (readonly testMode : Bool) (c : Context) :
    Obeys db (fun deeds _ => Deed.StayOn link deeds) (db.runContext link readonly testMode c) := by
  have hjoins := Deed.joins_stayOn link
  refine (db.obeys_submitWithin 0 ⟨link, readonly, testMode, c⟩).mono fun h => hjoins.of_submits ?_ stayOn_of_performs h
  rintro s deeds o ⟨rfl, -⟩
  exact hjoins.nil

/-- The link that a handle sends an operation on, at a depth in transactions. -/
def linkOf (h : Handle) (operation : Operation) (depth : Nat) : Link :=
  if h.route = some "read" && db.replica.isSome && operation = .select && depth = 0 then .replica else .primary

/-- The access that a handle gives its queries if all of their statements go over one link. -/
def accessOn (link : Link) (h : Handle) : Access (Session σ) :=
  { db.access h with
    run := fun s table timeout => db.runContext link h.readonly h.testMode
      { sql := s.sql, params := s.params, operation := s.operation, table := some table, route := h.route, timeout } }

theorem outcome_run (h : Handle) (s : Statement) (table : String) (timeout : Option Int) (w : World σ) :
    outcome (db.run h s table timeout) w =
      outcome ((db.accessOn (db.linkOf h s.operation w.depth) h).run s table timeout) w := rfl

/-- Nothing but a selection leaves the primary. -/
theorem outcome_run_change {h : Handle} {s : Statement} (hs : s.operation ≠ .select) (table : String) (timeout : Option Int)
    (w : World σ) :
    outcome (db.run h s table timeout) w = outcome ((db.accessOn .primary h).run s table timeout) w := by
  have hlink : db.linkOf h s.operation w.depth = .primary := by simp [linkOf, hs]
  rw [outcome_run, hlink]

theorem level_compiler (h : Handle) (table : String) : Leads World.Level (db.compiler h table) :=
  db.consults_level.compiler h table

end Database

/-! ### Rows that are read back -/

namespace Query

variable {db : Database σ} {h : Handle} {q : Query} {w : World σ}

/-- Inserts a row through one access and reads it back through another. -/
def insertGetVia {m : Type → Type} [Monad m] [MonadExceptOf Failure m] (writer reader : Access m) (q : Query) (row : Row)
    (columns key : Value) : m (Option Row) := do
  let id ← insert writer q row key
  if id.isNull then pure none
  else
    let columns ← known columns.members
    let back ← known (addAll
      [.select columns, .see .withTrashed, .compare .and key (.text "=") (some id)] { table := q.table })
    first reader back

theorem perform_congr {link : Link} {compile : Compiler → Except Failure Statement}
    (hrun : ∀ c s v, compile c = .ok s → v.depth = w.depth →
      outcome ((db.access h).run s q.table q.timeout) v = outcome ((db.accessOn link h).run s q.table q.timeout) v) :
    outcome (perform (db.access h) q compile) w = outcome (perform (db.accessOn link h) q compile) w := by
  refine outcome_bind_congr rfl fun c _ => ?_
  have hdepth : (after (db.compiler h q.table) w).depth = w.depth := db.level_compiler h q.table w
  cases hs : compile c with
  | error f => rfl
  | ok s => exact hrun c s _ hs hdepth

/-- An insertion goes to the primary. -/
theorem outcome_insert (row : Row) (key : Value) :
    outcome (insert (db.access h) q row key) w = outcome (insert (db.accessOn .primary h) q row key) w := by
  refine outcome_bind_congr (x := keyFor (db.access h) q key) rfl fun key _ => ?_
  refine outcome_bind_congr (perform_congr fun c s v hs _ => ?_) fun _ _ => rfl
  obtain ⟨insertion, -, rfl⟩ := Compiler.insert_parts hs
  exact db.outcome_run_change (by simp) q.table q.timeout v

/-- Rows are selected where the handle sends its selections, which compiling does not change. -/
theorem outcome_first :
    outcome (first (db.access h) q) w = outcome (first (db.accessOn (db.linkOf h .select w.depth) h) q) w := by
  have hget : outcome (get (db.access h) { q with limit := some 1 }) w =
      outcome (get (db.accessOn (db.linkOf h .select w.depth) h) { q with limit := some 1 }) w := by
    refine outcome_bind_congr (perform_congr fun c s v hs hdepth => ?_) fun _ _ => rfl
    obtain ⟨selection, -, rfl⟩ := Compiler.select_parts hs
    rw [← hdepth]
    exact db.outcome_run h _ q.table q.timeout v
  exact outcome_bind_congr hget fun _ _ => rfl

/-- An insertion whose row is read back goes to the primary, and the row is read back where the handle sends its selections at
the time. This is another link than the primary exactly if the handle is routed to a replica, there is one, and no
transaction is open. Whatever goes over a link stays on it. -/
theorem insertGet_routed (db : Database σ) (h : Handle) (hreturning : db.dialect.hasReturning = false) (q : Query) (row : Row)
    (columns key : Value) (w : World σ) :
    let link := db.linkOf h .select w.depth
    outcome (insertGet (db.access h) q row columns key) w =
      outcome (insertGetVia (db.accessOn .primary h) (db.accessOn link h) q row columns key) w ∧
    (link ≠ .primary ↔ h.route = some "read" ∧ db.replica.isSome ∧ w.depth = 0) ∧
    ∀ link s table timeout, Obeys db (fun deeds _ => Deed.StayOn link deeds) ((db.accessOn link h).run s table timeout) := by
  intro link
  refine ⟨?_, ?_, fun link s table timeout => db.stayOn_runContext link _ _ _⟩
  · have hinserted : (after (insert (db.access h) q row key) w).depth = w.depth :=
      ((db.conducts_level (fun _ => True)).access (h := h) trivial).insert q row key w
    have hknown : ∀ {α : Type} (o : Except Failure α) (v : World σ), after (known o) v = v :=
      fun o v => congrArg Prod.snd (outcome_known o v)
    have hvia : insertGet (db.access h) q row columns key =
        insertGetVia (db.access h) (db.access h) q row columns key := by
      have hnone : ¬ (db.access h).dialect.hasReturning = true := by
        rw [show (db.access h).dialect = db.dialect from rfl, hreturning]
        exact Bool.false_ne_true
      exact if_neg hnone
    rw [hvia]
    refine outcome_bind_congr (outcome_insert row key) fun id _ => ?_
    by_cases hid : id.isNull = true
    · rw [if_pos hid, if_pos hid]
    · rw [if_neg hid, if_neg hid]
      refine outcome_bind_congr rfl fun columns _ => outcome_bind_congr rfl fun back _ => ?_
      rw [hknown, hknown, outcome_first, hinserted]
  · unfold link Database.linkOf
    split <;> simp_all

end Query

/-! ### A replica that is behind -/

/-- The link of a statement that a driver of the caller's executes. -/
def Event.executedOn? : Event → Option Link
  | .driver link (.execute _ _) => some link
  | _ => none

/-- A driver that executes what it is asked to, and nothing else. -/
def Port.executing (execute : List Value → Result) : Port Unit where
  prepare _ := pure ()
  execute _ params := pure (execute params)
  lastKey := pure .null
  start := pure ()
  commit := pure ()
  rollback := pure ()

/-- A database with a replica that has seen none of its rows. The primary has the row with the key that it generates. -/
def Database.replicated : Database Unit where
  settings := {}
  dialect := .sqlite
  primary := .port (.executing fun
    | [.int 5] => { rows := [[(.text "id", .int 5)]], rowcount := .int 1 }
    | _ => { rowcount := .int 1, lastKey := .int 5 })
  replica := some (.port (.executing fun _ => {}))
  moment := ⟨2024, 1, 1, 0, 0, 0⟩
  chance := .ofInt 0

namespace Query

/-- Without a route a row is read back from the primary. -/
theorem insertGet_routed_primary :
    let x := insertGet (Database.replicated.access {}) { table := "users" } [(.text "name", .text "A")] everyColumn (.text "id")
    let w : World Unit := { outside := () }
    outcome x w = outcome (insertGetVia (Database.replicated.accessOn .primary {}) (Database.replicated.accessOn .primary {})
      { table := "users" } [(.text "name", .text "A")] everyColumn (.text "id")) w ∧
    (ending x w).toOption.map Option.isSome = some true ∧
    (after x w).journal.filterMap Event.executedOn? = [.primary, .primary] := by
  intro x w
  obtain ⟨hrouted, hlink, -⟩ := insertGet_routed Database.replicated {} rfl { table := "users" }
    [(.text "name", .text "A")] everyColumn (.text "id") w
  exact ⟨hrouted, by decide +kernel, by decide +kernel⟩

/-- Where selections are routed to the replica, a row that was inserted is not found when it is read back, though it is on the
primary. -/
theorem insertGet_unfound :
    let h : Handle := { route := some "read" }
    let x := insertGet (Database.replicated.access h) { table := "users" } [(.text "name", .text "A")] everyColumn (.text "id")
    let w : World Unit := { outside := () }
    (ending x w).toOption.map Option.isSome = some false ∧
    (after x w).journal.filterMap Event.executedOn? = [.primary, .replica] ∧
    (ending (insertGetVia (Database.replicated.accessOn .primary h) (Database.replicated.accessOn .primary h)
      { table := "users" } [(.text "name", .text "A")] everyColumn (.text "id")) w).toOption.map Option.isSome = some true := by
  refine ⟨?_, ?_, ?_⟩ <;> decide +kernel

end Query

end Polyquery
