import Polyquery.Proofs.Answers
import Polyquery.Proofs.LeadingWord
import Polyquery.Proofs.Passing

/-! Sessions in readonly mode. Statements that count as changes are declined before a layer or a driver sees them. Main
statement: whatever goes on through handles in readonly mode, no statement that a driver executes begins like a change;
requests that change rows fail unless there is nothing to change; and what was declined is not tried again. -/

namespace Polyquery

open Session Rehearsal

variable {σ α β : Type} {db : Database σ} {h : Handle}

/-- Changes are told from selections by the word that they begin with. -/
theorem Statement.changes_eq (s : Statement) : s.changes = (Context.leadingWord? s.sql).any writeVerbs.contains := by
  rw [leadingWord?_sql, changes]
  cases s.command <;> rfl

/-! ### Events -/

/-- Whether an event executes, if anything, a text that reads. -/
def Event.IsRead (event : Event) : Prop := ∀ sent, event.executed? = some sent → Context.IsRead sent.1

theorem Event.isRead_of_none {event : Event} (h : event.executed? = none) : event.IsRead := by
  intro sent hsent
  rw [h] at hsent
  cases hsent

theorem Event.OfStatement.isRead {link : Link} {sql : String} {params : List Value} (h : Context.IsRead sql) {event : Event}
    (hevent : Event.OfStatement link sql params event) : event.IsRead := by
  intro sent hsent
  rw [hevent.eq_of_executed hsent]
  exact h

/-- What a step does that starts with layers which let contexts through: they stay such, and what is executed reads. -/
def World.Safely (w w' : World σ) : Prop :=
  w.Passing → w'.Passing ∧ ∃ events, w'.journal = w.journal ++ events ∧ ∀ event ∈ events, event.IsRead

instance : IsPreorder (World σ) World.Safely := inferInstanceAs (IsPreorder (World σ) (World.Relays Event.IsRead))

/-! ### Statements that read -/

namespace Database

/-- A context that reads reaches the driver as it is, if it reaches it, between time limits that read. -/
theorem safely_runContext {c : Context} (hread : Context.IsRead c.sql) (link : Link) (readonly testMode : Bool) :
    Leads World.Safely (db.runContext link readonly testMode c) := by
  have htuning : ∀ sql, (db.dialectOf link).Tunes c.timeout sql →
      ∀ event, Event.OfStatement link sql [] event → event.IsRead := by
    rintro sql ⟨milliseconds, -, happly | hlift⟩ event hevent
    · exact hevent.isRead (Dialect.isRead_applied happly)
    · exact hevent.isRead (Dialect.isRead_lifted hlift)
  exact relays_runContext Event.isRead_of_none (fun _ hevent => hevent.isRead hread) htuning readonly testMode

section

variable {sql : String} {params : List Value} {operation : Operation} {table : Option String} {timeout : Option Int}
  (hreadonly : h.readonly = true)
include hreadonly

/-- In readonly mode a statement that counts as a change is recorded and declined, and nothing else happens. -/
theorem outcome_runText_declined (w : World σ) :
    let c : Context := { sql, params, operation, table, route := h.route, timeout }
    c.isWrite = true → outcome (db.runText h sql params operation table timeout) w =
      (.error (Policy.reject c .readonlyMode), { w with recorder := w.recorder.record sql params }) := by
  intro c hwrite
  refine outcome_runText_rejected ?_
  rw [hreadonly, Policy.check, hwrite]
  rfl

/-- In readonly mode every statement is safe that counts as a change or begins like none. -/
theorem safely_runText
    (hsafe : Context.isWrite { sql, params, operation, table, route := h.route, timeout } = true ∨ Context.IsRead sql) :
    Leads World.Safely (db.runText h sql params operation table timeout) := by
  rcases hsafe with hwrite | hread
  · intro w
    rw [after, outcome_runText_declined hreadonly w hwrite]
    exact World.relays_silent (fun hw => ⟨hw.faithful, hw.layers, hw.chains⟩) rfl
  · have hlink : Leads World.Safely (db.linkFor h operation) := leads_bind leads_get fun _ => leads_pure _
    refine leads_bind hlink fun link => ?_
    exact safely_runContext (c := { sql, params, operation, table, route := h.route, timeout }) hread link _ _

end

theorem isWrite_of_change {c : Context} (h : c.operation.isChange = true) : c.isWrite = true := by
  rw [Context.isWrite]
  cases hoperation : c.operation <;> rw [hoperation] at h <;> first | rfl | cases h

/-- Handles in readonly mode execute no change. -/
theorem carries_safely (db : Database σ) : db.Carries (·.readonly = true) (fun x => Leads World.Safely x) := by
  refine carries_relays Event.isRead_of_none ?_ ?_ ?_ ?_
  · intro table column event hevent
    cases hevent with
    | queried h => exact h.isRead (Dialect.isRead_columnQuery _)
    | listed => exact Event.isRead_of_none rfl
    | reflected schema => exact Event.isRead_of_none rfl
  · exact fun sql hkey event hevent => hevent.isRead (Dialect.isRead_keyQuery hkey)
  · intro h s hreadonly htagged table timeout
    rcases htagged with hchange | ⟨hselects, -⟩
    · exact safely_runText hreadonly (.inl (isWrite_of_change hchange.2))
    · exact safely_runText hreadonly (.inr (s.changes_eq.symm.trans hselects))
  · intro h hreadonly sql params
    by_cases hread : Context.IsRead sql
    · exact safely_runText hreadonly (.inr hread)
    · exact safely_runText hreadonly (.inl (Bool.not_eq_false _ ▸ hread))

end Database

/-! ### Requests that write -/

/-- Whether a request is one to write. -/
def Rehearsal.Ending.isWrite : Ending → Bool
  | insert .. | insertMany _ | insertGet .. | update _ | delete _ | restore | upsert .. | jsonUpdate .. => true
  | _ => false

section

variable (hreadonly : h.readonly = true) (q : Query)
include hreadonly

theorem fails_run {s : Statement} (hchange : s.IsChange) (table : String) (timeout : Option Int) :
    Fails (db.run h s table timeout) := by
  intro w r hr
  have hdeclined : ending (db.run h s table timeout) w = .error _ :=
    congrArg Prod.fst (Database.outcome_runText_declined hreadonly w (Database.isWrite_of_change hchange.2))
  rw [hdeclined] at hr
  cases hr

theorem fails_perform {compile : Compiler → Except Failure Statement}
    (hchange : ∀ {c s}, compile c = .ok s → s.IsChange) : Fails (Query.perform (db.access h) q compile) :=
  yields_then fun _ => yields_bind (yields_known fun _ hs => hs) fun _ hs => fails_run hreadonly (hchange hs) _ _

theorem fails_insert (row : Row) (key : Value) : Fails (Query.insert (db.access h) q row key) :=
  yields_then fun _ => fails_bind (fails_perform hreadonly q fun hs => (Compiler.insert_change hs).1)

theorem fails_insertGet (row : Row) (columns key : Value) : Fails (Query.insertGet (db.access h) q row columns key) := by
  unfold Query.insertGet
  split
  · exact fails_bind (fails_perform hreadonly q fun hs => (Compiler.insert_change hs).1)
  · exact fails_bind (fails_insert hreadonly q row key)

theorem fails_upsert (row : Row) (conflict update : Value) : Fails (Query.upsert (db.access h) q row conflict update) := by
  refine yields_then fun columns => ?_
  split
  · exact fails_bind (fails_perform hreadonly q Compiler.upsert_change)
  · refine yields_then fun conflict => Database.yields_transaction ?_ db _ _
    refine yields_then fun c => yields_then fun found => yields_then fun counting => yields_then fun counted =>
      yields_then fun isThere => ?_
    cases isThere with
    | true =>
        exact yields_bind (yields_known fun _ hs => hs) fun s hs =>
          fails_bind (fails_run hreadonly (Compiler.update_change hs rfl) _ _)
    | false =>
        refine yields_bind (yields_known fun _ hs => hs) fun s hs => ?_
        obtain ⟨s', hinsert, rfl⟩ := map_eq_ok.1 hs
        exact fails_bind (fails_run hreadonly (Compiler.insert_change hinsert).2 _ _)

/-- A restoration fails unless no soft deletion applies. -/
theorem restore_declined (w : World σ) :
    (∃ f, ending (Query.restore (db.access h) q) w = .error f) ∨
      ending (Query.restore (db.access h) q) w = .ok (.int 0) ∧ ending (db.softDeleteFor? q.table) w = .ok none := by
  rcases outcome_cases (db.softDeleteFor? q.table) w with ⟨softDelete, hsoft⟩ | ⟨f, hf⟩
  · have hcompiler : outcome (db.compiler h q.table) w = (.ok _, _) := outcome_bind_ok hsoft
    rw [ending, show Query.restore (db.access h) q = db.compiler h q.table >>= _ from rfl, outcome_bind_ok hcompiler]
    cases softDelete with
    | none => exact .inr ⟨rfl, congrArg Prod.fst hsoft⟩
    | some softDelete =>
        refine .inl (Fails.error (yields_bind (yields_known fun _ hs => hs) fun statement hs => ?_) _)
        cases statement with
        | none =>
            obtain ⟨s, -, hs⟩ := map_eq_ok.1 hs
            cases hs
        | some s => exact fails_bind (fails_run hreadonly (Compiler.restore_change hs) _ _)
  · have hcompiler : outcome (db.compiler h q.table) w = (.error f, _) := outcome_bind_error hf
    exact .inl ⟨f, congrArg Prod.fst (outcome_bind_error hcompiler)⟩

/-- A request to write fails unless there is nothing to write: no rows, or no soft deletion to take back. -/
theorem write_declined {e : Ending} (hwrite : e.isWrite = true) (w : World σ) :
    (∃ f, ending (e.answer (db.access h) q) w = .error f) ∨
      ending (e.answer (db.access h) q) w = .ok (.value (.int 0)) ∧
        (e = .insertMany [] ∨ e = .restore ∧ ending (db.softDeleteFor? q.table) w = .ok none) := by
  have hfails : ∀ {α : Type} {x : Session σ α} {tell : α → Answer}, Fails x →
      ∃ f, ending (do return tell (← x)) w = .error f := fun hx => (fails_bind hx).error w
  cases e with
  | insert row key => exact .inl (hfails (fails_insert hreadonly q row key))
  | insertMany rows =>
      cases rows with
      | nil => exact .inr ⟨rfl, .inl rfl⟩
      | cons row rows =>
          exact .inl (hfails (fails_bind (fails_perform hreadonly q fun hs => (Compiler.insert_change hs).1)))
  | insertGet row columns key => exact .inl (hfails (fails_insertGet hreadonly q row columns key))
  | update values =>
      exact .inl (hfails (fails_bind (fails_perform hreadonly q fun hs => Compiler.update_change hs rfl)))
  | delete forced => exact .inl (hfails (fails_bind (fails_perform hreadonly q Compiler.delete_change)))
  | restore =>
      have htold : ending (Ending.restore.answer (db.access h) q) w =
          (ending (Query.restore (db.access h) q) w).map Answer.value := ending_tell _ _ w
      rw [htold]
      rcases restore_declined hreadonly q w with ⟨f, hf⟩ | ⟨hzero, hnone⟩
      · exact .inl ⟨f, by rw [hf]; rfl⟩
      · exact .inr ⟨by rw [hzero]; rfl, .inr ⟨rfl, hnone⟩⟩
  | upsert row conflict columns => exact .inl (hfails (fails_upsert hreadonly q row conflict columns))
  | jsonUpdate column values => exact .inl (hfails (fails_bind (fails_perform hreadonly q Compiler.jsonUpdate_change)))
  | _ => cases hwrite

end

/-- What readonly mode declined is not tried again. -/
theorem Database.tryAgain_declined {dry : Bool} {work : Session σ α} {c : Context} {w : World σ}
    (h : ending (db.tryOnce dry work) w = .error (Policy.reject c .readonlyMode)) (more number : Nat) :
    outcome (db.tryAgain dry work more number) w = outcome (db.tryOnce dry work) w := by
  cases more with
  | zero => rfl
  | succ more =>
      rw [tryAgain, outcome_attempt_bind, outcome_eq (db.tryOnce dry work), h]
      rfl

/-- Readonly mode lets no change through. Whatever goes on through handles in this mode, over layers that pass contexts on
as they are, no text that a driver executes begins like a change, and so none is that of a statement that changes rows.
A request to write fails unless there is nothing to write: its statement is declined before anything else happens, and an
attempt that ends so is the last one. -/
theorem Course.play_readonly (db : Database σ) (course : Course (·.readonly = true) α) {w : World σ} (hw : w.Passing) :
    (∃ events, (after (course.play db) w).journal = w.journal ++ events ∧
      ∀ event ∈ events, ∀ sent, event.executed? = some sent →
        Context.IsRead sent.1 ∧ ∀ s : Statement, s.changes = true → sent.1 ≠ s.sql) ∧
    (∀ h : Handle, h.readonly = true → ∀ (q : Query) (e : Ending), e.isWrite = true → ∀ w : World σ,
      (∃ f, ending (e.answer (db.access h) q) w = .error f) ∨
        ending (e.answer (db.access h) q) w = .ok (.value (.int 0)) ∧
          (e = .insertMany [] ∨ e = .restore ∧ ending (db.softDeleteFor? q.table) w = .ok none)) ∧
    (∀ h : Handle, h.readonly = true → ∀ s : Statement, s.IsChange → ∀ (table : String) timeout (w : World σ), ∃ c,
      outcome (db.run h s table timeout) w =
        (.error (Policy.reject c .readonlyMode), { w with recorder := w.recorder.record s.sql s.params })) ∧
    ∀ {β : Type} (dry : Bool) (work : Session σ β) (c : Context) (w : World σ),
      ending (db.tryOnce dry work) w = .error (Policy.reject c .readonlyMode) →
        ∀ more number, outcome (db.tryAgain dry work more number) w = outcome (db.tryOnce dry work) w := by
  refine ⟨?_, fun h hreadonly q e hwrite w => write_declined hreadonly q hwrite w,
    fun h hreadonly s hchange table timeout w => ⟨_, Database.outcome_runText_declined hreadonly w
      (Database.isWrite_of_change hchange.2)⟩,
    fun dry work c w h more number => Database.tryAgain_declined h more number⟩
  obtain ⟨-, events, hevents, hread⟩ := course.carried db.carries_safely w hw
  refine ⟨events, hevents, fun event hevent sent hsent => ?_⟩
  have hsent := hread event hevent sent hsent
  refine ⟨hsent, fun s hchanges hsame => ?_⟩
  have hnone := s.changes_eq
  rw [← hsame, hchanges, hsent] at hnone
  cases hnone

/-- A transaction that inserts a row and reads on after the insertion has failed. -/
def stubbornInsertion : Course (·.readonly = true) Answer :=
  .transaction { readonly := true } rfl .null
    (.query { readonly := true } rfl { table := "t" } (.insert [(.text "id", .int 1)] .null) fun _ =>
      .query { readonly := true } rfl { table := "t" } .rows .done)
    .done

theorem play_readonly_stubborn :
    let w : World Unit :=
      { outside := (), layers := [⟨0, fun c => .tell (.layerSaw c) (.proceed c .finish)⟩] }
    (∃ events, (after (stubbornInsertion.play Database.ready) w).journal = events ∧
      ∀ event ∈ events, ∀ sent, event.executed? = some sent → Context.IsRead sent.1) ∧
    (after (stubbornInsertion.play Database.ready) w).journal.filterMap (Event.executed? · |>.map (·.1)) =
      ["SELECT * FROM \"t\""] := by
  intro w
  have hpassing : w.Passing :=
    ⟨List.forall_mem_nil _, List.forall_mem_singleton.2 fun c => .tell rfl (.proceed .finish), List.forall_mem_nil _⟩
  obtain ⟨⟨events, hevents, hread⟩, -⟩ := Course.play_readonly Database.ready stubbornInsertion hpassing
  refine ⟨⟨events, hevents, fun event hevent sent hsent => (hread event hevent sent hsent).1⟩, ?_⟩
  decide +kernel

end Polyquery
