import Polyquery.Proofs.Ledger
import Polyquery.Session.Driver

/-! How failures leave a connection. Main statement: whatever breaks a statement between the opening and the closing of its
cursor, and whatever breaks the end of a transaction, leaves as a failure of execution that stands for it, as the dialect
judges it. When the cursor itself cannot be opened or closed, the failure leaves as it is. -/

namespace Polyquery

open Session

variable {σ : Type}

/-- A failure of execution that stands for another failure: retryable if the dialect takes that one for a conflict and fatal
otherwise, with its text and its code, the text of the statement, and raised from it. -/
structure Failure.StandsFor (f : Failure) (d : Dialect) (sql : String) (g : Failure) : Prop where
  retryable : f.severity? = some .retryable ↔ d.isConflict g = true
  fatal : f.severity? = some .fatal ↔ d.isConflict g = false
  told : ∃ severity, f.cause = .execution ⟨severity, g.message, some sql, g.databaseCode⟩
  origin : f.origin = some g

namespace Connection

theorem translated_standsFor (d : Dialect) (sql : String) (g : Failure) : (translated d sql g).StandsFor d sql g := by
  have hseverity : (translated d sql g).severity? = some (if d.isConflict g then .retryable else .fatal) := rfl
  refine ⟨?_, ?_, ⟨_, rfl⟩, rfl⟩
  · rw [hseverity]
    cases d.isConflict g <;> simp
  · rw [hseverity]
    cases d.isConflict g <;> simp

/-- What can break a statement while its cursor is open: it is refused, its rows cannot be fetched, what was affected cannot
be told or what was fetched cannot be read, or its commit is refused. -/
inductive Breaks (c : Connection σ) (sql : String) (params : List Value) : Failure → Prop
  | refused {s s' : σ} {f : Failure} (h : c.execute sql params s = .error f s') : Breaks c sql params f
  | unfetched {s s' : σ} {f : Failure} (h : c.fetch s = .error f s') : Breaks c sql params f
  | uncounted {reply : Reply} {f : Failure} (h : reply.affected = .error f) : Breaks c sql params f
  | unreadable {columns : List Value} {data : List (List Value)} {f : Failure} (h : resultRows columns data = .error f) :
    Breaks c sql params f
  | uncommitted {s s' : σ} {f : Failure} (h : c.commit s = .error f s') : Breaks c sql params f

variable {c : Connection σ} {d : Dialect} {link : Link} {sql : String} {params : List Value} {w : World σ} {f g : Failure}
  {s s' : σ}

/-! ### Statements -/

theorem raises_send (c : Connection σ) (link : Link) (sql : String) (params : List Value) :
    Raises (c.send link sql params) (c.Breaks sql params) := by
  have hgather : ∀ reply, Raises (c.gather reply) (c.Breaks sql params) := by
    intro reply
    unfold gather
    split
    · exact raises_bind (raises_settle fun _ h => .uncounted h) fun _ => raises_pure _
    · exact raises_bind (raises_outside fun h => .unfetched h) fun _ =>
        raises_bind (raises_settle fun _ h => .unreadable h) fun _ => raises_pure _
  have hreceive : ∀ reply, Raises (c.receive link reply) (c.Breaks sql params) := by
    refine fun reply => raises_bind (hgather reply) fun result => ?_
    split
    · exact raises_bind (raises_setLastKey _ _) fun _ => raises_pure _
    · exact raises_pure _
  have hpublish : Raises (c.publish link) (c.Breaks sql params) := by
    intro w f hf
    rw [ending, publish, outcome_inTransaction_bind] at hf
    split at hf
    · cases hf
    · exact raises_bind (raises_emit _) (fun _ => raises_outside fun h => .uncommitted h) w f hf
  rw [send_eq, ask_eq]
  exact raises_bind (raises_bind (raises_emit _) fun _ => raises_bind (raises_outside fun h => .refused h) hreceive)
    fun _ => raises_bind hpublish fun _ => raises_pure _

/-- A failed statement is rolled back without a failure, unless the rollback is interrupted. -/
theorem undo_cases (c : Connection σ) (link : Link) (w : World σ) :
    ending (c.undo link) w = .ok () ∨
    ∃ s f s', c.rollback s = .error f s' ∧ f.isInterrupt = true ∧ ending (c.undo link) w = .error f := by
  cases hrollback : c.rollback w.outside with
  | ok _ s => exact .inl (congrArg Prod.fst (outcome_attempt_call_ok hrollback _ _))
  | error f s =>
      have hundo : outcome (c.undo link) w = outcome (if f.isInterrupt then throw f
          else log .debug "autocommit_rollback_failed" [("error", .text f.message)])
          (called w (.wire link .rollback) s) := outcome_attempt_call_error hrollback _ _
      rw [ending, hundo]
      cases hinterrupt : f.isInterrupt with
      | true => exact .inr ⟨w.outside, f, s, hrollback, hinterrupt, rfl⟩
      | false => exact .inl rfl

/-- A statement that breaks is told of by a failure that stands for what broke it, unless an interrupt comes from its
rollback. -/
theorem ending_run_broken (hsend : ending (c.send link sql params) w = .error g) (hordinary : g.isInterrupt = false) :
    ending (c.run d link sql params) w = .error (translated d sql g) ∨
    ∃ s f s', c.rollback s = .error f s' ∧ f.isInterrupt = true ∧ ending (c.run d link sql params) w = .error f := by
  have hrun : outcome (c.run d link sql params) w = outcome (do
      unless ← inTransaction link do c.undo link
      throw (translated d sql g)) (after (c.send link sql params) w) := by
    rw [run, outcome_attempt_bind, hsend]
    simp only [hordinary]
    rfl
  rw [ending, hrun, outcome_inTransaction_bind]
  split
  · exact .inl rfl
  · rcases undo_cases c link (after (c.send link sql params) w) with hundone | ⟨s, f, s', hrollback, hinterrupt, hundone⟩
    · left
      rw [outcome_bind, hundone]
      rfl
    · refine .inr ⟨s, f, s', hrollback, hinterrupt, ?_⟩
      rw [outcome_bind, hundone]

/-- A failure of a statement stands for what broke it, if it is no interrupt. -/
theorem exists_of_run_error (hrun : ending (c.run d link sql params) w = .error f) (hordinary : f.isInterrupt = false) :
    ∃ g, ending (c.send link sql params) w = .error g ∧ g.isInterrupt = false ∧ f = translated d sql g := by
  cases hsend : ending (c.send link sql params) w with
  | ok result =>
      rw [ending, run, outcome_attempt_bind, hsend] at hrun
      cases hrun
  | error g =>
      cases hinterrupt : g.isInterrupt with
      | true =>
          rw [ending, run, outcome_attempt_bind, hsend] at hrun
          simp only [hinterrupt] at hrun
          cases hrun
          rw [hinterrupt] at hordinary
          cases hordinary
      | false =>
          rcases ending_run_broken (d := d) hsend hinterrupt with hbroken | ⟨s, f', s', -, hinterrupted, hbroken⟩
          · rw [hbroken] at hrun
            cases hrun
            exact ⟨g, rfl, hinterrupt, rfl⟩
          · rw [hbroken] at hrun
            cases hrun
            rw [hordinary] at hinterrupted
            cases hinterrupted

/-! ### Cursors -/

/-- The state in which a cursor is open. -/
def opened (w : World σ) (link : Link) (s : σ) : World σ := called w (.wire link .cursor) s

theorem ending_runOnCursor_unopened (h : c.cursor w.outside = .error f s) :
    ending (c.runOnCursor d link sql params) w = .error f :=
  congrArg Prod.fst (outcome_call_bind_error h _ _)

theorem ending_runOnCursor_unclosed (h : c.cursor w.outside = .ok () s)
    (hclose : c.close (after (c.run d link sql params) (opened w link s)).outside = .error f s') :
    ending (c.runOnCursor d link sql params) w = .error f := by
  rw [ending, runOnCursor, outcome_call_bind_ok h]
  change (outcome (ensuring _ _) (opened w link s)).1 = _
  rw [outcome_ensuring_error (outcome_call_error hclose _)]

theorem ending_runOnCursor_closed (h : c.cursor w.outside = .ok () s)
    (hclose : c.close (after (c.run d link sql params) (opened w link s)).outside = .ok () s') :
    ending (c.runOnCursor d link sql params) w = ending (c.run d link sql params) (opened w link s) := by
  rw [ending, runOnCursor, outcome_call_bind_ok h]
  change (outcome (ensuring _ _) (opened w link s)).1 = _
  rw [outcome_ensuring_ok (outcome_call_ok hclose _)]

/-- How a statement on a cursor fails: the cursor cannot be opened, or it cannot be closed, and that failure leaves as it is;
or the statement breaks while the cursor is open, and the failure stands for what broke it. -/
inductive Leaves (c : Connection σ) (d : Dialect) (link : Link) (sql : String) (params : List Value) (w : World σ) :
    Failure → Prop
  | unopened {f : Failure} {s : σ} (h : c.cursor w.outside = .error f s) : Leaves c d link sql params w f
  | unclosed {f : Failure} {s s' : σ} (h : c.cursor w.outside = .ok () s)
    (hclose : c.close (after (c.run d link sql params) (opened w link s)).outside = .error f s') :
    Leaves c d link sql params w f
  | broken {f g : Failure} {s : σ} (h : c.cursor w.outside = .ok () s)
    (hsend : ending (c.send link sql params) (opened w link s) = .error g) (hbreaks : c.Breaks sql params g)
    (hstands : f.StandsFor d sql g) : Leaves c d link sql params w f

/-- An ordinary failure of a statement on a cursor is one of its opening, of its closing, or stands for what broke it. -/
theorem leaves_runOnCursor (hfailed : ending (c.runOnCursor d link sql params) w = .error f)
    (hordinary : f.isInterrupt = false) : c.Leaves d link sql params w f := by
  cases hcursor : c.cursor w.outside with
  | error f' s =>
      rw [ending_runOnCursor_unopened hcursor] at hfailed
      cases hfailed
      exact .unopened hcursor
  | ok _ s =>
      cases hclose : c.close (after (c.run d link sql params) (opened w link s)).outside with
      | error f' s' =>
          rw [ending_runOnCursor_unclosed hcursor hclose] at hfailed
          cases hfailed
          exact .unclosed hcursor hclose
      | ok _ s' =>
          rw [ending_runOnCursor_closed hcursor hclose] at hfailed
          obtain ⟨g, hsend, -, rfl⟩ := exists_of_run_error hfailed hordinary
          exact .broken hcursor hsend (raises_send c link sql params _ g hsend) (translated_standsFor d sql g)

/-- What breaks a statement is told of where its cursor is closed without a failure, unless the rollback is interrupted. -/
theorem ending_runOnCursor_broken (hcursor : c.cursor w.outside = .ok () s)
    (hclose : c.close (after (c.run d link sql params) (opened w link s)).outside = .ok () s')
    (hsend : ending (c.send link sql params) (opened w link s) = .error g) (hordinary : g.isInterrupt = false) :
    (∃ f, ending (c.runOnCursor d link sql params) w = .error f ∧ f.StandsFor d sql g) ∨
    ∃ s f s', c.rollback s = .error f s' ∧ f.isInterrupt = true ∧
      ending (c.runOnCursor d link sql params) w = .error f := by
  rw [ending_runOnCursor_closed hcursor hclose]
  exact (ending_run_broken hsend hordinary).imp_left fun h => ⟨_, h, translated_standsFor d sql g⟩

/-! ### Ends of transactions -/

/-- Whether a computation fails, interrupts apart, exactly where an effect does, by failures that stand for its own. -/
structure Tells (x : Session σ Unit) (effect : Effect σ Unit) (d : Dialect) (word : String) : Prop where
  stands : ∀ {w : World σ} {f : Failure}, ending x w = .error f → f.isInterrupt = false →
    ∃ g s, effect w.outside = .error g s ∧ f.StandsFor d word g
  told : ∀ {w : World σ} {g : Failure} {s : σ}, effect w.outside = .error g s → g.isInterrupt = false →
    ∃ f, ending x w = .error f ∧ f.StandsFor d word g

/-- The end of a transaction fails exactly if the connection refuses it. -/
theorem tells_endTransaction (d : Dialect) (link : Link) (call : WireCall) (word : String) (effect : Effect σ Unit) :
    Tells (endTransaction d link call word effect) effect d word := by
  have hrefused : ∀ {w : World σ} {g : Failure} {s : σ}, effect w.outside = .error g s →
      ending (endTransaction d link call word effect) w = .error (if g.isInterrupt then g else translated d word g) :=
    fun h => congrArg Prod.fst (outcome_attempt_call_error h _ _)
  constructor
  · intro w f hfailed hordinary
    cases heffect : effect w.outside with
    | ok _ s =>
        have hended : ending (endTransaction d link call word effect) w = .ok () :=
          congrArg Prod.fst (outcome_attempt_call_ok heffect _ _)
        rw [hended] at hfailed
        cases hfailed
    | error g s =>
        rw [hrefused heffect] at hfailed
        refine ⟨g, s, rfl, ?_⟩
        cases hinterrupt : g.isInterrupt with
        | true =>
            rw [hinterrupt, if_pos rfl] at hfailed
            cases hfailed
            rw [hinterrupt] at hordinary
            cases hordinary
        | false =>
            rw [hinterrupt, if_neg Bool.false_ne_true] at hfailed
            cases hfailed
            exact translated_standsFor d word g
  · intro w g s heffect hordinary
    refine ⟨_, hrefused heffect, ?_⟩
    rw [hordinary]
    exact translated_standsFor d word g

end Connection

/-! ### Drivers over connections -/

/-- An ordinary failure that leaves a statement over a connection stands for what broke it, unless it comes from the opening
or the closing of the cursor: these leave as they are, the one from the closing in the place of everything before it. What
breaks a statement always leaves so, unless the closing fails or the rollback is interrupted. Commits and rollbacks fail
exactly where the connection refuses them, by failures that stand for the connection's own. -/
theorem Driver.failures_translated (d : Dialect) (link : Link) (c : Connection σ) :
    let driver := Driver.connection c
    (∀ statement params {w : World σ} {f : Failure}, ending (driver.execute d link statement params) w = .error f →
      f.isInterrupt = false → c.Leaves d link statement.sql params w f) ∧
    (∀ statement params {w : World σ} {f : Failure} {s : σ}, c.cursor w.outside = .error f s →
      ending (driver.execute d link statement params) w = .error f) ∧
    (∀ statement params {w : World σ} {s : σ}, c.cursor w.outside = .ok () s →
      let opened := Connection.opened w link s
      match c.close (after (c.run d link statement.sql params) opened).outside with
      | .error f _ => ending (driver.execute d link statement params) w = .error f
      | .ok () _ => ∀ {g : Failure}, ending (c.send link statement.sql params) opened = .error g →
        g.isInterrupt = false →
          (∃ f, ending (driver.execute d link statement params) w = .error f ∧ f.StandsFor d statement.sql g) ∨
          ∃ s f s', c.rollback s = .error f s' ∧ f.isInterrupt = true ∧
            ending (driver.execute d link statement params) w = .error f) ∧
    Connection.Tells (driver.commit d link) c.commit d "COMMIT" ∧
    Connection.Tells (driver.rollback d link) c.rollback d "ROLLBACK" := by
  refine ⟨fun statement params _ _ => Connection.leaves_runOnCursor,
    fun statement params _ _ _ => Connection.ending_runOnCursor_unopened, ?_,
    Connection.tells_endTransaction d link .commit "COMMIT" c.commit,
    Connection.tells_endTransaction d link .rollback "ROLLBACK" c.rollback⟩
  intro statement params w s hcursor
  dsimp only
  split
  · exact Connection.ending_runOnCursor_unclosed hcursor ‹_›
  · exact Connection.ending_runOnCursor_broken hcursor ‹_›

/-- A connection on which all goes well. -/
def Connection.willing : Connection Unit where
  cursor := pure ()
  execute _ _ := pure {}
  fetch := pure []
  close := pure ()
  commit := pure ()
  rollback := pure ()

/-- A failure of a database that is locked by another connection. -/
def Failure.locked : Failure := .of (.foreign .database [.text "database is locked"])

/-- A statement that is refused for a conflict, outside of transactions. -/
theorem failures_translated_locked :
    let c : Connection Unit := { Connection.willing with execute := fun _ _ => throw .locked }
    ∃ f, ending ((Driver.connection c).execute .sqlite .primary ⟨"DELETE FROM t"⟩ []) { outside := () } = .error f ∧
      f.StandsFor .sqlite "DELETE FROM t" .locked ∧ f.severity? = some .retryable := by
  intro c
  obtain ⟨-, -, hopened, -, -⟩ := Driver.failures_translated .sqlite .primary c
  rcases hopened ⟨"DELETE FROM t"⟩ [] (w := { outside := () }) (s := ()) rfl (g := .locked) rfl rfl with
    ⟨f, hfailed, hstands⟩ | ⟨_, f, _, hrollback, -⟩
  · exact ⟨f, hfailed, hstands, hstands.retryable.2 (by decide +kernel)⟩
  · cases hrollback

/-- A cursor that cannot be opened or closed for a conflict: the failure is none of execution, and nothing says that all may
be tried again. -/
theorem unopened_untranslated :
    Dialect.sqlite.isConflict .locked = true ∧ Failure.locked.isInterrupt = false ∧
    ∀ c ∈ [{ Connection.willing with cursor := throw .locked }, { Connection.willing with close := throw .locked }],
      ending ((Driver.connection c).execute .sqlite .primary ⟨"DELETE FROM t"⟩ []) { outside := () } = .error .locked ∧
        Failure.locked.isExecution = false := by
  refine ⟨by decide +kernel, rfl, fun c hc => ?_⟩
  obtain rfl | rfl : c = { Connection.willing with cursor := throw .locked } ∨
      c = { Connection.willing with close := throw .locked } := by simpa using hc
  · exact ⟨rfl, rfl⟩
  · exact ⟨rfl, rfl⟩

end Polyquery
