import Polyquery.Proofs.Course
import Polyquery.Proofs.Passage

/-! Sessions whose layers pass contexts on as they are. What such a session executes is known from what is submitted to it:
a context executes its own text and those that set its time limit and lift it. Main statement: what may be said of these
texts, of lookups of columns and of queries for keys, and of all events that execute nothing, may be said of all that goes
on through handles. -/

namespace Polyquery

open Session

variable {σ α β : Type} {db : Database σ} {h : Handle} {allowed : Event → Prop}

/-! ### Layers -/

/-- A plan that lets its context through as it is, as often as it likes, or answers itself. What it tells executes nothing,
and what it registers are such layers again. -/
inductive Plan.Passes : Context → Plan → Prop
  | finish {c : Context} (outcome : Except Failure Result) : Passes c (.finish outcome)
  | proceed {c : Context} {resume : Except Failure Result → Plan} (h : ∀ outcome, Passes c (resume outcome)) :
    Passes c (.proceed c resume)
  | tell {c : Context} {event : Event} {rest : Plan} (hevent : event.executed? = none) (h : Passes c rest) :
    Passes c (.tell event rest)
  | register {c : Context} {number : Nat} {layer : Context → Plan} {rest : Plan} (hlayer : ∀ c, Passes c (layer c))
    (h : Passes c rest) : Passes c (.register number layer rest)
  | recollect {c : Context} {resume : List Event → Plan} (h : ∀ past, Passes c (resume past)) :
    Passes c (.recollect resume)

/-- A layer that lets every context through as it is. -/
def Layer.Passes (layer : Layer) : Prop := ∀ c, (layer.plan c).Passes c

/-- A session whose layers let contexts through as they are, the composed ones as well as the registered ones. -/
structure World.Passing (w : World σ) : Prop where
  faithful : w.IsFaithful
  layers : ∀ layer ∈ w.layers, layer.Passes
  chains : ∀ chained ∈ w.chains, ∀ layer ∈ chained.layers, layer.Passes

/-- What a step does that starts with such layers: they stay such, and what happens is of a kind. -/
def World.Relays (allowed : Event → Prop) (w w' : World σ) : Prop :=
  w.Passing → w'.Passing ∧ ∃ events, w'.journal = w.journal ++ events ∧ ∀ event ∈ events, allowed event

section

variable {w w' w'' : World σ}

theorem World.relays_silent (hpassing : w.Passing → w'.Passing) (hjournal : w'.journal = w.journal) :
    w.Relays allowed w' :=
  fun hw => ⟨hpassing hw, [], by rw [hjournal, List.append_nil], List.forall_mem_nil _⟩

instance : IsPreorder (World σ) (World.Relays allowed) where
  refl _ := World.relays_silent id rfl
  trans w w' w'' h h' hw := by
    obtain ⟨hw', events, hevents, hallowed⟩ := h hw
    obtain ⟨hw'', events', hevents', hallowed'⟩ := h' hw'
    refine ⟨hw'', events ++ events', ?_, List.forall_mem_append.2 ⟨hallowed, hallowed'⟩⟩
    rw [hevents', hevents, List.append_assoc]

theorem World.Keeps.relays (h : w.Keeps allowed w') : w.Relays allowed w' := by
  intro hw
  have hkept := h hw.faithful
  exact ⟨⟨hkept.faithful, hkept.layers ▸ hw.layers, hkept.chains ▸ hw.chains⟩, hkept.journal⟩

theorem World.Passing.linked (h : w.Passing) (link : Link) (state : LinkState) : (w.setLink link state).Passing := by
  cases link <;> exact ⟨h.faithful, h.layers, h.chains⟩

end

theorem composes_relays : Composes (σ := σ) fun x => Leads (World.Relays allowed) x :=
  composes_leads fun h => World.Keeps.relays fun hw => (h hw).mono fun _ => False.elim

theorem relays_emit {event : Event} (h : allowed event) : Leads (World.Relays allowed) (emit event : Session σ Unit) :=
  (keeps_emit h).mono World.Keeps.relays

theorem relays_setInTransaction (link : Link) (on : Bool) :
    Leads (World.Relays allowed) (setInTransaction link on : Session σ Unit) :=
  fun w => World.relays_silent (fun hw => hw.linked link _) (by cases link <;> rfl)

/-! Events that execute nothing are of every kind that is looked at here. -/

variable (hidle : ∀ {event : Event}, event.executed? = none → allowed event)

section

variable {c : Context} {own : Submission → Session σ Result} {next core : Context → Session σ Result}
include hidle

theorem Plan.Passes.relays {plan : Plan} (h : plan.Passes c) (hnext : Leads (World.Relays allowed) (next c)) :
    Leads (World.Relays allowed) (plan.run own next) := by
  induction h with
  | finish outcome => exact leads_settle outcome
  | proceed h ih => exact leads_bind (leads_attempt hnext) fun outcome => ih outcome hnext
  | tell hevent h ih => exact leads_bind (relays_emit (hidle hevent)) fun _ => ih hnext
  | register hlayer h _ ih =>
      refine leads_bind (fun w => World.relays_silent (fun hw => ⟨hw.faithful, ?_, hw.chains⟩) rfl) fun _ => ih hnext
      exact List.forall_mem_append.2 ⟨hw.layers, List.forall_mem_singleton.2 hlayer⟩
  | recollect h ih => exact leads_bind leads_get fun w => ih w.journal hnext

theorem Layer.relays_through (hcore : Leads (World.Relays allowed) (core c)) {layers : List Layer}
    (h : ∀ layer ∈ layers, layer.Passes) : Leads (World.Relays allowed) (through own core layers c) := by
  induction layers with
  | nil => exact hcore
  | cons layer layers ih =>
      obtain ⟨hlayer, hlayers⟩ := List.forall_mem_cons.1 h
      exact (hlayer c).relays hidle (ih hlayers)

end

/-! ### Statements -/

/-- Whether a text sets a time limit, or lifts it again. -/
def Dialect.Tunes (d : Dialect) (timeout : Option Int) (sql : String) : Prop :=
  ∃ milliseconds, timeout = some milliseconds ∧
    ((d.timeout milliseconds).apply = some sql ∨ (d.timeout milliseconds).lift = some sql)

namespace Database

section

variable {link : Link} {sql : String} {params : List Value}
  (hsql : ∀ event, Event.OfStatement link sql params event → allowed event)
include hsql

/-- A statement on its way to a driver. -/
theorem keeps_prepared {k : Prepared → Session σ β} (hk : Leads (World.Keeps allowed) (k ⟨sql⟩)) :
    Leads (World.Keeps allowed) (db.prepare link sql >>= k) :=
  Driver.keeps_prepare_bind hsql (db.dialectOf link) _ hk

theorem keeps_executed : Leads (World.Keeps allowed) (db.execute link ⟨sql⟩ params) :=
  Driver.keeps_execute hsql (db.dialectOf link) _

end

include hidle

theorem keeps_tune {link : Link} {sql : String} (hsql : ∀ event, Event.OfStatement link sql [] event → allowed event) :
    Leads (World.Keeps allowed) (db.tune link sql) := by
  refine leads_bind (leads_attempt (keeps_prepared hsql (leads_bind (keeps_executed hsql) fun _ => leads_pure _)))
    fun outcome => ?_
  split
  · exact leads_pure _
  · split
    · exact leads_bind (keeps_emit (hidle rfl)) fun _ => leads_pure _
    · exact leads_throw _

theorem keeps_report (c : Context) (r : Result) : Leads (World.Keeps allowed) (report c r : Session σ Unit) :=
  leads_bind leads_get fun _ => leads_when (keeps_emit (hidle rfl))
    (leads_when (keeps_emit (hidle rfl)) (keeps_emit (hidle rfl)))

section

variable {link : Link} {c : Context} (hown : ∀ event, Event.OfStatement link c.sql c.params event → allowed event)
  (htuning : ∀ sql, (db.dialectOf link).Tunes c.timeout sql →
    ∀ event, Event.OfStatement link sql [] event → allowed event)

include htuning in
/-- A time limit is set by a text that tunes it, and so it is lifted. -/
theorem keeps_applyTimeout_bind {k : Option String → Session σ β}
    (hk : ∀ lift, (∀ sql, lift = some sql → (db.dialectOf link).Tunes c.timeout sql) →
      Leads (World.Keeps allowed) (k lift)) :
    Leads (World.Keeps allowed) (db.applyTimeout link c.timeout >>= k) := by
  have hnone := hk none fun sql h => by cases h
  cases htimeout : c.timeout with
  | none => exact hnone
  | some milliseconds =>
      rw [htimeout] at hk htuning
      unfold applyTimeout
      dsimp only
      split
      · exact hnone
      · have hlift := hk ((db.dialectOf link).timeout milliseconds).lift fun sql h => ⟨milliseconds, rfl, .inr h⟩
        cases happly : ((db.dialectOf link).timeout milliseconds).apply with
        | none => exact hlift
        | some sql =>
            simp only [bind_assoc]
            have htuned := htuning sql ⟨milliseconds, rfl, .inl happly⟩
            refine leads_bind (keeps_tune hidle htuned) fun applied => ?_
            cases applied with
            | true => exact hlift
            | false => exact hnone

include hown

theorem keeps_perform : Leads (World.Keeps allowed) (db.perform link ⟨c.sql⟩ c) := by
  refine leads_bind (leads_attempt (keeps_executed hown)) fun outcome => ?_
  split
  · exact leads_pure _
  · refine leads_bind ?_ fun _ => leads_throw _
    unfold reportFailure
    split
    · exact leads_pure _
    · exact keeps_emit (hidle rfl)

include htuning

theorem keeps_core : Leads (World.Keeps allowed) (db.core link c) := by
  refine keeps_prepared hown (keeps_applyTimeout_bind hidle htuning fun lift hlift => ?_)
  refine leads_bind (leads_ensuring (keeps_perform hidle hown) ?_) fun result =>
    leads_bind (keeps_report hidle c result) fun _ => leads_pure _
  cases lift with
  | none => exact leads_pure _
  | some sql => exact leads_bind (keeps_tune hidle (htuning sql (hlift sql rfl))) fun _ => leads_pure _

omit hidle hown htuning in
theorem chainFor_passing (link : Link) {w : World σ} (hw : w.Passing) :
    ∃ layers w', outcome (chainFor link) w = (.ok ⟨link, layers⟩, w') ∧ w'.Passing ∧ w'.journal = w.journal ∧
      ∀ layer ∈ layers, layer.Passes := by
  rcases outcome_chainFor link w with ⟨chained, hmem, rfl, -, hfound⟩ | ⟨kept, hkept, hcomposed⟩
  · exact ⟨chained.layers, w, hfound, hw, rfl, hw.chains chained hmem⟩
  · refine ⟨w.layers, _, hcomposed, ⟨hw.faithful, hw.layers, ?_⟩, rfl, hw.layers⟩
    exact List.forall_mem_cons.2 ⟨hw.layers, fun chained hchained => hw.chains chained (hkept hchained)⟩

/-- A context reaches the driver as it is, if it reaches it. -/
theorem relays_runContext (readonly testMode : Bool) :
    Leads (World.Relays allowed) (db.runContext link readonly testMode c) := by
  have hthrough : Leads (World.Relays allowed)
      (chainFor link >>= fun chained => db.follow (fun _ => throw tooDeep) chained c) := by
    intro w hw
    obtain ⟨layers, w', hchained, hpassing, hjournal, hpass⟩ := chainFor_passing link hw
    have hcomposed : w.Relays allowed w' := World.relays_silent (fun _ => hpassing) hjournal
    rw [after, outcome_bind_ok hchained]
    have hcore : Leads (World.Relays allowed) (Layer.through (fun _ => throw tooDeep) (db.core link) layers c) :=
      Layer.relays_through hidle ((keeps_core hidle hown htuning).mono World.Keeps.relays) hpass
    exact trans_of (World.Relays allowed) hcomposed (hcore w') hw
  rw [runContext, submitWithin, submitThrough]
  refine leads_bind (fun w => World.relays_silent (fun hw => ⟨hw.faithful, hw.layers, hw.chains⟩) rfl) fun _ =>
    leads_bind leads_get fun w => ?_
  obtain ⟨asked, verdict⟩ := Policy.check db.settings.rules w.guards readonly c
  refine leads_bind (leads_forM fun guard _ => relays_emit (hidle rfl)) fun _ =>
    leads_bind (leads_settle verdict) fun _ => ?_
  cases testMode with
  | true => exact leads_bind (relays_emit (hidle rfl)) fun _ => leads_pure _
  | false => exact hthrough

end

end Database

/-! ### Calls of a database -/

namespace Driver

variable {link : Link} (d : Dialect) (driver : Driver σ)

section

include hidle

/-- A driver of the caller's where a transaction begins or ends. -/
theorem relays_boundary {event : Event} (h : event.executed? = none) (x : Effect σ Unit) (on : Bool) :
    Leads (World.Relays allowed) (emit event >>= fun _ => outside x >>= fun _ => setInTransaction link on) :=
  leads_bind (relays_emit (hidle h)) fun _ => leads_bind (composes_relays.outside x) fun _ =>
    relays_setInTransaction link on

theorem relays_start : Leads (World.Relays allowed) (driver.start link) := by
  cases driver with
  | port p => exact relays_boundary hidle rfl _ true
  | connection c => exact relays_setInTransaction link true

theorem relays_endTransaction (call : WireCall) (hcall : Event.executed? (.wire link call) = none) (word : String)
    (effect : Effect σ Unit) :
    Leads (World.Relays allowed) (Connection.endTransaction d link call word effect) := by
  refine leads_bind (relays_emit (hidle hcall)) fun _ => leads_bind (leads_attempt (composes_relays.outside _))
    fun outcome => leads_bind (relays_setInTransaction link false) fun _ => ?_
  split
  · exact leads_pure _
  · exact leads_throw _

theorem relays_commit : Leads (World.Relays allowed) (driver.commit d link) := by
  cases driver with
  | port p => exact relays_boundary hidle rfl _ false
  | connection c => exact relays_endTransaction hidle d .commit rfl "COMMIT" c.commit

theorem relays_rollback : Leads (World.Relays allowed) (driver.rollback d link) := by
  cases driver with
  | port p => exact relays_boundary hidle rfl _ false
  | connection c => exact relays_endTransaction hidle d .rollback rfl "ROLLBACK" c.rollback

theorem relays_lastKey
    (hkey : ∀ sql, d.keyQuery = some sql → ∀ event, Event.OfStatement link sql [] event → allowed event) :
    Leads (World.Relays allowed) (driver.lastKey d link) := by
  cases driver with
  | port p => exact leads_bind (relays_emit (hidle rfl)) fun _ => composes_relays.outside _
  | connection c =>
      unfold lastKey
      dsimp only
      split
      · exact leads_bind leads_get fun _ => leads_pure _
      · rename_i sql hquery
        have hkeeps : Leads (World.Keeps allowed) (prepare d link sql (connection c) >>= fun statement => do
            settle (firstCell (← c.runOnCursor d link statement.sql []))) :=
          Driver.keeps_prepare_bind (hkey sql hquery) d _
            (leads_bind (Driver.keeps_execute (hkey sql hquery) d (connection c)) fun _ => leads_settle _)
        exact hkeeps.mono World.Keeps.relays

end

end Driver

namespace Database

include hidle

theorem relays_rollBackQuietly : Leads (World.Relays allowed) db.rollBackQuietly := by
  refine leads_bind (leads_attempt (Driver.relays_rollback hidle _ _)) fun outcome => ?_
  split
  · exact leads_pure _
  · split
    · exact relays_emit (hidle rfl)
    · exact leads_throw _

theorem relays_commitOrRollBack : Leads (World.Relays allowed) db.commitOrRollBack := by
  refine leads_bind (leads_attempt (Driver.relays_commit hidle _ _)) fun outcome => ?_
  split
  · exact leads_pure _
  · exact leads_when (relays_rollBackQuietly hidle) (leads_throw _)

theorem relays_close (dry : Bool) (outcome : Except Failure α) :
    Leads (World.Relays allowed) (db.close dry outcome) := by
  cases dry <;> cases outcome
  · exact leads_bind (relays_rollBackQuietly hidle) fun _ => leads_throw _
  · exact leads_bind (relays_commitOrRollBack hidle) fun _ => leads_pure _
  · exact leads_throw _
  · exact leads_pure _

theorem relays_waitAfter (number : Nat) (f : Failure) : Leads (World.Relays allowed) (db.waitAfter number f) :=
  leads_bind (leads_settle _) fun _ => leads_bind (relays_emit (hidle rfl)) fun _ =>
    leads_bind (relays_emit (hidle rfl)) fun _ => composes_relays.outside _

theorem relays_lastKey
    (hkey : ∀ sql, db.dialect.keyQuery = some sql → ∀ event, Event.OfStatement .primary sql [] event → allowed event)
    (h : Handle) (r : Result) : Leads (World.Relays allowed) (db.lastKey h r) := by
  unfold lastKey
  split
  · exact leads_pure _
  · split
    · exact leads_pure _
    · exact Driver.relays_lastKey hidle _ _ hkey

omit hidle in
/-- Lookups of columns, of which no more is known than their events. -/
theorem consults_relays (hlookup : ∀ table column event, Event.OfLookup db.dialect table column event → allowed event) :
    db.Consults fun x => Leads (World.Relays allowed) x where
  toSequences := composes_relays.toSequences
  read _ hk := leads_bind leads_get hk
  remember _ _ := World.relays_silent (fun hw => ⟨hw.faithful, hw.layers, hw.chains⟩) rfl
  lookUp table column :=
    (db.keeps_lookUpColumn table column).mono fun h => World.Keeps.relays fun hw => (h hw).mono (hlookup table column)

/-- What may be said of the statements of handles, of lookups and of queries for keys may be said of all that goes on. -/
theorem carries_relays {kind : Handle → Prop}
    (hlookup : ∀ table column event, Event.OfLookup db.dialect table column event → allowed event)
    (hkey : ∀ sql, db.dialect.keyQuery = some sql → ∀ event, Event.OfStatement .primary sql [] event → allowed event)
    (hrun : ∀ {h : Handle} {s : Statement}, kind h → s.IsTagged → ∀ table timeout,
      Leads (World.Relays allowed) (db.run h s table timeout))
    (hraw : ∀ {h : Handle}, kind h → ∀ sql params, Leads (World.Relays allowed) (db.raw h sql params)) :
    db.Carries kind fun x => Leads (World.Relays allowed) x where
  toConsults := db.consults_relays hlookup
  count _ _ := World.relays_silent (fun hw => ⟨hw.faithful, hw.layers, hw.chains⟩) rfl
  run := hrun
  raw := hraw
  lastKey _ r := db.relays_lastKey hidle hkey _ r
  start _ _ := Driver.relays_start hidle _
  commit _ _ := db.relays_commitOrRollBack hidle
  rollback _ _ := db.relays_rollBackQuietly hidle
  wait := db.relays_waitAfter hidle

end Database

end Polyquery
