import Polyquery.Proofs.Leads
import Polyquery.Session.Transaction

/-! The way of a statement from a handle to its driver, through policy, layers and time limits. Main statement: where the
driver leads, and all that neither it nor the transactions are concerned with, the whole way leads. -/

namespace Polyquery

open Session

variable {σ α β : Type} {db : Database σ} {link : Link} {R : World σ → World σ → Prop}

/-! ### Statements behind the layers -/

/-- Whether an event tells what became of a statement. -/
def Event.isTold : Event → Bool
  | logged level .. => level = .debug
  | measured .. | reported .. => true
  | _ => false

/-- What holds of the statements on a link and of what is told of them, and of what is put together from them. -/
structure Database.Sends (db : Database σ) (link : Link) (P : ∀ {α : Type}, Session σ α → Prop) : Prop
    extends Sequences P where
  told : ∀ {event : Event}, event.isTold = true → P (emit event)
  /-- Which hooks there are may be asked. -/
  hooked : ∀ {k : Bool → Bool → Session σ Unit}, (∀ measures reports, P (k measures reports)) →
    P (get >>= fun w => k w.measures w.reports)
  prepare : ∀ sql, P (db.prepare link sql)
  execute : ∀ statement params, P (db.execute link statement params)

namespace Database.Sends

variable {P : ∀ {α : Type}, Session σ α → Prop} (S : db.Sends link P)
include S

theorem tune (sql : String) : P (db.tune link sql) := by
  refine S.bind (S.attempt (S.bind (S.prepare sql) fun statement =>
    S.bind (S.execute statement []) fun _ => S.settle (.ok ()))) fun outcome => ?_
  split
  · exact S.settle (.ok _)
  · split
    · exact S.bind (S.told rfl) fun _ => S.settle (.ok _)
    · exact S.settle (.error _)

theorem applyTimeout (timeout : Option Int) : P (db.applyTimeout link timeout) := by
  unfold Database.applyTimeout
  split
  · exact S.settle (.ok _)
  · split
    · exact S.settle (.ok _)
    · dsimp only
      split
      · exact S.settle (.ok _)
      · refine S.bind (S.tune _) fun _ => ?_
        split <;> exact S.settle (.ok _)

theorem report (c : Context) (r : Result) : P (report c r : Session σ Unit) := by
  have hwhen : ∀ {p : Bool} {event : Event} {k : Session σ Unit}, event.isTold = true → P k →
      P (if p then emit event >>= fun _ => k else k) := by
    intro p event k hevent hk
    cases p with
    | true => exact S.bind (S.told hevent) fun _ => hk
    | false => exact hk
  exact S.hooked (k := fun measures reports => do
    if measures then emit (.measured c.operation c.table r.size)
    if reports then emit (.reported c.sql c.params)
    log .debug "statement_executed"
      [("operation", .text c.operation.name), ("table", .ofText? c.table), ("route", .ofText? c.route),
       ("row_count", r.size)]) fun measures reports => hwhen rfl (hwhen rfl (S.told rfl))

theorem perform (statement : Prepared) (c : Context) : P (db.perform link statement c) := by
  refine S.bind (S.attempt (S.execute statement c.params)) fun outcome => ?_
  split
  · exact S.settle (.ok _)
  · refine S.bind ?_ fun _ => S.settle (.error _)
    unfold reportFailure
    split
    · exact S.settle (.ok _)
    · exact S.told rfl

/-- What holds of the statements on a link holds of one within its time limit. -/
theorem core (c : Context) : P (db.core link c) := by
  refine S.bind (S.prepare c.sql) fun statement => S.bind (S.applyTimeout c.timeout) fun lift =>
    S.bind (S.bind (S.attempt (S.perform statement c)) fun outcome => S.bind ?_ fun _ => S.settle outcome) fun result =>
      S.bind (S.report c result) fun _ => S.settle (.ok _)
  split
  · exact S.bind (S.tune _) fun _ => S.settle (.ok _)
  · exact S.settle (.ok _)

end Database.Sends

/-! ### The whole way -/

/-- The log record of a statement that goes no further. -/
def Context.dryRun (c : Context) : Event :=
  .logged .debug "statement_dry_run"
    [("operation", .text c.operation.name), ("table", .ofText? c.table), ("sql", .text c.sql)]

theorem outcome_askAll (guards : List Guard) (k : Unit → Session σ β) (w : World σ) :
    outcome (guards.forM (fun guard => emit (.guard guard.name)) >>= k) w =
      outcome (k ()) { w with journal := w.journal ++ guards.map fun guard => .guard guard.name } := by
  induction guards generalizing w with
  | nil => rw [List.map_nil, List.append_nil]; rfl
  | cons guard guards ih =>
      change outcome ((emit (.guard guard.name) >>= fun _ => guards.forM fun guard => emit (.guard guard.name)) >>= k) w = _
      rw [bind_assoc, outcome_emit_bind, ih, List.map_cons, List.append_assoc]
      rfl

/-- A statement that is rejected before a guard is asked is recorded, and nothing else happens. -/
theorem Database.outcome_runText_rejected {h : Handle} {sql : String} {params : List Value} {operation : Operation}
    {table : Option String} {timeout : Option Int} {f : Failure} {w : World σ}
    (hchecked : Policy.check db.settings.rules w.guards h.readonly
      { sql, params, operation, table, route := h.route, timeout } = ([], .error f)) :
    outcome (db.runText h sql params operation table timeout) w =
      (.error f, { w with recorder := w.recorder.record sql params }) := by
  have hlink : ∃ link, outcome (db.linkFor h operation) w = (.ok link, w) := ⟨_, rfl⟩
  obtain ⟨link, hlink⟩ := hlink
  rw [runText, outcome_bind_ok hlink, runContext, submitWithin, submitThrough, outcome_modify_bind, outcome_get_bind,
    hchecked]
  rfl

/-- A step that neither the outside world nor the transactions are concerned with. -/
structure World.Still (w w' : World σ) : Prop where
  outside : w'.outside = w.outside
  opened : ∀ link, (w'.link link).inTransaction = (w.link link).inTransaction
  depth : w'.depth = w.depth

theorem still_emit (event : Event) : Leads World.Still (emit event : Session σ Unit) :=
  fun _ => ⟨rfl, World.opened_eq rfl rfl rfl, rfl⟩

/-- What is composed for a link was so before and has as many layers as are registered, or it is composed of these. -/
theorem Database.outcome_chainFor (link : Link) (w : World σ) :
    (∃ chained ∈ w.chains, chained.link = link ∧ sameLayers chained.layers w.layers = true ∧
      outcome (chainFor link) w = (.ok chained, w)) ∨
    ∃ kept ⊆ w.chains, outcome (chainFor link) w =
      (.ok ⟨link, w.layers⟩, { w with chains := ⟨link, w.layers⟩ :: kept }) := by
  rw [chainFor, outcome_get_bind]
  cases hfound : w.chains.find? fun chained => chained.link = link && sameLayers chained.layers w.layers with
  | some chained =>
      have hsame : chained.link = link ∧ sameLayers chained.layers w.layers = true := by
        simpa using List.find?_some hfound
      exact .inl ⟨chained, List.mem_of_find?_eq_some hfound, hsame.1, hsame.2, rfl⟩
  | none => exact .inr ⟨_, List.filter_subset_self _, rfl⟩

/-- Whatever is composed for a link is composed over its driver. -/
theorem Database.outcome_chainFor_link (link : Link) (w : World σ) :
    ∃ layers chains, outcome (chainFor link) w = (.ok ⟨link, layers⟩, { w with chains }) := by
  rcases outcome_chainFor link w with ⟨chained, -, rfl, -, hfound⟩ | ⟨kept, -, hcomposed⟩
  · exact ⟨chained.layers, w.chains, hfound⟩
  · exact ⟨w.layers, _, hcomposed⟩

theorem still_prepare (d : Dialect) (link : Link) (sql : String) (c : Connection σ) :
    Leads World.Still ((Driver.connection c).prepare d link sql) := by
  intro w
  rw [after, Driver.outcome_prepare_connection]
  exact ⟨rfl, World.opened_eq rfl rfl rfl, rfl⟩

/-- A relation to which the statements on a link lead, and all that is still. -/
structure Database.Conveys (db : Database σ) (link : Link) (R : World σ → World σ → Prop) : Prop where
  still : ∀ {w w' : World σ}, w.Still w' → R w w'
  prepare : ∀ sql, Leads R (db.prepare link sql)
  execute : ∀ statement params, Leads R (db.execute link statement params)

namespace Database.Conveys

variable (V : db.Conveys link R)
include V

theorem emit (event : Event) : Leads R (emit event : Session σ Unit) := (still_emit event).mono V.still

variable [IsPreorder (World σ) R]

theorem sends : db.Sends link fun x => Leads R x where
  toSequences := sequences_leads R
  told _ := V.emit _
  hooked hk := leads_bind leads_get fun _ => hk _ _
  prepare := V.prepare
  execute := V.execute

/-- What a layer does leads where the rest of the way does, and what it submits. -/
theorem runPlan {own : Submission → Session σ Result} (hown : ∀ s, Leads R (own s)) {next : Context → Session σ Result}
    (hnext : ∀ c, Leads R (next c)) (plan : Plan) : Leads R (plan.run own next) := by
  induction plan with
  | finish outcome => exact leads_settle outcome
  | proceed c resume ih => exact leads_bind (leads_attempt (hnext c)) ih
  | submit submission resume ih => exact leads_bind (leads_attempt (hown submission)) ih
  | tell event rest ih => exact leads_bind (V.emit event) fun _ => ih
  | register number layer rest _ ih =>
      exact leads_bind (fun _ => V.still ⟨rfl, World.opened_eq rfl rfl rfl, rfl⟩) fun _ => ih
  | recollect resume ih => exact leads_bind leads_get fun w => ih w.journal

theorem through {own : Submission → Session σ Result} (hown : ∀ s, Leads R (own s)) {core : Context → Session σ Result}
    (hcore : ∀ c, Leads R (core c)) (layers : List Layer) : ∀ c, Leads R (Layer.through own core layers c) := by
  induction layers with
  | nil => exact hcore
  | cons layer layers ih => exact fun c => V.runPlan hown ih (layer.plan c)

theorem runContext (readonly testMode : Bool) (c : Context) : Leads R (db.runContext link readonly testMode c) := by
  unfold Database.runContext submitWithin submitThrough
  refine leads_bind (fun _ => V.still ⟨rfl, World.opened_eq rfl rfl rfl, rfl⟩) fun _ =>
    leads_bind leads_get fun w => ?_
  obtain ⟨asked, verdict⟩ := Policy.check db.settings.rules w.guards readonly c
  refine leads_bind (leads_forM fun guard _ => V.emit _) fun _ => leads_bind (leads_settle verdict) fun _ => ?_
  split
  · exact leads_bind (V.emit _) fun _ => leads_pure _
  · intro w
    obtain ⟨layers, chains, hchained⟩ := outcome_chainFor_link link w
    have hcomposed : R w { w with chains } := V.still ⟨rfl, World.opened_eq rfl rfl rfl, rfl⟩
    rw [after, outcome_bind_ok hchained]
    exact trans_of R hcomposed (V.through (fun _ => leads_throw tooDeep) V.sends.core layers c _)

theorem waitAfter (hsleep : ∀ pause, Leads R (outside (db.sleep pause))) (number : Nat) (f : Failure) :
    Leads R (db.waitAfter number f) :=
  leads_bind (leads_settle _) fun _ => leads_bind (V.emit _) fun _ => leads_bind (V.emit _) fun _ => hsleep _

end Database.Conveys

/-! ### Questions to the primary -/

namespace Database.Conveys

variable (V : db.Conveys .primary R) [IsPreorder (World σ) R]
include V

theorem lookUpColumn
    (hlisted : ∀ has, db.catalogue = .listed has → ∀ table column, Leads R (outside (has table column)))
    (table column : String) : Leads R (db.lookUpColumn table column) := by
  rw [lookUpColumn.eq_def]
  cases hcatalogue : db.catalogue with
  | queried => exact leads_bind (V.prepare _) fun _ => leads_bind (V.execute _ _) fun _ => leads_pure _
  | listed has => exact leads_bind (V.emit _) fun _ => hlisted has hcatalogue table column
  | reflected schema columns => exact leads_bind (V.emit _) fun _ => leads_pure _

theorem lastKey (hport : ∀ p, db.primary = .port p → Leads R (outside p.lastKey)) (h : Handle) (r : Result) :
    Leads R (db.lastKey h r) := by
  have hprepare := V.prepare
  have hexecute := V.execute
  unfold Database.prepare Database.execute Database.driver at *
  unfold Database.lastKey
  split
  · exact leads_pure _
  · split
    · exact leads_pure _
    · cases hprimary : db.primary with
      | port p => exact leads_bind (V.emit _) fun _ => hport p hprimary
      | connection c =>
          simp only [hprimary] at hprepare hexecute
          unfold Driver.lastKey
          dsimp only
          split
          · exact leads_bind leads_get fun _ => leads_pure _
          · exact leads_bind (hprepare _) fun statement => leads_bind (hexecute statement []) fun _ => leads_settle _

end Database.Conveys

end Polyquery
