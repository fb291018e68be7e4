import Polyquery.Proofs.Answers
import Polyquery.Proofs.Hooks

/-! Sessions in test mode. Their statements are recorded and judged, and go no further. Main statement: such a session has
no effects. All that a driver is asked is whether tables have columns; no transaction begins or ends; no layer runs and
nothing is reported; what is submitted is recorded in order; and what is answered is empty. -/

namespace Polyquery

open Session Rehearsal

variable {σ α β γ : Type} {db : Database σ} {h : Handle}

/-! ### What is left in the journal -/

/-- Whether an event comes from the session itself: a guard that is asked, a log record, or a wait. -/
def Event.isAside : Event → Bool
  | guard _ | logged .. | slept _ => true
  | _ => false

/-- Whether events are those that one lookup of a column leaves. -/
def Database.IsLookup (db : Database σ) (block : List Event) : Prop :=
  ∃ table column, (∃ w : World σ, (after (db.lookUpColumn table column) w).journal = w.journal ++ block) ∧
    ∀ event ∈ block, Event.OfLookup db.dialect table column event

/-- Worlds of one session without an effect between them: the journal goes on with lookups of columns, each of them as a
whole, and with events that come from the session itself, and the same transactions are open. -/
structure World.Rehearsed (db : Database σ) (w w' : World σ) : Prop where
  journal : ∃ blocks : List (List Event), w'.journal = w.journal ++ blocks.flatten ∧
    ∀ block ∈ blocks, db.IsLookup block ∨ ∃ event, block = [event] ∧ event.isAside = true
  faithful : w'.IsFaithful
  opened : ∀ link, (w'.link link).inTransaction = (w.link link).inTransaction

/-- What a step without effects does that starts with a faithful cache. -/
def World.Rehearses (db : Database σ) (w w' : World σ) : Prop := w.IsFaithful → w.Rehearsed db w'

section

variable {w w' w'' : World σ}

theorem World.rehearsed_aside {events : List Event} (hcache : w'.IsFaithful) (hjournal : w'.journal = w.journal ++ events)
    (haside : ∀ event ∈ events, event.isAside = true)
    (hopened : ∀ link, (w'.link link).inTransaction = (w.link link).inTransaction) : w.Rehearsed db w' := by
  refine ⟨⟨events.map fun event => [event], ?_, fun block hblock => ?_⟩, hcache, hopened⟩
  · rw [hjournal, ← List.flatMap_def, List.flatMap_singleton']
  · obtain ⟨event, hevent, rfl⟩ := List.mem_map.1 hblock
    exact .inr ⟨event, rfl, haside event hevent⟩

theorem World.Rehearsed.trans (h : w.Rehearsed db w') (h' : w'.Rehearsed db w'') : w.Rehearsed db w'' := by
  obtain ⟨blocks, hblocks, hkinds⟩ := h.journal
  obtain ⟨blocks', hblocks', hkinds'⟩ := h'.journal
  refine ⟨⟨blocks ++ blocks', ?_, List.forall_mem_append.2 ⟨hkinds, hkinds'⟩⟩, h'.faithful,
    fun link => (h'.opened link).trans (h.opened link)⟩
  rw [hblocks', hblocks, List.append_assoc, List.flatten_append]

theorem World.Kept.rehearsed (h : w.Kept (·.isAside = true) w') : w.Rehearsed db w' := by
  obtain ⟨events, hevents, haside⟩ := h.journal
  exact rehearsed_aside h.faithful hevents haside h.opened

instance : IsPreorder (World σ) (World.Rehearses db) where
  refl _ hw := World.rehearsed_aside hw (List.append_nil _).symm (List.forall_mem_nil _) fun _ => rfl
  trans _ _ _ h h' hw := (h hw).trans (h' (h hw).faithful)

/-- Whether an event is a driver's start, commit or rollback. -/
def Event.isBoundary : Event → Bool
  | driver _ .start | driver _ .commit | driver _ .rollback => true
  | _ => false

/-- Whether an event comes from a hook: from a layer, from what measures statements or from what they are reported to. -/
def Event.isHook : Event → Bool
  | layerEntered _ | layerLeft .. | layerFailed .. | layerCaught .. | layerSaw _ | measured .. | reported .. => true
  | _ => false

/-- Without an effect all that is executed asks for columns, and no event comes from the ends of transactions or from hooks. -/
theorem World.Rehearsed.events (h : w.Rehearsed db w') :
    ∃ events, w'.journal = w.journal ++ events ∧ ∀ event ∈ events,
      (∀ sent, event.executed? = some sent →
        ∃ table column, sent = (db.dialect.columnQuery, [.text table, .text column])) ∧
      event.isBoundary = false ∧ event.isHook = false := by
  obtain ⟨blocks, hblocks, hkinds⟩ := h.journal
  refine ⟨_, hblocks, fun event hevent => ?_⟩
  obtain ⟨block, hblock, hmem⟩ := List.mem_flatten.1 hevent
  rcases hkinds block hblock with ⟨table, column, -, hlookup⟩ | ⟨event', rfl, haside⟩
  · cases hlookup event hmem with
    | queried hstatement =>
        refine ⟨fun sent hsent => ⟨table, column, hstatement.eq_of_executed hsent⟩, ?_⟩
        cases hstatement <;> exact ⟨rfl, rfl⟩
    | listed => exact ⟨fun _ hsent => (by cases hsent), rfl, rfl⟩
    | reflected schema => exact ⟨fun _ hsent => (by cases hsent), rfl, rfl⟩
  · obtain rfl := List.mem_singleton.1 hmem
    cases event <;> cases haside <;> exact ⟨fun _ hsent => (by cases hsent), rfl, rfl⟩

end

/-! ### Statements in test mode -/

namespace Database

/-- In test mode a statement is recorded, the guards are asked, and if nothing stands against it the answer is empty. -/
theorem outcome_runText_dry (htest : h.testMode = true) (sql : String) (params : List Value) (operation : Operation)
    (table : Option String) (timeout : Option Int) (w : World σ) :
    let c : Context := { sql, params, operation, table, route := h.route, timeout }
    let checked := Policy.check db.settings.rules w.guards h.readonly c
    outcome (db.runText h sql params operation table timeout) w =
      (checked.2.map fun _ => {}, { w with
        recorder := w.recorder.record sql params
        journal := w.journal ++ checked.1.map (fun guard => Event.guard guard.name) ++
          if checked.2.isOk then [c.dryRun] else [] }) := by
  intro c checked
  have hlink : ∃ link, outcome (db.linkFor h operation) w = (.ok link, w) := ⟨_, rfl⟩
  obtain ⟨link, hlink⟩ := hlink
  rw [runText, outcome_bind_ok hlink, runContext, htest, submitWithin, submitThrough, outcome_modify_bind,
    outcome_get_bind]
  dsimp only
  change outcome (checked.1.forM (fun guard => emit (.guard guard.name)) >>= fun _ => settle checked.2 >>= _) _ = _
  rw [outcome_askAll]
  cases hverdict : checked.2 with
  | ok _ => rfl
  | error f =>
      rw [outcome_bind_error (outcome_settle (.error f) _)]
      simp [Except.map, Except.isOk, Except.toBool]

section

variable {sql : String} {params : List Value} {operation : Operation} {table : Option String} {timeout : Option Int}
  (htest : h.testMode = true)
include htest

theorem rehearses_runText : Leads (World.Rehearses db) (db.runText h sql params operation table timeout) := by
  intro w hw
  rw [after, outcome_runText_dry htest]
  refine World.rehearsed_aside hw (List.append_assoc ..) (List.forall_mem_append.2 ⟨?_, ?_⟩)
    (World.opened_eq rfl rfl rfl)
  · intro event hevent
    obtain ⟨guard, -, rfl⟩ := List.mem_map.1 hevent
    rfl
  · split
    · exact List.forall_mem_singleton.2 rfl
    · exact List.forall_mem_nil _

theorem unhooked_runText : Unhooked (db.runText h sql params operation table timeout) := by
  intro w v
  rw [ending, after, outcome_runText_dry htest, outcome_runText_dry htest]
  rfl

theorem lastKey_dry (r : Result) : db.lastKey h r = pure .null := if_pos htest

end

theorem keeps_waitAfter (db : Database σ) (number : Nat) (f : Failure) :
    Leads (World.Keeps (·.isAside = true)) (db.waitAfter number f) :=
  leads_bind (leads_settle _) fun _ => leads_bind (keeps_emit rfl) fun _ =>
    leads_bind (keeps_emit rfl) fun _ => keeps_outside _

/-- Handles in test mode have no effects. -/
theorem carries_rehearses (db : Database σ) : db.Carries (·.testMode = true) (fun x => Leads (World.Rehearses db) x) where
  toSequences := sequences_leads _
  read _ hk := leads_bind leads_get hk
  remember _ _ hw := World.Kept.rehearsed (World.kept_silent hw rfl (World.opened_eq rfl rfl rfl) rfl rfl rfl rfl)
  count _ w hw :=
    World.rehearsed_aside hw (List.append_nil _).symm (List.forall_mem_nil _) (World.opened_eq rfl rfl rfl)
  lookUp table column := by
    intro w hw
    have hkept := db.keeps_lookUpColumn table column w hw
    obtain ⟨block, hblock, hevents⟩ := hkept.journal
    refine ⟨⟨[block], ?_, List.forall_mem_singleton.2 (.inl ⟨table, column, ⟨w, hblock⟩, hevents⟩)⟩, hkept.faithful,
      hkept.opened⟩
    rw [hblock, List.flatten_singleton]
  run htest _ _ _ := rehearses_runText htest
  raw htest _ _ := rehearses_runText htest
  lastKey htest r := by
    rw [lastKey_dry htest]
    exact leads_pure _
  start htest hmode := absurd htest (Bool.eq_false_iff.1 hmode)
  commit htest hmode := absurd htest (Bool.eq_false_iff.1 hmode)
  rollback htest hmode := absurd htest (Bool.eq_false_iff.1 hmode)
  wait number f := (db.keeps_waitAfter number f).mono fun hkeeps hw => (hkeeps hw).rehearsed

/-- Handles in test mode pay no attention to hooks. -/
theorem carries_unhooked (db : Database σ) : db.Carries (·.testMode = true) Unhooked where
  toSequences := composes_unhooked.toSequences
  read hsame hk := unhooked_get_bind (fun _ _ => hsame _ _ rfl rfl) hk
  remember _ := unhooked_modify fun _ _ => rfl
  count _ := unhooked_modify fun _ _ => rfl
  lookUp := db.unhooked_lookUpColumn
  run htest _ _ _ := unhooked_runText htest
  raw htest _ _ := unhooked_runText htest
  lastKey htest r := by
    rw [lastKey_dry htest]
    exact unhooked_pure _
  start htest hmode := absurd htest (Bool.eq_false_iff.1 hmode)
  commit htest hmode := absurd htest (Bool.eq_false_iff.1 hmode)
  rollback htest hmode := absurd htest (Bool.eq_false_iff.1 hmode)
  wait number f :=
    unhooked_bind (unhooked_settle _) fun _ => unhooked_bind (unhooked_emit _) fun _ =>
      composes_unhooked.call (unhooked_emit _) _

end Database

/-! ### What is recorded -/

/-- A computation that records what it is noted to submit, in this order and behind what was recorded before. -/
def Session.Records (x : Session σ α) (notes : World σ → List Recorded) : Prop :=
  ∀ w : World σ, w.IsFaithful → (after x w).IsFaithful ∧ (after x w).recorder.history = w.recorder.history ++ notes w

section

variable {x : Session σ α} {notes : World σ → List Recorded}

theorem records_of_keeps {allowed : Event → Prop} (h : Leads (World.Keeps allowed) x) : Records x fun _ => [] := by
  intro w hw
  rw [(h w hw).recorder, List.append_nil]
  exact ⟨(h w hw).faithful, rfl⟩

theorem records_settle (o : Except Failure α) : Records (settle o : Session σ α) fun _ => [] := by
  intro w hw
  rw [after, outcome_settle, List.append_nil]
  exact ⟨hw, rfl⟩

theorem records_bind {k : α → Session σ β} {next : α → World σ → List Recorded} (hx : Records x notes)
    (hk : ∀ a, Records (k a) (next a)) :
    Records (x >>= k) fun w => notes w ++ notedBehind x next w := by
  intro w hw
  obtain ⟨hfaithful, hrecorded⟩ := hx w hw
  dsimp only
  rw [after, outcome_bind, notedBehind]
  cases ending x w with
  | ok a =>
      obtain ⟨hfaithful', hrecorded'⟩ := hk a _ hfaithful
      rw [hrecorded, List.append_assoc] at hrecorded'
      exact ⟨hfaithful', hrecorded'⟩
  | error f =>
      rw [List.append_nil]
      exact ⟨hfaithful, hrecorded⟩

theorem records_attempt (hx : Records x notes) : Records (attempt x) notes := hx

/-- What follows only failures: an answer goes on as it is. -/
theorem records_catching {k : Except Failure α → Session σ α} {next : Failure → World σ → List Recorded}
    (hx : Records x notes) (hok : ∀ a, k (.ok a) = pure a) (hk : ∀ f, Records (k (.error f)) (next f)) :
    Records (attempt x >>= k) fun w => notes w ++ notedCatching x next w := by
  intro w hw
  obtain ⟨hfaithful, hrecorded⟩ := hx w hw
  dsimp only
  rw [after, outcome_attempt_bind, notedCatching]
  cases ending x w with
  | ok a =>
      rw [hok, List.append_nil]
      exact ⟨hfaithful, hrecorded⟩
  | error f =>
      obtain ⟨hfaithful', hrecorded'⟩ := hk f _ hfaithful
      rw [hrecorded, List.append_assoc] at hrecorded'
      exact ⟨hfaithful', hrecorded'⟩

end

namespace Database

section

variable {x : Session σ α} {notes : World σ → List Recorded}

theorem records_runText (htest : h.testMode = true) {sql : String} {params : List Value} {operation : Operation}
    {table : Option String} {timeout : Option Int} :
    Records (db.runText h sql params operation table timeout) fun _ => [⟨sql, params⟩] := by
  intro w hw
  rw [after, outcome_runText_dry htest]
  exact ⟨hw, Recorder.history_record ..⟩

theorem records_tryOnce (hx : Records x notes) : Records (db.tryOnce true x) fun w => notes (db.begin true w) := by
  intro w hw
  have htry : outcome (db.tryOnce true x) w = outcome (db.close true (ending x (db.begin true w)))
      (after x (db.begin true w)).unwound := rfl
  rw [after, htry, outcome_close_dry]
  exact hx (db.begin true w) hw

/-- Every attempt records. -/
theorem records_tryAgain (hx : Records x notes) (more : Nat) :
    ∀ number, Records (db.tryAgain true x more number) (db.notedAgain true x notes more number) := by
  induction more with
  | zero => exact fun number => records_tryOnce hx
  | succ more ih =>
      intro number
      refine records_catching (records_tryOnce hx) (fun a => rfl) fun f => ?_
      by_cases hretry : db.isRetryable f = true
      · simp only [if_pos hretry]
        exact records_bind (records_of_keeps (db.keeps_waitAfter number f)) fun _ => ih (number + 1)
      · simp only [if_neg hretry]
        exact records_settle (.error f)

theorem records_transaction {dry : Bool} (hdry : dry = true) (hx : Records x notes) (attempts : Value) :
    Records (db.transaction dry attempts x) (db.noted dry attempts x notes) := by
  subst hdry
  intro w hw
  rw [noted]
  by_cases hdepth : 0 < w.depth
  · rw [if_pos hdepth, after, transaction_nested _ _ _ hdepth]
    exact hx w hw
  · rw [if_neg hdepth]
    obtain ⟨hunasked, hasked⟩ := db.transaction_outermost true attempts x (Nat.eq_zero_of_not_pos hdepth)
    cases hattempts : db.settings.retry.attemptsFrom attempts with
    | error f =>
        rw [after, hunasked f hattempts, List.append_nil]
        exact ⟨hw, rfl⟩
    | ok n =>
        rw [after, hasked n hattempts]
        dsimp only
        split
        · rw [List.append_nil]
          exact ⟨hw, rfl⟩
        · exact records_tryAgain hx _ 1 w hw

/-- Requests through a handle in test mode record what they submit. -/
theorem noting_records (htest : h.testMode = true) :
    (db.access h).Relates (db.noting h) (fun _ => True) fun x y => y.session = x ∧ Records x y.notes where
  pure a := ⟨rfl, records_settle (.ok a)⟩
  throw f := ⟨rfl, records_settle (.error f)⟩
  bind := by
    rintro α β x y k l ⟨rfl, hx⟩ hk
    exact ⟨congrArg (y.session >>= ·) (funext fun a => (hk a).1), records_bind hx fun a => (hk a).2⟩
  known_bind {_ _ o _ _} hk := by
    cases o with
    | ok a => exact hk a rfl
    | error f => exact ⟨rfl, records_settle (.error f)⟩
  dialect := rfl
  compiler {α} {k} {l} table hk := by
    have hcompiler := records_of_keeps (db.consults_keeps.compiler h table)
    have hrecords := records_bind hcompiler fun c => (hk c trivial).2
    exact ⟨congrArg (db.compiler h table >>= ·) (funext fun c => (hk c trivial).1), hrecords⟩
  hasColumn table column := ⟨rfl, records_of_keeps (db.consults_keeps.hasColumn table column)⟩
  run _ _ timeout := ⟨rfl, records_runText htest⟩
  lastKey r := by
    refine ⟨rfl, ?_⟩
    change Records (db.lastKey h r) fun _ => []
    rw [lastKey_dry htest]
    exact records_settle (.ok Value.null)
  transaction := by
    rintro x y ⟨rfl, hx⟩
    exact ⟨rfl, records_transaction htest hx .null⟩

end

end Database

theorem Course.records (course : Course (·.testMode = true) α) : Records (course.play db) (course.noted db) := by
  induction course with
  | done outcome => exact records_settle outcome
  | query h ok q e next ih =>
      obtain ⟨-, hrecords⟩ := (Database.noting_records ok).answer q e
      exact records_bind (records_attempt hrecords) ih
  | raw h ok sql params next ih => exact records_bind (records_attempt (Database.records_runText ok)) ih
  | transaction h ok attempts work next ihWork ih =>
      exact records_bind (records_attempt (Database.records_transaction ok ihWork attempts)) ih

/-! ### What is answered -/

namespace Database

theorem yields_runText (htest : h.testMode = true) {sql : String} {params : List Value} {operation : Operation}
    {table : Option String} {timeout : Option Int} :
    Yields (db.runText h sql params operation table timeout) (· = {}) := by
  intro w r hr
  rw [ending, outcome_runText_dry htest] at hr
  obtain ⟨_, -, rfl⟩ := map_eq_ok.1 hr
  rfl

end Database

/-- What a request answers when its statements bring nothing back. Some requests run no statement. -/
def Rehearsal.Ending.empty? : Ending → Option Answer
  | statement | state => none
  | rows => some (.rows [])
  | existence => some (.value (.bool false))
  | count | sum _ => some (.value (.int 0))
  | firstRow | average _ | least _ | greatest _ => some (.value .null)
  | pluck _ .null => some (.values [])
  | pluck _ _ => some (.value (.map []))
  | page .. => some (.page ⟨[], .null⟩)
  | insert .. | insertGet .. => some (.value .null)
  | insertMany _ | update _ | delete _ | restore | upsert .. | jsonUpdate .. => some (.value (.int 0))

section

variable (htest : h.testMode = true) (q : Query)
include htest

theorem yields_perform (compile : Compiler → Except Failure Statement) :
    Yields (Query.perform (db.access h) q compile) (· = {}) :=
  yields_then fun _ => yields_then fun _ => Database.yields_runText htest

theorem yields_get : Yields (Query.get (db.access h) q) (· = []) :=
  yields_bind (yields_perform htest q _) fun _ hr => yields_pure (by rw [hr])

theorem yields_first : Yields (Query.first (db.access h) q) (· = none) :=
  yields_bind (yields_get htest _) fun _ hrows => yields_pure (by rw [hrows]; rfl)

theorem yields_aggregate (expression label : String) :
    Yields (Query.aggregate (db.access h) q expression label) (· = .null) :=
  yields_bind (yields_get htest _) fun _ hrows => yields_pure (by rw [hrows]; rfl)

theorem yields_aggregateOf (function : String) (column : Value) (label : String) :
    Yields (Query.aggregateOf (db.access h) q function column label) (· = .null) :=
  yields_then fun _ => yields_aggregate htest q _ label

theorem yields_count : Yields (Query.count (db.access h) q) (· = 0) :=
  yields_bind (yields_aggregate htest q _ _) fun value hvalue => yields_known fun n hn => by
    rw [hvalue] at hn
    cases hn
    rfl

theorem yields_insert (row : Row) (key : Value) : Yields (Query.insert (db.access h) q row key) (· = .null) := by
  have hlast : ∀ r, Yields ((db.access h).lastKey r) (· = .null) := by
    intro r
    change Yields (db.lastKey h r) _
    rw [Database.lastKey_dry htest]
    exact yields_pure rfl
  refine yields_then fun key => yields_bind (yields_perform htest q _) fun result hresult => ?_
  rw [hresult]
  split
  · rename_i hrows
    cases hrows
  · exact hlast _

theorem yields_rowcount (compile : Compiler → Except Failure Statement) :
    Yields (do return (← Query.perform (db.access h) q compile).rowcount) (· = .int 0) :=
  yields_bind (yields_perform htest q compile) fun _ hr => yields_pure (by rw [hr])

theorem yields_upsert (row : Row) (conflict update : Value) :
    Yields (Query.upsert (db.access h) q row conflict update) (· = .int 0) := by
  refine yields_then fun columns => ?_
  split
  · exact yields_rowcount htest q _
  · refine yields_then fun conflict => Database.yields_transaction ?_ db _ _
    have hrun : ∀ {s : Statement}, Yields (do return (← (db.access h).run s q.table q.timeout).rowcount) (· = .int 0) :=
      yields_bind (Database.yields_runText htest) fun _ hr => yields_pure (by rw [hr])
    refine yields_then fun c => yields_then fun found => yields_then fun counting => yields_then fun counted =>
      yields_then fun isThere => ?_
    cases isThere <;> exact yields_then fun s => hrun

theorem yields_pluck (column : Value) : Yields (Query.pluck (db.access h) q column) (· = []) :=
  yields_bind (yields_get htest _) fun _ hrows => yields_then fun _ => yields_pure (by rw [hrows]; rfl)

theorem yields_pluckBy (column key : Value) : Yields (Query.pluckBy (db.access h) q column key) (· = []) :=
  yields_bind (yields_get htest _) fun _ hrows => yields_then fun _ => yields_then fun _ => yields_known fun _ hentries => by
    rw [hrows] at hentries
    exact (Except.ok.inj hentries).symm

theorem yields_keysetPage (cursor key : Value) : Yields (Query.keysetPage (db.access h) q cursor key) (· = ⟨[], .null⟩) := by
  refine yields_then fun projected => yields_then fun name => ?_
  cases projected with
  | true => exact yields_bind (yields_get htest _) fun _ hrows => yields_pure (by rw [hrows]; rfl)
  | false => exact yields_throw _

theorem yields_insertMany (rows : List Row) : Yields (Query.insertMany (db.access h) q rows) (· = .int 0) := by
  unfold Query.insertMany
  split
  · exact yields_pure rfl
  · exact yields_rowcount htest q _

theorem yields_insertGet (row : Row) (columns key : Value) :
    Yields (Query.insertGet (db.access h) q row columns key) (· = none) := by
  unfold Query.insertGet
  split
  · exact yields_bind (yields_perform htest q _) fun _ hr => yields_pure (by rw [hr]; rfl)
  · refine yields_bind (yields_insert htest q row key) fun id hid => ?_
    rw [hid]
    exact yields_pure rfl

theorem yields_restore : Yields (Query.restore (db.access h) q) (· = .int 0) := by
  refine yields_then fun c => yields_then fun statement => ?_
  cases statement with
  | none => exact yields_pure rfl
  | some s => exact yields_bind (Database.yields_runText htest) fun _ hr => yields_pure (by rw [hr])

/-- In test mode a request that answers answers nothing. -/
theorem yields_empty {e : Ending} {empty : Answer} (hempty : e.empty? = some empty) :
    Yields (e.answer (db.access h) q) (· = empty) := by
  have htold : ∀ {α : Type} {x : Session σ α} {a : α} {tell : α → Answer}, Yields x (· = a) →
      some (tell a) = some empty → Yields (do return tell (← x)) (· = empty) := fun hx htell =>
    yields_bind hx fun _ ha => yields_pure ((congrArg _ ha).trans (Option.some.inj htell))
  cases e with
  | statement => cases hempty
  | state => cases hempty
  | rows => exact htold (yields_get htest q) hempty
  | firstRow => exact htold (yields_first htest q) hempty
  | existence => exact htold (yields_bind (yields_count htest q) fun n hn => yields_pure (by rw [hn]; rfl)) hempty
  | count => exact htold (yields_count htest q) hempty
  | sum column =>
      exact htold (yields_bind (yields_aggregateOf htest q _ column _) fun v hv => yields_pure (by rw [hv]; rfl)) hempty
  | average column => exact htold (yields_aggregateOf htest q _ column _) hempty
  | least column => exact htold (yields_aggregateOf htest q _ column _) hempty
  | greatest column => exact htold (yields_aggregateOf htest q _ column _) hempty
  | pluck column key =>
      cases key with
      | null => exact htold (yields_pluck htest q column) hempty
      | _ => exact htold (yields_pluckBy htest q column _) hempty
  | page cursor key => exact htold (yields_keysetPage htest q cursor key) hempty
  | insert row key => exact htold (yields_insert htest q row key) hempty
  | insertMany rows => exact htold (yields_insertMany htest q rows) hempty
  | insertGet row columns key => exact htold (yields_insertGet htest q row columns key) hempty
  | update values => exact htold (yields_rowcount htest q _) hempty
  | delete forced => exact htold (yields_rowcount htest q _) hempty
  | restore => exact htold (yields_restore htest q) hempty
  | upsert row conflict columns => exact htold (yields_upsert htest q row conflict columns) hempty
  | jsonUpdate column values => exact htold (yields_rowcount htest q _) hempty

end

/-- A session in test mode has no effects. Drivers are asked for columns and for nothing else, and neither hooks nor the
ends of transactions take part; under other hooks all is the same. What was submitted is recorded in order. Each request
and each text that is answered is answered with nothing. -/
theorem Course.play_dry (db : Database σ) (course : Course (·.testMode = true) α) {w : World σ} (hw : w.IsFaithful) :
    let w' := after (course.play db) w
    w.Rehearsed db w' ∧
    (∃ events, w'.journal = w.journal ++ events ∧ ∀ event ∈ events,
      (∀ sent, event.executed? = some sent →
        ∃ table column, sent = (db.dialect.columnQuery, [.text table, .text column])) ∧
      event.isBoundary = false ∧ event.isHook = false) ∧
    (∀ v, outcome (course.play db) (w.hooked v) = (ending (course.play db) w, w'.hooked v)) ∧
    w'.recorder.history = w.recorder.history ++ course.noted db w ∧
    ∀ h : Handle, h.testMode = true →
      (∀ (q : Query) (e : Ending) (empty : Answer), e.empty? = some empty → Yields (e.answer (db.access h) q) (· = empty)) ∧
      ∀ sql params, Yields (db.raw h sql params) (· = {}) := by
  intro w'
  have hrehearsed : w.Rehearsed db w' := course.carried db.carries_rehearses w hw
  exact ⟨hrehearsed, hrehearsed.events, course.carried db.carries_unhooked w, (course.records w hw).2,
    fun h htest => ⟨fun q e empty hempty => yields_empty htest q hempty, fun sql params => Database.yields_runText htest⟩⟩

/-- An upsert in steps and a deletion, both inside a transaction. -/
def rehearsedUpsert : Course (·.testMode = true) Result :=
  .transaction { testMode := true } rfl .null
    (.query { testMode := true } rfl { table := "t" }
        (.upsert [(.text "id", .int 1), (.text "v", .int 2)] (.list [.text "id"]) .null) fun _ =>
      .raw { testMode := true } rfl "DELETE FROM t" [] .done)
    .done

theorem play_dry_upsert :
    let db : Database Unit := { Database.ready with dialect := .ansi }
    let w := after (rehearsedUpsert.play db) { outside := () }
    (∀ v, outcome (rehearsedUpsert.play db) (World.hooked { outside := () } v) =
      (ending (rehearsedUpsert.play db) { outside := () }, w.hooked v)) ∧
    w.recorder.history.map (·.sql) =
      ["SELECT COUNT(1) AS c FROM \"t\" WHERE \"id\" = ?", "INSERT INTO \"t\" (\"id\", \"v\") VALUES (?, ?)",
        "DELETE FROM t"] := by
  intro db w
  obtain ⟨-, -, hhooks, hhistory, -⟩ := Course.play_dry db rehearsedUpsert (w := { outside := () }) (List.forall_mem_nil _)
  refine ⟨hhooks, ?_⟩
  rw [hhistory]
  decide +kernel

end Polyquery
