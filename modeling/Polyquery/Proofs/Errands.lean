import Polyquery.Proofs.Level
import Polyquery.Proofs.Passing
import Polyquery.Proofs.Routing

/-! Sessions that are traced. The trace of a session is the list of its errands: the statements that handles submit, each
with the world in which it is submitted. Main statement: whatever goes on through the handles of a database, all that is
executed on the replica is executed for errands, in their order; such an errand is a selection as the compiler wrote it, of
a handle that is routed to the replica, at a time when no transaction is open. A unit of work, of whatever handle, executes
nothing there. -/

namespace Polyquery

open Session Rehearsal

variable {σ α β : Type} {db : Database σ} {h : Handle} {allowed : Handle → Prop}

/-! ### Errands -/

/-- A statement that a handle submits, and the world in which it does. -/
structure Errand (σ : Type) where
  handle : Handle
  sql : String
  params : List Value
  operation : Operation
  table : Option String
  timeout : Option Int
  world : World σ

/-- The statement that an event executes over a link. -/
def Event.executedOver? (link : Link) : Event → Option Sent
  | driver other (.execute sql params) | wire other (.execute sql params) =>
    if other = link then some (sql, params) else none
  | _ => none

namespace Errand

/-- What an errand has the session do. -/
def session (db : Database σ) (e : Errand σ) : Session σ Result :=
  db.runText e.handle e.sql e.params e.operation e.table e.timeout

/-- What an errand executes over a link, by the events that it adds to the journal. -/
def executed (db : Database σ) (link : Link) (e : Errand σ) : List Sent :=
  ((after (e.session db) e.world).journal.drop e.world.journal.length).filterMap (Event.executedOver? link)

/-- Whether an errand is of a handle of a kind, over layers that pass contexts on, and compiled if it is a selection. -/
structure IsGenuine (allowed : Handle → Prop) (e : Errand σ) : Prop where
  passing : e.world.Passing
  handle : allowed e.handle
  compiled : e.operation = .select → ∃ c q s, Compiler.select c q = .ok s ∧ e.sql = s.sql ∧ e.params = s.params

end Errand

/-! ### Traces -/

/-- A session with the errands that it runs from each world. -/
structure Tracing (σ α : Type) where
  session : Session σ α
  errands : World σ → List (Errand σ)

namespace Tracing

/-- The errands of a computation and of what follows on its outcome. -/
def errandsThen (x : Tracing σ α) (next : Except Failure α → World σ → List (Errand σ)) (w : World σ) :
    List (Errand σ) :=
  x.errands w ++ next (ending x.session w) (after x.session w)

instance : Monad (Tracing σ) where
  pure a := ⟨pure a, fun _ => []⟩
  bind x k := ⟨x.session >>= fun a => (k a).session, x.errandsThen fun
    | .ok a => (k a).errands
    | .error _ => fun _ => []⟩

instance : MonadExceptOf Failure (Tracing σ) where
  throw f := ⟨throw f, fun _ => []⟩
  tryCatch x handle := ⟨tryCatch x.session fun f => (handle f).session, x.errandsThen fun
    | .ok _ => fun _ => []
    | .error f => (handle f).errands⟩

/-- A session without errands. -/
def quietly (x : Session σ α) : Tracing σ α := ⟨x, fun _ => []⟩

/-- A traced session that answers the outcome of another. -/
def attempt (x : Tracing σ α) : Tracing σ (Except Failure α) := ⟨Session.attempt x.session, x.errands⟩

end Tracing

namespace Database

open Tracing

/-- A text that is run for a handle is an errand. -/
def tracedText (db : Database σ) (h : Handle) (sql : String) (params : List Value) (operation : Operation)
    (table : Option String) (timeout : Option Int) : Tracing σ Result where
  session := db.runText h sql params operation table timeout
  errands w := [⟨h, sql, params, operation, table, timeout, w⟩]

/-- One attempt at a traced unit of work. -/
def tracedOnce (db : Database σ) (dry : Bool) (work : Tracing σ α) : Tracing σ α := do
  unless dry do quietly (db.primary.start .primary)
  quietly (modify fun w => { w with depth := w.depth + 1 })
  let outcome ← work.attempt
  quietly (modify fun w => { w with depth := w.depth - 1 })
  quietly (db.close dry outcome)

/-- Attempts at a traced unit of work. -/
def tracedAgain (db : Database σ) (dry : Bool) (work : Tracing σ α) : Nat → Nat → Tracing σ α
  | 0, _ => db.tracedOnce dry work
  | more + 1, number => do
    match ← (db.tracedOnce dry work).attempt with
    | .ok a => pure a
    | .error f =>
      if db.isRetryable f then do
        quietly (db.waitAfter number f)
        db.tracedAgain dry work more (number + 1)
      else throw f

/-- A traced unit of work as a transaction. -/
def traced (db : Database σ) (dry : Bool) (attempts : Value) (work : Tracing σ α) : Tracing σ α := do
  if 0 < (← quietly get).depth then work
  else
    let attempts ← quietly (settle (db.settings.retry.attemptsFrom attempts))
    if attempts < 1 then throw (.badValue "attempts must be >= 1")
    else do
      match ← (db.tracedAgain dry work (attempts.toNat - 1) 1).attempt with
      | .ok a => pure a
      | .error f => throw (leaving f)

/-- What a handle lets its queries do, with a trace. -/
def tracing (db : Database σ) (h : Handle) : Access (Tracing σ) where
  dialect := db.dialect
  compiler table := quietly (db.compiler h table)
  hasColumn table column := quietly (db.hasColumn table column)
  run s table timeout := db.tracedText h s.sql s.params s.operation (some table) timeout
  lastKey r := quietly (db.lastKey h r)
  transaction := db.traced h.testMode .null

end Database

/-- A course on a database with a trace. -/
def Course.traced (db : Database σ) {α : Type} : Course allowed α → Tracing σ α
  | done outcome => .quietly (settle outcome)
  | query h _ q e next => do
    let outcome ← (e.answer (db.tracing h) q).attempt
    (next outcome).traced db
  | raw h _ sql params next => do
    let outcome ← (db.tracedText h sql params .raw none none).attempt
    (next outcome).traced db
  | transaction h _ attempts work next => do
    let outcome ← (db.traced h.testMode attempts (work.traced db)).attempt
    (next outcome).traced db

/-! ### A traced session is the session -/

namespace Database

theorem session_tracedOnce (db : Database σ) (dry : Bool) (work : Tracing σ α) :
    (db.tracedOnce dry work).session = db.tryOnce dry work.session := by
  cases dry <;> rfl

theorem session_tracedAgain (db : Database σ) (dry : Bool) (work : Tracing σ α) (more : Nat) :
    ∀ number, (db.tracedAgain dry work more number).session = db.tryAgain dry work.session more number := by
  induction more with
  | zero => exact fun _ => db.session_tracedOnce dry work
  | succ more ih =>
      intro number
      rw [tryAgain, ← session_tracedOnce]
      refine congrArg (Session.attempt (db.tracedOnce dry work).session >>= ·) (funext fun outcome => ?_)
      cases outcome with
      | ok a => rfl
      | error f =>
          by_cases hretry : db.isRetryable f = true
          · simp only [if_pos hretry]
            exact congrArg (db.waitAfter number f >>= ·) (funext fun _ => ih (number + 1))
          · simp only [if_neg hretry]
            rfl

theorem session_traced (db : Database σ) (dry : Bool) (attempts : Value) (work : Tracing σ α) :
    (db.traced dry attempts work).session = db.transaction dry attempts work.session := by
  refine congrArg (get >>= ·) (funext fun w => ?_)
  by_cases hdepth : 0 < w.depth
  · simp only [if_pos hdepth]
  · simp only [if_neg hdepth]
    refine congrArg (settle _ >>= ·) (funext fun n => ?_)
    by_cases hnone : n < 1
    · simp only [if_pos hnone]
      rfl
    · simp only [if_neg hnone]
      rw [← session_tracedAgain]
      refine congrArg (Session.attempt _ >>= ·) (funext fun outcome => ?_)
      cases outcome <;> rfl

end Database

/-! ### What is executed over a link -/

/-- Whether an event executes nothing on the replica. -/
def Event.IsOffReplica (event : Event) : Prop := event.executedOver? .replica = none

theorem Event.executedOver?_of_none {event : Event} (h : event.executed? = none) (link : Link) :
    event.executedOver? link = none := by
  cases event with
  | driver _ call | wire _ call => cases call <;> first | rfl | cases h
  | _ => rfl

theorem Event.isOffReplica_of_none {event : Event} (h : event.executed? = none) : event.IsOffReplica :=
  executedOver?_of_none h .replica

theorem Event.OfStatement.over {link other : Link} {sql : String} {params : List Value} {event : Event} {sent : Sent}
    (h : OfStatement link sql params event) (hsent : event.executedOver? other = some sent) :
    other = link ∧ sent = (sql, params) := by
  cases h with
  | executed | sent =>
      rw [executedOver?] at hsent
      split at hsent
      · rename_i hlink
        exact ⟨hlink.symm, (Option.some.inj hsent).symm⟩
      · cases hsent
  | _ => cases hsent

theorem Event.OfStatement.isOffReplica {sql : String} {params : List Value} {event : Event}
    (h : OfStatement .primary sql params event) : event.IsOffReplica := by
  cases hsent : event.executedOver? .replica with
  | none => exact hsent
  | some sent => cases (h.over hsent).1

theorem Event.OfLookup.isOffReplica {d : Dialect} {table column : String} {event : Event}
    (h : OfLookup d table column event) : event.IsOffReplica := by
  cases h with
  | queried h => exact h.isOffReplica
  | listed | reflected => rfl

/-- What a context executes over layers that pass it on: on its link its own text, and those that tune its time limit. -/
def Context.Executes (db : Database σ) (link : Link) (c : Context) (event : Event) : Prop :=
  ∀ other sent, event.executedOver? other = some sent → other = link ∧
    (sent = (c.sql, c.params) ∨ sent.2 = [] ∧ (db.dialectOf link).Tunes c.timeout sent.1)

theorem Database.relays_own (db : Database σ) (link : Link) (readonly testMode : Bool) (c : Context) :
    Leads (World.Relays (c.Executes db link)) (db.runContext link readonly testMode c) := by
  refine relays_runContext ?_ ?_ ?_ readonly testMode
  · intro event hidle other sent hsent
    rw [Event.executedOver?_of_none hidle] at hsent
    cases hsent
  · intro event hevent other sent hsent
    obtain ⟨hlink, hown⟩ := hevent.over hsent
    exact ⟨hlink, .inl hown⟩
  · intro sql htunes event hevent other sent hsent
    obtain ⟨hlink, rfl⟩ := hevent.over hsent
    exact ⟨hlink, .inr ⟨rfl, htunes⟩⟩

namespace Errand

/-- The context that an errand makes. -/
def context (e : Errand σ) : Context :=
  { sql := e.sql, params := e.params, operation := e.operation, table := e.table, route := e.handle.route,
    timeout := e.timeout }

/-- An errand runs its context over the link that its handle sends it on at the time. -/
theorem relays (db : Database σ) (e : Errand σ) :
    World.Relays (e.context.Executes db (db.linkOf e.handle e.operation e.world.depth)) e.world
      (after (e.session db) e.world) :=
  db.relays_own _ e.handle.readonly e.handle.testMode e.context e.world

/-- What an errand executes is executed by the events that it leaves. -/
theorem executed_eq {e : Errand σ} {events : List Event}
    (h : (after (e.session db) e.world).journal = e.world.journal ++ events) (link : Link) :
    e.executed db link = events.filterMap (Event.executedOver? link) := by
  rw [executed, h, List.drop_left]

theorem executes_of_mem {e : Errand σ} (hpassing : e.world.Passing) {link : Link} {sent : Sent}
    (h : sent ∈ e.executed db link) :
    link = db.linkOf e.handle e.operation e.world.depth ∧
      (sent = (e.sql, e.params) ∨ sent.2 = [] ∧ (db.dialectOf link).Tunes e.timeout sent.1) := by
  obtain ⟨-, events, hevents, hexecutes⟩ := e.relays db hpassing
  rw [executed_eq hevents, List.mem_filterMap] at h
  obtain ⟨event, hmem, hsent⟩ := h
  obtain ⟨rfl, htext⟩ := hexecutes event hmem link sent hsent
  exact ⟨rfl, htext⟩

end Errand

/-! ### Traces tell what is executed -/

/-- A step and its errands: layers go on to pass contexts on, and what is executed on the replica is what the errands
execute there. -/
structure World.Traced (db : Database σ) (allowed : Handle → Prop) (w w' : World σ) (errands : List (Errand σ)) :
    Prop where
  passing : w'.Passing
  journal : ∃ events, w'.journal = w.journal ++ events ∧
    events.filterMap (Event.executedOver? .replica) = errands.flatMap (Errand.executed db .replica)
  genuine : ∀ e ∈ errands, e.IsGenuine allowed

theorem World.Traced.trans {w w' w'' : World σ} {errands errands' : List (Errand σ)} (h : w.Traced db allowed w' errands)
    (h' : w'.Traced db allowed w'' errands') : w.Traced db allowed w'' (errands ++ errands') := by
  obtain ⟨events, hevents, hsent⟩ := h.journal
  obtain ⟨events', hevents', hsent'⟩ := h'.journal
  refine ⟨h'.passing, ⟨events ++ events', ?_, ?_⟩, List.forall_mem_append.2 ⟨h.genuine, h'.genuine⟩⟩
  · rw [hevents', hevents, List.append_assoc]
  · rw [List.filterMap_append, hsent, hsent', List.flatMap_append]

theorem World.traced_self {w : World σ} (hw : w.Passing) : w.Traced db allowed w [] :=
  ⟨hw, ⟨[], (List.append_nil _).symm, rfl⟩, List.forall_mem_nil _⟩

/-- A traced session whose errands account for what it executes on the replica. -/
def Tracing.Accounts (db : Database σ) (allowed : Handle → Prop) (x : Tracing σ α) : Prop :=
  ∀ w : World σ, w.Passing → w.Traced db allowed (after x.session w) (x.errands w)

namespace Tracing

theorem accounts_quietly {x : Session σ α} (h : Leads (World.Relays Event.IsOffReplica) x) :
    (quietly x).Accounts db allowed := by
  intro w hw
  obtain ⟨hpassing, events, hevents, hoff⟩ := h w hw
  exact ⟨hpassing, ⟨events, hevents, List.filterMap_eq_nil_iff.2 hoff⟩, List.forall_mem_nil _⟩

theorem accounts_settle (o : Except Failure α) : (quietly (settle o)).Accounts db allowed :=
  accounts_quietly (leads_settle o)

theorem accounts_bind {x : Tracing σ α} {k : α → Tracing σ β} (hx : x.Accounts db allowed)
    (hk : ∀ a, (k a).Accounts db allowed) : (x >>= k).Accounts db allowed := by
  intro w hw
  have hfirst := hx w hw
  refine hfirst.trans ?_
  have hsession : after (x >>= k).session w = (outcome (x.session >>= fun a => (k a).session) w).2 := rfl
  rw [hsession, outcome_bind]
  cases ending x.session w with
  | ok a => exact hk a _ hfirst.passing
  | error f => exact World.traced_self hfirst.passing

theorem accounts_attempt {x : Tracing σ α} (hx : x.Accounts db allowed) : x.attempt.Accounts db allowed := hx

end Tracing

namespace Database

open Tracing

/-- An errand accounts for itself. -/
theorem accounts_tracedText (hallowed : allowed h) {sql : String} {params : List Value} {operation : Operation}
    (hcompiled : operation = .select → ∃ c q s, Compiler.select c q = .ok s ∧ sql = s.sql ∧ params = s.params)
    (table : Option String) (timeout : Option Int) :
    (db.tracedText h sql params operation table timeout).Accounts db allowed := by
  intro w hw
  let e : Errand σ := ⟨h, sql, params, operation, table, timeout, w⟩
  obtain ⟨hpassing, events, hevents, -⟩ := e.relays db hw
  refine ⟨hpassing, ⟨events, hevents, ?_⟩, List.forall_mem_singleton.2 ⟨hw, hallowed, hcompiled⟩⟩
  change _ = [e].flatMap (Errand.executed db .replica)
  rw [List.flatMap_singleton, Errand.executed_eq hevents]

theorem relays_depth (change : Nat → Nat) :
    Leads (World.Relays Event.IsOffReplica) (modify fun w => { w with depth := change w.depth } : Session σ Unit) :=
  fun _ => World.relays_silent (fun hw => ⟨hw.faithful, hw.layers, hw.chains⟩) rfl

theorem accounts_tracedOnce (dry : Bool) {work : Tracing σ α} (hwork : work.Accounts db allowed) :
    (db.tracedOnce dry work).Accounts db allowed := by
  have hinside : Tracing.Accounts db allowed (do
      quietly (modify fun w => { w with depth := w.depth + 1 })
      let outcome ← work.attempt
      quietly (modify fun w => { w with depth := w.depth - 1 })
      quietly (db.close dry outcome)) :=
    accounts_bind (accounts_quietly (relays_depth (· + 1))) fun _ => accounts_bind (accounts_attempt hwork) fun outcome =>
      accounts_bind (accounts_quietly (relays_depth (· - 1))) fun _ =>
        accounts_quietly (relays_close Event.isOffReplica_of_none dry outcome)
  cases dry with
  | true => exact hinside
  | false => exact accounts_bind (accounts_quietly (Driver.relays_start Event.isOffReplica_of_none _)) fun _ => hinside

theorem accounts_tracedAgain (dry : Bool) {work : Tracing σ α} (hwork : work.Accounts db allowed) (more : Nat) :
    ∀ number, (db.tracedAgain dry work more number).Accounts db allowed := by
  induction more with
  | zero => exact fun _ => accounts_tracedOnce dry hwork
  | succ more ih =>
      refine fun number => accounts_bind (accounts_attempt (accounts_tracedOnce dry hwork)) fun outcome => ?_
      split
      · exact accounts_settle (.ok _)
      · split
        · exact accounts_bind (accounts_quietly (relays_waitAfter Event.isOffReplica_of_none _ _)) fun _ => ih _
        · exact accounts_settle (.error _)

theorem accounts_traced (dry : Bool) (attempts : Value) {work : Tracing σ α} (hwork : work.Accounts db allowed) :
    (db.traced dry attempts work).Accounts db allowed := by
  refine accounts_bind (accounts_quietly leads_get) fun w => ?_
  split
  · exact hwork
  · refine accounts_bind (accounts_settle _) fun n => ?_
    split
    · exact accounts_settle (.error _)
    · refine accounts_bind (accounts_attempt (accounts_tracedAgain dry hwork _ _)) fun outcome => ?_
      split
      · exact accounts_settle (.ok _)
      · exact accounts_settle (.error _)

/-- Lookups of columns stay off the replica. -/
theorem consults_offReplica (db : Database σ) :
    db.Consults fun x => Leads (World.Relays Event.IsOffReplica) x :=
  consults_relays fun _ _ _ h => h.isOffReplica

theorem relays_lastKey_offReplica (h : Handle) (r : Result) :
    Leads (World.Relays Event.IsOffReplica) (db.lastKey h r) :=
  relays_lastKey Event.isOffReplica_of_none (fun _ _ _ hevent => hevent.isOffReplica) h r

/-- Requests are traced as they go on, and their traces account for what they execute on the replica. -/
theorem tracing_accounts (hallowed : allowed h) :
    (db.access h).Relates (db.tracing h) (fun _ => True) fun x y => y.session = x ∧ y.Accounts db allowed where
  pure a := ⟨rfl, accounts_settle (.ok a)⟩
  throw f := ⟨rfl, accounts_settle (.error f)⟩
  bind := by
    rintro α β x y k l ⟨rfl, hx⟩ hk
    exact ⟨congrArg (y.session >>= ·) (funext fun a => (hk a).1), accounts_bind hx fun a => (hk a).2⟩
  known_bind {_ _ o _ _} hk := by
    cases o with
    | ok a => exact hk a rfl
    | error f => exact ⟨rfl, accounts_settle (.error f)⟩
  dialect := rfl
  compiler {α} {k} {l} table hk := by
    have hcompiler := db.consults_offReplica.compiler h table
    exact ⟨congrArg (db.compiler h table >>= ·) (funext fun c => (hk c trivial).1),
      accounts_bind (accounts_quietly hcompiler) fun c => (hk c trivial).2⟩
  hasColumn table column := ⟨rfl, accounts_quietly (db.consults_offReplica.hasColumn table column)⟩
  run {c s table} _ habout timeout := by
    refine ⟨rfl, accounts_tracedText hallowed (fun hselect => ?_) _ _⟩
    obtain ⟨c, q, hs⟩ := habout.selected hselect
    exact ⟨c, q, s, hs, rfl, rfl⟩
  lastKey r := ⟨rfl, accounts_quietly (relays_lastKey_offReplica h r)⟩
  transaction := by
    rintro x y ⟨rfl, hx⟩
    exact ⟨db.session_traced _ _ _, accounts_traced _ _ hx⟩

end Database

/-- A course is traced as it goes on, and its trace accounts for what it executes on the replica. -/
theorem Course.traced_accounts (db : Database σ) (course : Course allowed α) :
    (course.traced db).session = course.play db ∧ (course.traced db).Accounts db allowed := by
  induction course with
  | done outcome => exact ⟨rfl, Tracing.accounts_settle outcome⟩
  | query h ok q e next ih =>
      obtain ⟨hsession, haccounts⟩ := (Database.tracing_accounts ok).answer q e
      refine ⟨?_, Tracing.accounts_bind (Tracing.accounts_attempt haccounts) fun outcome => (ih outcome).2⟩
      rw [play, ← hsession]
      exact congrArg (attempt _ >>= ·) (funext fun outcome => (ih outcome).1)
  | raw h ok sql params next ih =>
      have haccounts : (db.tracedText h sql params .raw none none).Accounts db allowed :=
        Database.accounts_tracedText ok (fun hselect => by cases hselect) none none
      exact ⟨congrArg (attempt _ >>= ·) (funext fun outcome => (ih outcome).1),
        Tracing.accounts_bind (Tracing.accounts_attempt haccounts) fun outcome => (ih outcome).2⟩
  | transaction h ok attempts work next ihWork ih =>
      have haccounts := Database.accounts_traced h.testMode attempts ihWork.2
      refine ⟨?_, Tracing.accounts_bind (Tracing.accounts_attempt haccounts) fun outcome => (ih outcome).2⟩
      rw [play, ← ihWork.1, ← Database.session_traced]
      exact congrArg (attempt _ >>= ·) (funext fun outcome => (ih outcome).1)

/-! ### Inside transactions -/

/-- A step inside a transaction that stays off the replica and inside. -/
def World.Inside (w w' : World σ) : Prop := 0 < w.depth → w.Relays Event.IsOffReplica w' ∧ w.Level w'

instance : IsPreorder (World σ) World.Inside where
  refl w _ := ⟨refl_of _ w, rfl⟩
  trans w w' w'' h h' hdepth := by
    obtain ⟨hrelays, hlevel⟩ := h hdepth
    obtain ⟨hrelays', hlevel'⟩ := h' (hlevel ▸ hdepth)
    exact ⟨trans_of (World.Relays Event.IsOffReplica) hrelays hrelays', trans_of World.Level hlevel hlevel'⟩

namespace Database

/-- Inside a transaction all statements go to the primary. -/
theorem inside_runText (db : Database σ) (h : Handle) (sql : String) (params : List Value) (operation : Operation)
    (table : Option String) (timeout : Option Int) :
    Leads World.Inside (db.runText h sql params operation table timeout) := by
  intro w hdepth
  let e : Errand σ := ⟨h, sql, params, operation, table, timeout, w⟩
  have hlink : db.linkOf e.handle e.operation e.world.depth = .primary := by
    simp [linkOf, e, Nat.ne_of_gt hdepth]
  have hrelays := e.relays db
  rw [hlink] at hrelays
  refine ⟨fun hw => ?_, db.level_runText h sql params operation table timeout w⟩
  obtain ⟨hpassing, events, hevents, hexecutes⟩ := hrelays hw
  refine ⟨hpassing, events, hevents, fun event hevent => ?_⟩
  cases hsent : event.executedOver? .replica with
  | none => exact hsent
  | some sent => cases (hexecutes event hevent .replica sent hsent).1

theorem conducts_inside (db : Database σ) (allowed : Handle → Prop) :
    db.Conducts allowed fun x => Leads World.Inside x where
  toSequences := sequences_leads _
  read _ hk := leads_bind leads_get hk
  remember change w _ := ⟨db.consults_offReplica.remember change w, rfl⟩
  lookUp table column w _ :=
    ⟨db.consults_offReplica.lookUp table column w, db.consults_level.lookUp table column w⟩
  run _ _ _ _ := db.inside_runText _ _ _ _ _ _
  raw _ _ _ := db.inside_runText _ _ _ _ _ _
  lastKey {h} hallowed r w _ :=
    ⟨relays_lastKey_offReplica h r w, (db.conducts_level allowed).lastKey hallowed r w⟩
  transaction _ _ _ attempts hx := by
    intro w hdepth
    rw [after, transaction_nested _ _ _ hdepth]
    exact hx w hdepth

/-- A unit of work as a transaction stays off the replica: it is inside, or makes attempts that are. -/
theorem relays_transaction (dry : Bool) (attempts : Value) {x : Session σ α} (hx : Leads World.Inside x) :
    Leads (World.Relays Event.IsOffReplica) (db.transaction dry attempts x) := by
  have htry : Leads (World.Relays Event.IsOffReplica) (db.tryOnce dry x) := by
    have hinside : Leads (World.Relays Event.IsOffReplica) (do
        modify fun w => { w with depth := w.depth + 1 }
        let outcome ← attempt x
        modify fun w => { w with depth := w.depth - 1 }
        db.close dry outcome) := by
      intro w
      have hclosed : Leads (World.Relays Event.IsOffReplica) (do
          modify fun w : World σ => { w with depth := w.depth - 1 }
          db.close dry (ending x w.entered)) :=
        leads_bind (relays_depth (· - 1)) fun _ => relays_close Event.isOffReplica_of_none dry _
      exact trans_of (World.Relays Event.IsOffReplica) (relays_depth (· + 1) w)
        (trans_of (World.Relays Event.IsOffReplica) (hx w.entered (Nat.succ_pos _)).1 (hclosed (after x w.entered)))
    cases dry with
    | true => exact hinside
    | false => exact leads_bind (Driver.relays_start Event.isOffReplica_of_none _) fun _ => hinside
  intro w
  by_cases hdepth : 0 < w.depth
  · rw [after, transaction_nested _ _ _ hdepth]
    exact (hx w hdepth).1
  · obtain ⟨hunasked, hasked⟩ := db.transaction_outermost dry attempts x (Nat.eq_zero_of_not_pos hdepth)
    cases hattempts : db.settings.retry.attemptsFrom attempts with
    | error f =>
        rw [after, hunasked f hattempts]
        exact refl_of _ w
    | ok n =>
        rw [after, hasked n hattempts]
        split
        · exact refl_of _ w
        · exact db.consults_offReplica.tryAgain htry (relays_waitAfter Event.isOffReplica_of_none) _ 1 w

end Database

/-- Only selections outside transactions reach a replica. Whatever goes on through handles, over layers that pass contexts
on as they are, the trace of it accounts for all that is executed on the replica, in order: each text there is that of one
errand, or sets its time limit or lifts it. The errand is a selection as the compiler wrote it; its handle is routed to the
replica, and no transaction is open when it is submitted. The same as a transaction of any handle executes nothing there. -/
theorem Course.play_replica (db : Database σ) (course : Course allowed α) {w : World σ} (hw : w.Passing) :
    (course.traced db).session = course.play db ∧
    (∃ events, (after (course.play db) w).journal = w.journal ++ events ∧
      events.filterMap (Event.executedOver? .replica) =
        ((course.traced db).errands w).flatMap (Errand.executed db .replica)) ∧
    (∀ e ∈ (course.traced db).errands w, allowed e.handle ∧ ∀ sent ∈ e.executed db .replica,
      (sent = (e.sql, e.params) ∨ sent.2 = [] ∧ db.dialect.Tunes e.timeout sent.1) ∧
      (∃ c q s, Compiler.select c q = .ok s ∧ e.sql = s.sql ∧ e.params = s.params) ∧
      e.handle.route = some "read" ∧ db.replica.isSome ∧ e.world.depth = 0) ∧
    ∀ (h : Handle) (attempts : Value), ∃ events,
      (after (db.transaction h.testMode attempts (course.play db)) w).journal = w.journal ++ events ∧
      events.filterMap (Event.executedOver? .replica) = [] := by
  obtain ⟨hsession, haccounts⟩ := course.traced_accounts db
  have htraced := haccounts w hw
  rw [hsession] at htraced
  refine ⟨hsession, htraced.journal, fun e he => ?_, fun h attempts => ?_⟩
  · have hgenuine := htraced.genuine e he
    refine ⟨hgenuine.handle, fun sent hsent => ?_⟩
    obtain ⟨hlink, htext⟩ := Errand.executes_of_mem hgenuine.passing hsent
    have hrouted : (e.handle.route = some "read" ∧ db.replica.isSome = true) ∧ e.operation = .select ∧
        e.world.depth = 0 := by
      rw [Database.linkOf] at hlink
      split at hlink
      · rename_i hcond
        simpa [and_assoc] using hcond
      · cases hlink
    obtain ⟨⟨hroute, hreplica⟩, hselect, hdepth⟩ := hrouted
    exact ⟨htext, hgenuine.compiled hselect, hroute, hreplica, hdepth⟩
  · have hinside := course.conducted (db.conducts_inside allowed)
    obtain ⟨-, events, hevents, hoff⟩ := Database.relays_transaction h.testMode attempts hinside w hw
    exact ⟨events, hevents, List.filterMap_eq_nil_iff.2 hoff⟩

/-- Reads of a handle that is routed to a replica, around a text of its own, an upsert in steps, and a rehearsed
transaction of another handle. -/
def readsAround : Course (fun _ => True) Answer :=
  let reader : Handle := { route := some "read" }
  .query reader trivial { table := "users" } .rows fun _ =>
    .raw reader trivial "SELECT 1" [] fun _ =>
      .query reader trivial { table := "users" } (.upsert [(.text "id", .int 1), (.text "name", .text "A")]
        (.tuple [.text "id"]) .null) fun _ =>
        .transaction { testMode := true } trivial .null
          (.query reader trivial { table := "users" } .count fun outcome => .done outcome) fun _ =>
            .query reader trivial { table := "users" } .count .done

theorem play_replica_around :
    let db : Database Unit := { Database.replicated with dialect := .ansi }
    let w : World Unit := { outside := (), layers := [⟨0, fun c => .tell (.layerSaw c) (.proceed c .finish)⟩] }
    let errands := (readsAround.traced db).errands w
    (∃ events, (after (readsAround.play db) w).journal = events ∧
      events.filterMap (Event.executedOver? .replica) = errands.flatMap (Errand.executed db .replica)) ∧
    (∀ e ∈ errands, ∀ sent ∈ e.executed db .replica, e.handle.route = some "read" ∧ e.world.depth = 0) ∧
    errands.map (fun e => (e.operation, e.world.depth)) =
      [(.select, 0), (.raw, 0), (.select, 1), (.upsert, 1), (.select, 1), (.select, 0)] ∧
    (errands.flatMap (Errand.executed db .replica)).map (·.1) =
      ["SELECT * FROM \"users\"", "SELECT COUNT(1) AS c FROM \"users\""] := by
  intro db w errands
  have hpassing : w.Passing :=
    ⟨List.forall_mem_nil _, List.forall_mem_singleton.2 fun c => .tell rfl (.proceed .finish), List.forall_mem_nil _⟩
  obtain ⟨-, hjournal, hreads, -⟩ := Course.play_replica db readsAround hpassing
  refine ⟨hjournal, fun e he sent hsent => ?_, by decide +kernel, by decide +kernel⟩
  obtain ⟨-, -, hroute, -, hdepth⟩ := (hreads e he).2 sent hsent
  exact ⟨hroute, hdepth⟩

end Polyquery
