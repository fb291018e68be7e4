import Polyquery.Proofs.Routing
import Polyquery.Proofs.TimeLimits

/-! The keys that insertions answer, where neither columns can be returned nor the dialect has a query for the key. Main
statement: an insertion answers the key that its own cursor reports, and if there is none, the one that was noted last
before, whichever statement it was generated for. -/

namespace Polyquery

open Session Account

variable {σ α : Type}

/-! ### Keys that the driver remembers -/

/-- Two worlds in which the same keys are remembered. -/
def World.Remembers (w w' : World σ) : Prop := ∀ link, (w'.link link).lastKey = (w.link link).lastKey

instance : IsPreorder (World σ) World.Remembers where
  refl _ _ := rfl
  trans _ _ _ h h' link := (h' link).trans (h link)

section

variable {w w' : World σ}

/-- What is known of the links says which keys are remembered. -/
theorem World.remembers_of_links (hprimary : w'.primary = w.primary) (hreplica : w'.replica = w.replica)
    (hfurther : w'.further = w.further) : w.Remembers w' := by
  rintro (_ | _ | number)
  · exact congrArg LinkState.lastKey hprimary
  · exact congrArg LinkState.lastKey hreplica
  · exact congrArg LinkState.lastKey (congrFun hfurther number)

theorem remembers_emit (event : Event) : Leads World.Remembers (emit event : Session σ Unit) :=
  fun _ => World.remembers_of_links rfl rfl rfl

theorem remembers_outside (x : Effect σ α) : Leads World.Remembers (outside x) := by
  intro w
  cases hx : x w.outside with
  | ok a s =>
      rw [after, outcome_outside_ok hx]
      exact World.remembers_of_links rfl rfl rfl
  | error f s =>
      rw [after, outcome_outside_error hx]
      exact World.remembers_of_links rfl rfl rfl

theorem remembers_call (event : Event) (x : Effect σ α) :
    Leads World.Remembers (do
      emit event
      outside x) :=
  leads_bind (remembers_emit event) fun _ => remembers_outside x

theorem remembers_setInTransaction (link : Link) (on : Bool) :
    Leads World.Remembers (setInTransaction link on : Session σ Unit) := by
  intro w other
  change ((w.setLink link { w.link link with inTransaction := on }).link other).lastKey = _
  rw [World.link_setLink]
  split
  · rename_i hother
    rw [hother]
  · rfl

theorem Driver.remembers_prepare (d : Dialect) (link : Link) (sql : String) (driver : Driver σ) :
    Leads World.Remembers (driver.prepare d link sql) := by
  cases driver with
  | port p => exact leads_bind (remembers_emit _) fun _ => leads_bind (remembers_outside _) fun _ => leads_pure _
  | connection c =>
      intro w
      rw [after, outcome_prepare_connection]
      exact World.remembers_of_links rfl rfl rfl

end

namespace Connection

/-- Whether the result of a statement can be taken from its cursor. -/
def isTaken (c : Connection σ) (reply : Reply) (s : σ) : Bool :=
  if reply.columns.isEmpty then reply.affected.isOk
  else match c.fetch s with
    | .error _ _ => false
    | .ok data _ => (resultRows reply.columns data).isOk

/-- The key that the driver notes for a statement on an open cursor: what that reports, if it counts as true and the result can
be taken. -/
def reported? (c : Connection σ) (sql : String) (params : List Value) (s : σ) : Option Value :=
  match c.execute sql params s with
  | .error _ _ => none
  | .ok reply s => if c.isTaken reply s && reply.lastKey.isTruthy then some reply.lastKey else none

/-- The key that the driver notes for a statement on a cursor of its own. -/
def noted? (c : Connection σ) (sql : String) (params : List Value) (s : σ) : Option Value :=
  match c.cursor s with
  | .error _ _ => none
  | .ok () s => c.reported? sql params s

variable {c : Connection σ} {d : Dialect} {link : Link} {sql : String} {params : List Value} {w : World σ} {reply : Reply}

theorem remembers_gather : Leads World.Remembers (c.gather reply) := by
  unfold gather
  split
  · exact leads_bind (leads_settle _) fun _ => leads_pure _
  · exact leads_bind (remembers_outside _) fun _ => leads_bind (leads_settle _) fun _ => leads_pure _

theorem isOk_gather : (ending (c.gather reply) w).isOk = c.isTaken reply w.outside := by
  -- what a result is made of decides whether there is one
  have hmade : ∀ {γ : Type} (o : Except Failure γ) (make : γ → Result) (w : World σ),
      (ending (settle o >>= fun a => pure (make a)) w).isOk = o.isOk := by
    intro γ o make w
    rw [ending_tell, ending, outcome_settle]
    cases o <;> rfl
  rw [gather, isTaken]
  split
  · exact hmade _ _ _
  · cases hfetch : c.fetch w.outside with
    | error f s =>
        rw [ending, outcome_bind_error (outcome_outside_error hfetch)]
        rfl
    | ok data s =>
        rw [ending, outcome_bind_ok (outcome_outside_ok hfetch)]
        exact hmade _ _ _

/-- A result is taken without a key. -/
theorem yields_gather : Yields (c.gather reply) (·.lastKey = .null) := by
  unfold gather
  split
  · exact yields_then fun _ => yields_pure rfl
  · exact yields_then fun _ => yields_then fun _ => yields_pure rfl

/-- A computation that notes a key for a link, if there is one, and tells it in its result. -/
structure Notes (x : Session σ Result) (link : Link) (key : Option Value) (w : World σ) : Prop where
  remembered : ((after x w).link link).lastKey = key.getD (w.link link).lastKey
  told : ∀ r, ending x w = .ok r → r.lastKey = key.getD .null

/-- What follows a computation that notes a key forgets none and adds nothing to its result. -/
theorem Notes.behind {x y : Session σ Result} {key : Option Value} (hx : Notes x link key w)
    (hremembers : (after x w).Remembers (after y w)) (hanswer : ∀ r, ending y w = .ok r → ending x w = .ok r) :
    Notes y link key w :=
  ⟨(hremembers link).trans hx.remembered, fun r hr => hx.told r (hanswer r hr)⟩

theorem Notes.of_outcome {x y : Session σ Result} {key : Option Value} {w' : World σ} (hx : Notes x link key w')
    (hremembers : w.Remembers w') (h : outcome y w = outcome x w') : Notes y link key w := by
  constructor
  · rw [after, h, ← hremembers link]
    exact hx.remembered
  · rw [ending, h]
    exact hx.told

/-- Nothing is noted of what the database refuses. -/
theorem notes_of_error {x : Session σ Result} {w' : World σ} {f : Failure} (h : outcome x w = (.error f, w'))
    (hremembers : w.Remembers w') : Notes x link none w := by
  rw [outcome_eq] at h
  obtain ⟨hending, rfl⟩ := Prod.mk.inj h
  refine ⟨hremembers link, fun r hr => ?_⟩
  rw [hending] at hr
  cases hr

/-- What is taken is noted. -/
theorem notes_receive : Notes (c.receive link reply) link
    (if c.isTaken reply w.outside && reply.lastKey.isTruthy then some reply.lastKey else none) w := by
  have hgathered : w.Remembers (after (c.gather reply) w) := remembers_gather w
  have htaken : (ending (c.gather reply) w).isOk = c.isTaken reply w.outside := isOk_gather
  rcases outcome_cases (c.gather reply) w with ⟨r, hr⟩ | ⟨f, hf⟩
  · have hending : ending (c.gather reply) w = .ok r := congrArg Prod.fst hr
    rw [hending] at htaken
    rw [← htaken]
    have hreceive : outcome (c.receive link reply) w = _ := outcome_bind_ok hr
    cases hkey : reply.lastKey.isTruthy with
    | false =>
        rw [hkey] at hreceive
        refine ⟨?_, fun r' hr' => ?_⟩
        · rw [after, hreceive]
          exact hgathered link
        · rw [ending, hreceive] at hr'
          cases hr'
          exact yields_gather w r hending
    | true =>
        rw [hkey] at hreceive
        refine ⟨?_, fun r' hr' => ?_⟩
        · rw [after, hreceive]
          change (((after (c.gather reply) w).setLink link _).link link).lastKey = reply.lastKey
          rw [World.link_setLink, if_pos rfl]
        · rw [ending, hreceive] at hr'
          cases hr'
          rfl
  · have hending : ending (c.gather reply) w = .error f := congrArg Prod.fst hf
    rw [hending] at htaken
    rw [← htaken]
    exact notes_of_error (outcome_bind_error hf) hgathered

theorem notes_ask : Notes (c.ask link sql params) link (c.reported? sql params w.outside) w := by
  cases hexecute : c.execute sql params w.outside with
  | error f s =>
      rw [reported?, hexecute]
      exact notes_of_error (outcome_call_bind_error hexecute _ _) (World.remembers_of_links rfl rfl rfl)
  | ok reply s =>
      have hsent : w.Remembers (called w (.wire link (.execute sql params)) s) := World.remembers_of_links rfl rfl rfl
      rw [reported?, hexecute]
      exact notes_receive.of_outcome hsent (outcome_call_bind_ok hexecute _ _)

theorem notes_send : Notes (c.send link sql params) link (c.reported? sql params w.outside) w := by
  have hpublish : Leads World.Remembers (c.publish link) := by
    refine leads_bind (leads_inTransaction link) fun opened => ?_
    cases opened with
    | true => exact leads_pure _
    | false => exact remembers_call _ _
  have hrest : ∀ r, Leads World.Remembers (do
      c.publish link
      pure r : Session σ Result) := fun _ => leads_bind hpublish fun _ => leads_pure _
  rw [send_eq]
  refine notes_ask.behind (leads_behind hrest w) fun r hr => ?_
  obtain ⟨r', hask, hrest⟩ := ending_bind_eq_ok.1 hr
  obtain ⟨_, -, hpure⟩ := ending_bind_eq_ok.1 hrest
  cases hpure
  exact hask

theorem remembers_undo : Leads World.Remembers (c.undo link) := by
  refine leads_bind (remembers_emit _) fun _ => leads_bind (leads_attempt (remembers_outside _)) fun outcome => ?_
  split
  · exact leads_pure _
  · split
    · exact leads_throw _
    · exact remembers_emit _

theorem notes_run : Notes (c.run d link sql params) link (c.reported? sql params w.outside) w := by
  refine notes_send.behind (leads_behind (x := attempt (c.send link sql params)) (fun outcome => ?_) w) fun r hr => ?_
  · split
    · exact leads_pure _
    · split
      · exact leads_throw _
      · refine leads_bind (leads_inTransaction link) fun opened => ?_
        cases opened with
        | true => exact leads_throw _
        | false => exact leads_bind remembers_undo fun _ => leads_throw _
  · rw [ending, run, outcome_attempt_bind] at hr
    cases hsend : ending (c.send link sql params) w with
    | ok r' =>
        rw [hsend] at hr
        cases hr
        rfl
    | error f =>
        rw [hsend] at hr
        have hfails : Fails (if f.isInterrupt then throw f else do
            unless ← inTransaction link do c.undo link
            throw (translated d sql f) : Session σ Result) := by
          split
          · exact yields_throw _
          · refine yields_then fun opened => ?_
            cases opened with
            | true => exact yields_throw _
            | false => exact yields_then fun _ => yields_throw _
        exact (hfails _ r hr).elim

theorem Notes.ensuring {x : Session σ Result} {key : Option Value} {cleanup : Session σ Unit} (hx : Notes x link key w)
    (hcleanup : Leads World.Remembers cleanup) : Notes (Session.ensuring x cleanup) link key w := by
  refine hx.behind (leads_behind (x := attempt x) (fun o => leads_bind hcleanup fun _ => leads_settle o) w) fun r hr => ?_
  obtain ⟨o, ho, hr⟩ := ending_bind_eq_ok.1 hr
  obtain ⟨_, -, hr⟩ := ending_bind_eq_ok.1 hr
  cases ho
  rwa [ending, outcome_settle] at hr

/-- A statement on a cursor of its own notes its key. -/
theorem notes_runOnCursor : Notes (c.runOnCursor d link sql params) link (c.noted? sql params w.outside) w := by
  cases hcursor : c.cursor w.outside with
  | error f s =>
      rw [noted?, hcursor]
      exact notes_of_error (outcome_call_bind_error hcursor _ _) (World.remembers_of_links rfl rfl rfl)
  | ok _ s =>
      have hopened : w.Remembers (called w (.wire link .cursor) s) := World.remembers_of_links rfl rfl rfl
      rw [noted?, hcursor]
      exact (notes_run.ensuring (remembers_call _ _)).of_outcome hopened (outcome_call_bind_ok hcursor _ _)

theorem isNull_of_noted {key : Value} {s : σ} (h : c.noted? sql params s = some key) : key.isNull = false := by
  have htruthy : key.isTruthy = true := by
    unfold noted? reported? at h
    split at h
    · cases h
    · split at h
      · cases h
      · rename_i reply s _
        cases hkey : c.isTaken reply s && reply.lastKey.isTruthy with
        | false =>
            rw [hkey] at h
            cases h
        | true =>
            rw [hkey] at h
            cases h
            exact (Bool.and_eq_true_iff.1 hkey).2
  cases key with
  | null => cases htruthy
  | _ => rfl

/-! ### Histories of a driver -/

/-- What a driver over a connection can be asked to do. -/
inductive Call where
  | statement (sql : String) (params : List Value)
  | start
  | commit
  | rollback

namespace Call

def make (d : Dialect) (link : Link) (c : Connection σ) : Call → Session σ Unit
  | statement sql params => discard ((Driver.connection c).execute d link ⟨sql⟩ params)
  | start => (Driver.connection c).start link
  | commit => (Driver.connection c).commit d link
  | rollback => (Driver.connection c).rollback d link

/-- The key that is noted for a call. -/
def noted? (c : Connection σ) : Call → σ → Option Value
  | statement sql params, s => c.noted? sql params s
  | start, _ | commit, _ | rollback, _ => none

/-- The keys that are noted for calls one after another. -/
def keys (d : Dialect) (link : Link) (c : Connection σ) : List Call → World σ → List Value
  | [], _ => []
  | call :: rest, w => (call.noted? c w.outside).toList ++ keys d link c rest (after (call.make d link c) w)

theorem remembered_make (call : Call) :
    ((after (call.make d link c) w).link link).lastKey = (call.noted? c w.outside).getD (w.link link).lastKey := by
  have hended : ∀ call word effect, Leads World.Remembers (endTransaction d link call word effect : Session σ Unit) := by
    refine fun call word effect => leads_bind (remembers_emit _) fun _ => leads_bind (leads_attempt (remembers_outside _))
      fun outcome => leads_bind (remembers_setInTransaction link false) fun _ => ?_
    split
    · exact leads_pure _
    · exact leads_throw _
  cases call with
  | statement sql params =>
      have hkept : (after (c.runOnCursor d link sql params) w).Remembers
          (after (c.runOnCursor d link sql params >>= fun _ => pure ()) w) := leads_behind (fun _ => leads_pure _) w
      exact (hkept link).trans notes_runOnCursor.remembered
  | start => exact remembers_setInTransaction link true w link
  | commit | rollback => exact hended _ _ _ w link

/-- Behind any calls, the key that was noted last is remembered. -/
theorem remembered_calls (calls : List Call) :
    ((after (inSuccession (calls.map (make d link c))) w).link link).lastKey =
      (keys d link c calls w).getLast?.getD (w.link link).lastKey := by
  induction calls generalizing w with
  | nil => rfl
  | cons call calls ih =>
      change ((after (inSuccession (calls.map (make d link c))) (after (call.make d link c) w)).link link).lastKey = _
      rw [ih, remembered_make, keys, List.getLast?_append]
      cases (keys d link c calls (after (call.make d link c) w)).getLast? with
      | some key => rfl
      | none => cases call.noted? c w.outside <;> rfl

end Call

end Connection

/-! ### Insertions -/

namespace Deed

variable {db : Database σ} {deeds : List Deed} {w w' : World σ}

/-- What sends no statement forgets no key. -/
theorem remembers_of_turnAll (h : TurnAll db deeds w w') (hunsent : deeds.filter isSent = []) : w.Remembers w' := by
  induction deeds generalizing w with
  | nil =>
      rw [show w' = w from h]
      exact fun _ => rfl
  | cons deed deeds ih =>
      obtain ⟨next, hfirst, hrest⟩ := h
      have hdeed : deed.isSent = false := by
        simpa using List.filter_eq_nil_iff.1 hunsent deed List.mem_cons_self
      rw [List.filter_cons_of_neg (by simp [hdeed])] at hunsent
      refine trans_of World.Remembers ?_ (ih hrest hunsent)
      cases deed with
      | refused | tuned | executed => cases hdeed
      | recorded | told | measured | reported | registered =>
          subst hfirst
          exact World.remembers_of_links rfl rfl rfl
      | entered | left | passed =>
          subst hfirst
          exact fun _ => rfl
      | judged | logged =>
          obtain ⟨-, rfl⟩ := hfirst
          exact World.remembers_of_links rfl rfl rfl
      | recalled =>
          obtain ⟨-, rfl⟩ := hfirst
          exact fun _ => rfl
      | requested chained =>
          obtain ⟨layers, chains, hchained⟩ := Database.outcome_chainFor_link chained.link w
          obtain ⟨-, rfl⟩ := Prod.mk.inj (hchained.symm.trans hfirst.2)
          exact World.remembers_of_links rfl rfl rfl
      | prepared link context =>
          have hprepared := Driver.remembers_prepare (db.dialectOf link) link context.sql (db.driver link) w
          have hnext : after ((db.driver link).prepare (db.dialectOf link) link context.sql) w = next :=
            congrArg Prod.snd hfirst
          rwa [hnext] at hprepared

end Deed

namespace Account

variable {link : Link} {context : Context} {d : Dialect} {deeds : List Deed} {r : Result}

open Deed

/-- A context that succeeds is executed once, and nothing else is sent if it has no time limit. -/
theorem exists_executed (h : Performs link context d deeds (.ok r)) :
    ∃ front back, deeds = front ++ .executed link context (.ok r) :: back ∧
      (d.limits context.timeout = ⟨none, none⟩ → front.filter isSent = [] ∧ back.filter isSent = []) := by
  cases h with
  | @succeeded set _ lifted lift _ event hset hrun hlift =>
      cases hrun with
      | granted r =>
          refine ⟨.passed link context :: .prepared link context :: set,
            lifted ++ [.measured context r, .reported context, .logged event], by simp, fun hlimits => ?_⟩
          obtain ⟨set', hsent, hlifting, -⟩ := hset.sent_ok rfl
          obtain ⟨lifted', hlifted, -⟩ := hlift.sent_ok rfl
          rw [hlimits] at hsent hlifting
          rw [← hlifting] at hlifted
          constructor
          · exact hsent
          · rw [List.filter_append, hlifted]
            rfl

end Account

/-- A context that succeeds without layers is executed once. If it has no time limit, no key is noted before or behind that. -/
theorem Database.exists_executed_runContext (db : Database σ) {link : Link} {readonly : Bool} {context : Context} {w : World σ}
    (hw : w.IsSound) (hlayers : w.layers = []) {r : Result}
    (hrun : ending (db.runContext link readonly false context) w = .ok r) :
    ∃ w₀ w₁, outcome (db.execute link ⟨context.sql⟩ context.params) w₀ = (.ok r, w₁) ∧
      ((db.dialectOf link).limits context.timeout = ⟨none, none⟩ →
        w.Remembers w₀ ∧ w₁.Remembers (after (db.runContext link readonly false context) w)) := by
  obtain ⟨deeds, hturns, howns⟩ := db.obeys_submitWithin 0 ⟨link, readonly, false, context⟩ w hw
  rw [show ending (db.submitWithin Database.chainFor 0 ⟨link, readonly, false, context⟩) w = .ok r from hrun] at howns
  obtain ⟨rest, rfl, hrejected, -, hlived⟩ := Database.gate howns hturns
  have haccepted : (Policy.check db.settings.rules w.guards readonly context).2 = .ok () := by
    cases hverdict : (Policy.check db.settings.rules w.guards readonly context).2 with
    | ok _ => rfl
    | error f => cases (hrejected f hverdict).2
  obtain ⟨visit, rfl, hvisit⟩ := hlived haccepted rfl
  rw [hlayers] at hvisit
  obtain ⟨front, back, rfl, hunsent⟩ := exists_executed hvisit
  obtain ⟨w₀, hfront, w₁, hexecuted, hback⟩ := Deed.turnAll_append.1
    (show Deed.TurnAll db ((_ :: _ :: _ :: front) ++ .executed link context (.ok r) :: back) w _ from hturns)
  refine ⟨w₀, w₁, hexecuted, fun hlimits => ?_⟩
  obtain ⟨hunsentFront, hunsentBack⟩ := hunsent hlimits
  exact ⟨Deed.remembers_of_turnAll hfront hunsentFront, Deed.remembers_of_turnAll hback hunsentBack⟩

namespace Query

variable {db : Database σ} {c : Connection σ} {h : Handle} {q : Query} {row : Row} {key : Value} {w : World σ}

/-- The statement of an insertion, sent for a handle. -/
abbrev insertion (db : Database σ) (h : Handle) (q : Query) (row : Row) (key : Value) : Session σ Result :=
  perform (db.access h) q fun compiler => compiler.insert q.table [row] (.tuple (if key.isTruthy then [key] else []))

theorem insert_eq (hreturning : db.dialect.hasReturning = false) :
    insert (db.access h) q row key = insertion db h q row key >>= fun result =>
      match key.isTruthy, result.rows with
      | true, row :: _ => if key.isKey then pure (row.cell key) else throw .wrongType
      | _, _ => db.lastKey h result := by
  have hkey : keyFor (db.access h) q key = pure key := by
    change (if key.isNull && db.dialect.hasReturning then _ else _) = _
    rw [hreturning, Bool.and_false]
    rfl
  rw [insert, hkey]
  rfl

/-- What an insertion answers without rows: the key of its result, or the one that is remembered. -/
theorem outcome_insert_of_ok (hdb : db.primary = .connection c) (hreturning : db.dialect.hasReturning = false)
    (hquery : db.dialect.keyQuery = none) (hlive : h.testMode = false) {r : Result} (hrows : key.isTruthy = true → r.rows = [])
    (hrun : ending (insertion db h q row key) w = .ok r) :
    outcome (insert (db.access h) q row key) w =
      (.ok (if r.lastKey.isNull then (after (insertion db h q row key) w).primary.lastKey else r.lastKey),
        after (insertion db h q row key) w) := by
  have hlast : ∀ v : World σ, outcome (db.lastKey h r) v =
      (.ok (if r.lastKey.isNull then v.primary.lastKey else r.lastKey), v) := by
    intro v
    rw [Database.lastKey, hlive, hquery, hdb]
    cases hnull : r.lastKey.isNull with
    | true =>
        change outcome ((Driver.connection c).lastKey db.dialect .primary) v = _
        rw [Driver.lastKey, hquery]
        rfl
    | false => rfl
  rw [insert_eq hreturning, outcome_bind, hrun]
  cases htruthy : key.isTruthy with
  | false => exact hlast _
  | true =>
      dsimp only
      rw [hrows htruthy]
      exact hlast _

/-- An insertion is compiled, and then sent to the primary. -/
theorem insertion_cases (hlive : h.testMode = false) {r : Result} (hrun : ending (insertion db h q row key) w = .ok r) :
    ∃ (compiler : Compiler) (s : Statement),
      ending (db.compiler h q.table) w = .ok compiler ∧
      compiler.insert q.table [row] (.tuple (if key.isTruthy then [key] else [])) = .ok s ∧
      outcome (insertion db h q row key) w =
        outcome (db.runContext .primary h.readonly false
          { sql := s.sql, params := s.params, operation := s.operation, table := some q.table, route := h.route,
            timeout := q.timeout })
          (after (db.compiler h q.table) w) := by
  have hinsertion : insertion db h q row key = (do
      let compiler ← db.compiler h q.table
      let s ← known (compiler.insert q.table [row] (.tuple (if key.isTruthy then [key] else [])))
      db.run h s q.table q.timeout) := rfl
  rw [hinsertion] at hrun ⊢
  obtain ⟨compiler, hcompiler, hrest⟩ := ending_bind_eq_ok.1 hrun
  obtain ⟨s, hknown, -⟩ := ending_bind_eq_ok.1 hrest
  have hs : compiler.insert q.table [row] (.tuple (if key.isTruthy then [key] else [])) = .ok s := by
    rw [← hknown, ending, outcome_known]
  have hchange : s.operation ≠ .select := by
    obtain ⟨inserted, -, rfl⟩ := Compiler.insert_parts hs
    simp
  refine ⟨compiler, s, hcompiler, hs, ?_⟩
  rw [outcome_bind_ok (hcompiler ▸ outcome_eq _ w), hs]
  change outcome (db.run h s q.table q.timeout) _ = _
  rw [db.outcome_run_change hchange, ← hlive]
  rfl

/-- An insertion that succeeds without layers is executed on the primary as it is compiled. -/
theorem exists_executed_insertion (hlive : h.testMode = false) (hw : w.IsSound) (hlayers : w.layers = []) {r : Result}
    (hrun : ending (insertion db h q row key) w = .ok r) :
    let compiled := after (db.compiler h q.table) w
    ∃ (compiler : Compiler) (s : Statement) (w₀ w₁ : World σ),
      ending (db.compiler h q.table) w = .ok compiler ∧
      compiler.insert q.table [row] (.tuple (if key.isTruthy then [key] else [])) = .ok s ∧
      outcome (db.execute .primary ⟨s.sql⟩ s.params) w₀ = (.ok r, w₁) ∧
      (db.dialect.limits q.timeout = ⟨none, none⟩ →
        compiled.Remembers w₀ ∧ w₁.Remembers (after (insertion db h q row key) w)) := by
  intro compiled
  have hkept : w.Kept _ compiled := db.consults_keeps.compiler h q.table w hw.faithful
  obtain ⟨compiler, s, hcompiler, hs, hsent⟩ := insertion_cases hlive hrun
  rw [ending, hsent] at hrun
  rw [after, hsent]
  obtain ⟨w₀, w₁, hexecuted, hunlimited⟩ :=
    db.exists_executed_runContext (hkept.sound hw) (hkept.layers.trans hlayers) hrun
  exact ⟨compiler, s, w₀, w₁, hcompiler, hs, hexecuted, hunlimited⟩

/-- An execution that succeeds over a connection tells the key that is noted for it, and the driver remembers that. -/
theorem execute_notes (hdb : db.primary = .connection c) {sql : String} {params : List Value} {r : Result} {w₁ : World σ}
    (hexecuted : outcome (db.execute .primary ⟨sql⟩ params) w = (.ok r, w₁)) :
    let own := c.noted? sql params w.outside
    r.lastKey = own.getD .null ∧ w₁.primary.lastKey = own.getD w.primary.lastKey := by
  intro own
  have hnotes : Connection.Notes (c.runOnCursor db.dialect .primary sql params) .primary own w :=
    Connection.notes_runOnCursor
  rw [Database.execute_eq hdb] at hexecuted
  refine ⟨hnotes.told r (congrArg Prod.fst hexecuted), ?_⟩
  rw [← show after _ w = w₁ from congrArg Prod.snd hexecuted]
  exact hnotes.remembered

/-- An insertion without rows answers the key that its result tells, and if there is none, the one that is remembered. -/
theorem outcome_insert_of_noted (hdb : db.primary = .connection c) (hreturning : db.dialect.hasReturning = false)
    (hquery : db.dialect.keyQuery = none) (hlive : h.testMode = false) {r : Result} (hrows : key.isTruthy = true → r.rows = [])
    (hrun : ending (insertion db h q row key) w = .ok r) {sql : String} {params : List Value} {s : σ}
    (htold : r.lastKey = (c.noted? sql params s).getD .null) :
    let sent := after (insertion db h q row key) w
    outcome (insert (db.access h) q row key) w = (.ok ((c.noted? sql params s).getD sent.primary.lastKey), sent) := by
  intro sent
  rw [outcome_insert_of_ok hdb hreturning hquery hlive hrows hrun, htold]
  cases hown : c.noted? sql params s with
  | none => rfl
  | some own =>
      rw [Option.getD_some, Option.getD_some, Connection.isNull_of_noted hown]
      rfl

/-- Over a connection the driver remembers the key that it noted last. Without columns that are returned, a query for the key,
or layers, an insertion that succeeds without rows answers the key that is noted for its own statement; if there is none, it
answers the one that is remembered when it is done. Without a time limit that is what was remembered before its statement was
sent: the key that was noted last, for whichever earlier statement, or none if none was. -/
theorem insert_answers_key (hdb : db.primary = .connection c) (hreturning : db.dialect.hasReturning = false)
    (hquery : db.dialect.keyQuery = none) (hlive : h.testMode = false) :
    (∀ (calls : List Connection.Call) (w : World σ),
      (after (inSuccession (calls.map (Connection.Call.make db.dialect .primary c))) w).primary.lastKey =
        (Connection.Call.keys db.dialect .primary c calls w).getLast?.getD w.primary.lastKey) ∧
    ∀ (q : Query) (row : Row) (key : Value) {w : World σ}, w.IsSound → w.layers = [] →
      let x := insert (db.access h) q row key
      let compiled := after (db.compiler h q.table) w
      (∀ f, ending (insertion db h q row key) w = .error f → ending x w = .error f) ∧
      ∀ r, ending (insertion db h q row key) w = .ok r → (key.isTruthy = true → r.rows = []) →
        ∃ (compiler : Compiler) (s : Statement) (w₀ w₁ : World σ),
          ending (db.compiler h q.table) w = .ok compiler ∧
          compiler.insert q.table [row] (.tuple (if key.isTruthy then [key] else [])) = .ok s ∧
          outcome (db.execute .primary ⟨s.sql⟩ s.params) w₀ = (.ok r, w₁) ∧
          let own := c.noted? s.sql s.params w₀.outside
          ending x w = .ok (own.getD (after x w).primary.lastKey) ∧
          (db.dialect.limits q.timeout = ⟨none, none⟩ →
            ending x w = .ok (own.getD compiled.primary.lastKey) ∧
              (after x w).primary.lastKey = own.getD compiled.primary.lastKey) := by
  have hcalls : ∀ (calls : List Connection.Call) (w : World σ),
      ((after (inSuccession (calls.map (Connection.Call.make db.dialect .primary c))) w).link .primary).lastKey =
        (Connection.Call.keys db.dialect .primary c calls w).getLast?.getD (w.link .primary).lastKey :=
    fun calls w => Connection.Call.remembered_calls calls
  refine ⟨hcalls, fun q row key {w} hw hlayers => ?_⟩
  intro x compiled
  refine ⟨fun f hf => ?_, fun r hrun hrows => ?_⟩
  · have hfailed : outcome (insertion db h q row key) w = (.error f, after (insertion db h q row key) w) := by
      rw [outcome_eq, hf]
    rw [show x = _ from insert_eq hreturning, ending, outcome_bind_error hfailed]
  · obtain ⟨compiler, s, w₀, w₁, hcompiler, hs, hexecuted, hunlimited⟩ := exists_executed_insertion hlive hw hlayers hrun
    obtain ⟨htold, hremembered⟩ := execute_notes hdb hexecuted
    have hinserted : outcome x w = _ := outcome_insert_of_noted hdb hreturning hquery hlive hrows hrun htold
    have hanswer : ending x w = .ok ((c.noted? s.sql s.params w₀.outside).getD (after x w).primary.lastKey) := by
      rw [ending, after, hinserted]
    refine ⟨compiler, s, w₀, w₁, hcompiler, hs, hexecuted, hanswer, fun hlimits => ?_⟩
    obtain ⟨hbefore, hbehind⟩ := hunlimited hlimits
    have hmemory : (after x w).primary.lastKey = (c.noted? s.sql s.params w₀.outside).getD compiled.primary.lastKey := by
      rw [after, hinserted]
      exact ((hbehind .primary).trans hremembered).trans (congrArg _ (hbefore .primary))
    refine ⟨?_, hmemory⟩
    rw [hanswer, hmemory]
    cases c.noted? s.sql s.params w₀.outside <;> rfl

end Query

/-! ### Cursors that report as they are told -/

/-- A connection whose cursors report one after another what they are told to. -/
def Connection.replying : Connection (List Reply) where
  cursor := pure ()
  execute _ _ := fun replies => .ok (replies.headD {}) replies.tail
  fetch := pure []
  close := pure ()
  commit := pure ()
  rollback := pure ()

def Database.replying : Database (List Reply) where
  settings := {}
  dialect := .sqlite
  primary := .connection .replying
  moment := ⟨2024, 1, 1, 0, 0, 0⟩
  chance := .ofInt 0

namespace Query

/-- An insertion whose cursor reports a key. -/
theorem insert_answers_key_reported :
    let x := insert (Database.replying.access {}) { table := "users" } [(.text "name", .text "A")] .null
    let w : World (List Reply) := { outside := [{ rowcount := .int 1, lastKey := .int 7 }] }
    (∃ (s : Statement) (w₀ : World (List Reply)),
      ending x w = .ok ((Connection.replying.noted? s.sql s.params w₀.outside).getD .null)) ∧
    (ending x w).toOption.bind Value.integral? = some 7 := by
  intro x w
  refine ⟨?_, by decide +kernel⟩
  have hreplying : Database.replying.primary = .connection .replying := rfl
  obtain ⟨-, hinsert⟩ := @insert_answers_key _ Database.replying .replying {} hreplying rfl rfl rfl
  obtain ⟨-, hanswer⟩ := hinsert { table := "users" } [(.text "name", .text "A")] .null (w := w)
    ⟨List.forall_mem_nil _, List.forall_mem_nil _⟩ rfl
  have hruns : (ending (insertion Database.replying {} { table := "users" } [(.text "name", .text "A")] .null) w).isOk := by
    decide +kernel
  cases hrun : ending (insertion Database.replying {} { table := "users" } [(.text "name", .text "A")] .null) w with
  | error f =>
      rw [hrun] at hruns
      cases hruns
  | ok r =>
      obtain ⟨compiler, s, w₀, w₁, -, -, -, -, huntimed⟩ := hanswer r hrun nofun
      exact ⟨s, w₀, (huntimed rfl).1⟩

/-- An insertion whose cursor reports no key answers the key that an insertion into another table was given before. -/
theorem insert_answers_earlier :
    let first := insert (Database.replying.access {}) { table := "users" } [(.text "name", .text "A")] .null
    let second := insert (Database.replying.access {}) { table := "tags" } [(.text "name", .text "a")] .null
    let w : World (List Reply) := { outside := [{ rowcount := .int 1, lastKey := .int 7 }, { rowcount := .int 1 }] }
    (∀ sql params, Connection.replying.noted? sql params (after first w).outside = none) ∧
    (ending second (after first w)).toOption.bind Value.integral? = some 7 := by
  intro first second w
  have hleft : (after first w).outside = [{ rowcount := .int 1 }] := rfl
  refine ⟨fun sql params => ?_, by decide +kernel⟩
  rw [hleft]
  rfl

end Query

end Polyquery
