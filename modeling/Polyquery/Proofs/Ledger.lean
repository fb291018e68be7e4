import Polyquery.Proofs.After
import Polyquery.Proofs.Outcome
import Polyquery.Session.Connection

/-! What statements do to a database. A ledger keeps, for each state of the outside world, the statements whose effects
are committed and those that are pending on the connection. Main statements: inside a transaction a statement leaves
what is committed alone and is pending if the database accepted it; outside, it is committed exactly if it returns, and
nothing is left pending. -/

namespace Polyquery

open Session

/-- A statement as it is sent: its text and its parameters. -/
abbrev Sent := String × List Value

/-- What of a database's state is committed, and what is pending on the connection. -/
structure Ledger (σ : Type) where
  committed : σ → List Sent
  pending : σ → List Sent

variable {σ α β : Type} {L : Ledger σ} {c : Connection σ} {w w' w'' : World σ} {a b : List Sent}

namespace Ledger

/-- The ledger of two states is the same. -/
def Same (L : Ledger σ) (s s' : σ) : Prop := L.committed s' = L.committed s ∧ L.pending s' = L.pending s

/-- An effect that leaves the ledger alone, on every way out. -/
structure Untouched (L : Ledger σ) (x : Effect σ α) : Prop where
  ok : ∀ {s a s'}, x s = .ok a s' → L.Same s s'
  error : ∀ {s f s'}, x s = .error f s' → L.Same s s'

/-- A connection whose statements, commits and rollbacks are as in the ledger. A refused statement adds nothing, a
refused commit commits nothing, and a rollback is never refused. -/
structure Governs (L : Ledger σ) (c : Connection σ) : Prop where
  cursor : L.Untouched c.cursor
  accepted : ∀ {sql params s reply s'}, c.execute sql params s = .ok reply s' →
    L.committed s' = L.committed s ∧ L.pending s' = L.pending s ++ [(sql, params)]
  refused : ∀ {sql params s f s'}, c.execute sql params s = .error f s' → L.Same s s'
  fetch : L.Untouched c.fetch
  close : L.Untouched c.close
  commit : ∀ {s s'}, c.commit s = .ok () s' → L.committed s' = L.committed s ++ L.pending s ∧ L.pending s' = []
  unable : ∀ {s f s'}, c.commit s = .error f s' → L.committed s' = L.committed s
  rollback : ∀ s, ∃ s', c.rollback s = .ok () s' ∧ L.committed s' = L.committed s ∧ L.pending s' = []

end Ledger

namespace Connection

/-- A connection that is never interrupted, and on which cursors are opened and closed without failure. -/
structure Steady (c : Connection σ) : Prop where
  cursor : ∀ s, ∃ s', c.cursor s = .ok () s'
  execute : ∀ {sql params s f s'}, c.execute sql params s = .error f s' → f.isInterrupt = false
  fetch : ∀ {s f s'}, c.fetch s = .error f s' → f.isInterrupt = false
  close : ∀ s, ∃ s', c.close s = .ok () s'
  commit : ∀ {s f s'}, c.commit s = .error f s' → f.isInterrupt = false

/-- Whether a failure is an interrupt that comes from the commit in a state of the outside world. -/
def InterruptsCommit (c : Connection σ) (s : σ) (f : Failure) : Prop :=
  f.isInterrupt = true ∧ ∃ s', c.commit s = .error f s'

/-- Whether the database accepts a statement. -/
def takes (c : Connection σ) (sql : String) (params : List Value) (s : σ) : Bool :=
  match c.execute sql params s with
  | .ok _ _ => true
  | .error _ _ => false

/-- Whether the database accepts a statement on a cursor of its own. -/
def accepts (c : Connection σ) (sql : String) (params : List Value) (s : σ) : Bool :=
  match c.cursor s with
  | .ok () s => c.takes sql params s
  | .error _ _ => false

end Connection

namespace Ledger

/-! ### Steps on a ledger -/

/-- A step between two states of a session that adds pending statements and nothing else that counts: the transaction
is as open as it was, and at the same depth. -/
structure Adds (L : Ledger σ) (w w' : World σ) (sent : List Sent) : Prop where
  committed : L.committed w'.outside = L.committed w.outside
  pending : L.pending w'.outside = L.pending w.outside ++ sent
  inTransaction : w'.primary.inTransaction = w.primary.inTransaction
  depth : w'.depth = w.depth

/-- A computation that sends nothing, whatever comes of it. -/
def Quiet (L : Ledger σ) (x : Session σ α) : Prop := ∀ w, L.Adds w (after x w) []

theorem Adds.trans (h : L.Adds w w' a) (h' : L.Adds w' w'' b) : L.Adds w w'' (a ++ b) where
  committed := h'.committed.trans h.committed
  pending := by rw [h'.pending, h.pending, List.append_assoc]
  inTransaction := h'.inTransaction.trans h.inTransaction
  depth := h'.depth.trans h.depth

/-- A step that sends nothing behind one that does. -/
theorem Adds.quiet (h : L.Adds w w' a) (h' : L.Adds w' w'' []) : L.Adds w w'' a := by
  have hall := h.trans h'
  rwa [List.append_nil] at hall

/-- A change of a session that the ledger does not see. -/
theorem adds_nil (houtside : w'.outside = w.outside) (hprimary : w'.primary.inTransaction = w.primary.inTransaction)
    (hdepth : w'.depth = w.depth) : L.Adds w w' [] :=
  ⟨by rw [houtside], by rw [houtside, List.append_nil], hprimary, hdepth⟩

theorem quiet_pure (a : α) : L.Quiet (pure a : Session σ α) := fun _ => adds_nil rfl rfl rfl

theorem quiet_settle (o : Except Failure α) : L.Quiet (settle o : Session σ α) := by
  intro w
  rw [after, outcome_settle]
  exact adds_nil rfl rfl rfl

theorem quiet_emit (event : Event) : L.Quiet (emit event : Session σ Unit) := fun _ => adds_nil rfl rfl rfl

theorem quiet_setLastKey (link : Link) (key : Value) : L.Quiet (setLastKey link key : Session σ Unit) := by
  intro w
  cases link <;> exact adds_nil rfl rfl rfl

theorem quiet_outside {x : Effect σ α} (h : L.Untouched x) : L.Quiet (outside x) := by
  intro w
  cases hx : x w.outside with
  | ok a s =>
      rw [after, outcome_outside_ok hx]
      exact ⟨(h.ok hx).1, (h.ok hx).2.trans (List.append_nil _).symm, rfl, rfl⟩
  | error f s =>
      rw [after, outcome_outside_error hx]
      exact ⟨(h.error hx).1, (h.error hx).2.trans (List.append_nil _).symm, rfl, rfl⟩

theorem quiet_bind {x : Session σ α} {k : α → Session σ β} (hx : L.Quiet x) (hk : ∀ a, L.Quiet (k a)) :
    L.Quiet (x >>= k) := by
  intro w
  rw [after, outcome_bind]
  cases ending x w with
  | ok a => exact (hx w).trans (hk a _)
  | error f => exact hx w

/-- A session in no transaction, whatever is pending. -/
structure Free (w : World σ) : Prop where
  closed : w.primary.inTransaction = false
  depth : w.depth = 0

/-- A session between its calls: no transaction is open, and nothing is pending. -/
structure Idle (L : Ledger σ) (w : World σ) : Prop where
  closed : w.primary.inTransaction = false
  pending : L.pending w.outside = []
  depth : w.depth = 0

/-- A step that commits statements and leaves nothing else behind. -/
structure Commits (L : Ledger σ) (w w' : World σ) (sent : List Sent) : Prop where
  idle : L.Idle w'
  committed : L.committed w'.outside = L.committed w.outside ++ sent

/-- A step that commits statements if it returns, and nothing if it fails. In neither case it leaves anything behind, unless
a failure cuts it off. -/
def Ends (L : Ledger σ) (cut : Failure → Prop) (w w' : World σ) (sent : List Sent) : Except Failure α → Prop
  | .ok _ => L.Commits w w' sent
  | .error f => Free w' ∧ L.committed w'.outside = L.committed w.outside ∧ (L.pending w'.outside = [] ∨ cut f)

/-- A computation that commits statements if it returns, and nothing if it fails. -/
def Atomic (L : Ledger σ) (x : Session σ α) (w : World σ) (sent : List Sent) : Prop :=
  L.Commits w (after x w) (if (ending x w).isOk then sent else [])

theorem Idle.free (h : L.Idle w) : Free w := ⟨h.closed, h.depth⟩

theorem Commits.trans (h : L.Commits w w' a) (h' : L.Commits w' w'' b) : L.Commits w w'' (a ++ b) :=
  ⟨h'.idle, by rw [h'.committed, h.committed, List.append_assoc]⟩

/-- What counts of the state before is what is committed in it. -/
theorem Commits.of_committed (h : L.Commits w' w'' a) (hsame : L.committed w'.outside = L.committed w.outside) :
    L.Commits w w'' a :=
  ⟨h.idle, by rw [h.committed, hsame]⟩

theorem Adds.free (h : L.Adds w w' a) (hfree : Free w) : Free w' :=
  ⟨h.inTransaction.trans hfree.closed, h.depth.trans hfree.depth⟩

/-- A step that sends nothing leaves an idle session idle. -/
theorem Adds.commits (h : L.Adds w w' []) (hidle : L.Idle w) : L.Commits w w' [] where
  idle := ⟨h.inTransaction.trans hidle.closed, by rw [h.pending, hidle.pending]; rfl, h.depth.trans hidle.depth⟩
  committed := by rw [h.committed, List.append_nil]

theorem atomic_ok {x : Session σ α} {a : α} {sent : List Sent} (h : outcome x w = (.ok a, w'))
    (hcommits : L.Commits w w' sent) : L.Atomic x w sent := by
  rw [Atomic, after, ending, h]
  exact hcommits

theorem Atomic.ok {x : Session σ α} {r : α} {sent : List Sent} (h : L.Atomic x w sent)
    (hx : outcome x w = (.ok r, w')) : L.Commits w w' sent := by
  rw [Atomic, after, ending, hx] at h
  exact h

theorem Atomic.error {x : Session σ α} {f : Failure} {sent : List Sent} (h : L.Atomic x w sent)
    (hx : outcome x w = (.error f, w')) : L.Commits w w' [] := by
  rw [Atomic, after, ending, hx] at h
  exact h

theorem atomic_error {x : Session σ α} {f : Failure} {sent : List Sent} (h : outcome x w = (.error f, w'))
    (hcommits : L.Commits w w' []) : L.Atomic x w sent := by
  rw [Atomic, after, ending, h]
  exact hcommits

section

variable {cut : Failure → Prop} {o : Except Failure α} {x : Session σ α} {r : α} {f : Failure}

theorem ends_ok (h : outcome x w' = (.ok r, w'')) (hcommits : L.Commits w w'' a) :
    L.Ends cut w (after x w') a (ending x w') := by
  rw [after, ending, h]
  exact hcommits

theorem ends_error (h : outcome x w' = (.error f, w'')) (hfree : Free w'')
    (hcommitted : L.committed w''.outside = L.committed w.outside) (hpending : L.pending w''.outside = [] ∨ cut f) :
    L.Ends cut w (after x w') a (ending x w') := by
  rw [after, ending, h]
  exact ⟨hfree, hcommitted, hpending⟩

theorem Ends.ok (h : L.Ends cut w (after x w') a (ending x w')) (hx : outcome x w' = (.ok r, w'')) :
    L.Commits w w'' a := by
  rw [after, ending, hx] at h
  exact h

theorem Ends.error (h : L.Ends cut w (after x w') a (ending x w')) (hx : outcome x w' = (.error f, w'')) :
    Free w'' ∧ L.committed w''.outside = L.committed w.outside ∧ (L.pending w''.outside = [] ∨ cut f) := by
  rw [after, ending, hx] at h
  exact h

theorem Ends.free (h : L.Ends cut w w' a o) : Free w' := by
  cases o with
  | ok r => exact Idle.free (Commits.idle h)
  | error f => exact h.1

/-- Nothing stays pending where nothing is cut off. -/
theorem Ends.pending (h : L.Ends cut w w' a o) : L.pending w'.outside = [] ∨ ∃ f, o = .error f ∧ cut f := by
  cases o with
  | ok r => exact .inl (Idle.pending (Commits.idle h))
  | error f => exact h.2.2.imp id fun hcut => ⟨f, rfl, hcut⟩

/-- What ends so without being cut off is atomic. -/
theorem Ends.atomic (h : L.Ends cut w' (after x w) a (ending x w))
    (hsame : L.committed w'.outside = L.committed w.outside) (hcut : ∀ f, ending x w = .error f → ¬cut f) :
    L.Atomic x w a := by
  rcases outcome_cases x w with ⟨r, hr⟩ | ⟨f, hf⟩
  · exact atomic_ok hr ((h.ok hr).of_committed hsame)
  · obtain ⟨hfree, hcommitted, hpending⟩ := h.error hf
    have hempty := hpending.resolve_right (hcut f (by rw [ending, hf]))
    refine atomic_error hf ⟨⟨hfree.closed, hempty, hfree.depth⟩, ?_⟩
    rw [hcommitted, hsame, List.append_nil]

end

end Ledger

/-! ### Statements -/

/-- A computation whose failures are no interrupts. -/
def Ordinary (x : Session σ α) : Prop := ∀ w f, ending x w = .error f → f.isInterrupt = false

theorem ordinary_bind {x : Session σ α} {k : α → Session σ β} (hx : Ordinary x) (hk : ∀ a, Ordinary (k a)) :
    Ordinary (x >>= k) :=
  raises_bind hx hk

theorem ordinary_pure (a : α) : Ordinary (pure a : Session σ α) := raises_pure a

theorem ordinary_settle {o : Except Failure α} (h : ∀ f, o = .error f → f.isInterrupt = false) :
    Ordinary (settle o : Session σ α) :=
  raises_settle h

theorem ordinary_outside {x : Effect σ α} (h : ∀ {s f s'}, x s = .error f s' → f.isInterrupt = false) :
    Ordinary (outside x) :=
  raises_outside h

theorem isInterrupt_affected {r : Reply} {f : Failure} (h : r.affected = .error f) : f.isInterrupt = false := by
  unfold Reply.affected at h
  split at h
  · cases h
  · split at h <;> cases h
    rfl

theorem isInterrupt_resultRows {columns : List Value} {data : List (List Value)} {f : Failure}
    (h : Connection.resultRows columns data = .error f) : f.isInterrupt = false := by
  obtain ⟨cells, -, hcells⟩ := exists_of_mapM_error h
  dsimp only at hcells
  split at hcells
  · cases hcells
    rfl
  · cases hcells

namespace Connection

/-- The result of a statement that was accepted. -/
def gather (c : Connection σ) (reply : Reply) : Session σ Result :=
  if reply.columns.isEmpty then do
    pure { rowcount := ← settle reply.affected : Result }
  else do
    let rows ← settle (resultRows reply.columns (← outside c.fetch))
    pure { rows, rowcount := .int rows.length : Result }

/-- Sends a statement and takes its result. -/
def ask (c : Connection σ) (link : Link) (sql : String) (params : List Value) : Session σ Result := do
  emit (.wire link (.execute sql params))
  let reply ← outside (c.execute sql params)
  let result ← c.gather reply
  if reply.lastKey.isTruthy then setLastKey link reply.lastKey
  pure (if reply.lastKey.isTruthy then { result with lastKey := reply.lastKey } else result)

/-- Takes the result of a statement that was accepted, and notes the key it generated. -/
def receive (c : Connection σ) (link : Link) (reply : Reply) : Session σ Result := do
  let result ← c.gather reply
  if reply.lastKey.isTruthy then setLastKey link reply.lastKey
  pure (if reply.lastKey.isTruthy then { result with lastKey := reply.lastKey } else result)

theorem ask_eq (c : Connection σ) (link : Link) (sql : String) (params : List Value) :
    c.ask link sql params = (do
      emit (.wire link (.execute sql params))
      let reply ← outside (c.execute sql params)
      c.receive link reply) := rfl

/-- Commits outside transactions. -/
def publish (c : Connection σ) (link : Link) : Session σ Unit := do
  unless ← inTransaction link do
    emit (.wire link .commit)
    outside c.commit

theorem send_eq (c : Connection σ) (link : Link) (sql : String) (params : List Value) :
    c.send link sql params = (do
      let result ← c.ask link sql params
      c.publish link
      pure result) := by
  have hpublish : ∀ r : Result, (do
      c.publish link
      pure r) = (do
        if ← inTransaction link then pure r
        else do
          emit (.wire link .commit)
          outside c.commit
          pure r : Session σ Result) := by
    intro r
    rw [publish, bind_assoc]
    congr 1
    funext on
    cases on <;> rfl
  simp only [hpublish, send, ask, gather, bind_assoc]
  congr 1
  funext _
  congr 1
  funext reply
  cases reply.columns.isEmpty <;> cases reply.lastKey.isTruthy <;> simp [bind_assoc]

variable {d : Dialect} {link : Link} {sql : String} {params : List Value}

theorem quiet_gather (G : L.Governs c) (reply : Reply) : L.Quiet (c.gather reply) := by
  unfold gather
  split
  · exact Ledger.quiet_bind (Ledger.quiet_settle _) fun _ => Ledger.quiet_pure _
  · exact Ledger.quiet_bind (Ledger.quiet_outside G.fetch) fun _ =>
      Ledger.quiet_bind (Ledger.quiet_settle _) fun _ => Ledger.quiet_pure _

theorem quiet_receive (G : L.Governs c) (link : Link) (reply : Reply) : L.Quiet (c.receive link reply) := by
  refine Ledger.quiet_bind (quiet_gather G reply) fun result => ?_
  split
  · exact Ledger.quiet_bind (Ledger.quiet_setLastKey link _) fun _ => Ledger.quiet_pure _
  · exact Ledger.quiet_pure _

theorem ordinary_gather (hfetch : ∀ {s f s'}, c.fetch s = .error f s' → f.isInterrupt = false) (reply : Reply) :
    Ordinary (c.gather reply) := by
  unfold gather
  split
  · exact ordinary_bind (ordinary_settle fun _ => isInterrupt_affected) fun _ => ordinary_pure _
  · exact ordinary_bind (ordinary_outside hfetch) fun _ =>
      ordinary_bind (ordinary_settle fun _ => isInterrupt_resultRows) fun _ => ordinary_pure _

/-- A refused statement is not pending. -/
theorem ask_refused (G : L.Governs c) (link : Link) {f : Failure} {s : σ}
    (h : c.execute sql params w.outside = .error f s) :
    ending (c.ask link sql params) w = .error f ∧ L.Adds w (after (c.ask link sql params) w) [] := by
  have hask : outcome (c.ask link sql params) w = (.error f, called w (.wire link (.execute sql params)) s) :=
    outcome_call_bind_error h _ _
  rw [ending, after, hask]
  exact ⟨rfl, (G.refused h).1, (G.refused h).2.trans (List.append_nil _).symm, rfl, rfl⟩

/-- An accepted statement is pending, even where its result cannot be taken. -/
theorem ask_accepted (G : L.Governs c) {reply : Reply} {s : σ} (h : c.execute sql params w.outside = .ok reply s) :
    L.Adds w (after (c.ask link sql params) w) [(sql, params)] := by
  have hsent : L.Adds w (called w (.wire link (.execute sql params)) s) [(sql, params)] :=
    ⟨(G.accepted h).1, (G.accepted h).2, rfl, rfl⟩
  rw [after, ask_eq, outcome_call_bind_ok h]
  exact hsent.quiet (quiet_receive G link reply _)

theorem ask_adds (G : L.Governs c) (link : Link) (sql : String) (params : List Value) (w : World σ) :
    L.Adds w (after (c.ask link sql params) w) (if c.takes sql params w.outside then [(sql, params)] else []) := by
  cases hexecute : c.execute sql params w.outside with
  | ok reply s =>
      rw [takes, hexecute]
      exact ask_accepted G hexecute
  | error f s =>
      rw [takes, hexecute]
      exact (ask_refused G link hexecute).2

/-- The result of a statement is taken without an interrupt if its rows can be fetched so. -/
theorem ordinary_receive (hfetch : ∀ {s f s'}, c.fetch s = .error f s' → f.isInterrupt = false) (link : Link)
    (reply : Reply) : Ordinary (c.receive link reply) := by
  refine ordinary_bind (ordinary_gather hfetch reply) fun result => ?_
  split
  · exact ordinary_bind (fun w f h => by cases h) fun _ => ordinary_pure _
  · exact ordinary_pure _

theorem ordinary_ask (S : c.Steady) : Ordinary (c.ask link sql params) :=
  ordinary_bind (fun w f h => by cases h) fun _ =>
    ordinary_bind (ordinary_outside S.execute) fun reply => ordinary_receive S.fetch link reply

theorem ordinary_publish (hcommit : ∀ {s f s'}, c.commit s = .error f s' → f.isInterrupt = false) (link : Link) :
    Ordinary (c.publish link) := by
  intro w f hf
  rw [ending, publish, outcome_inTransaction_bind] at hf
  split at hf
  · cases hf
  · exact ordinary_bind (fun w f h => by cases h) (fun _ => ordinary_outside hcommit) w f hf

theorem adds_called {event : Event} {s : σ} (h : L.Same w.outside s) : L.Adds w (called w event s) [] :=
  ⟨h.1, h.2.trans (List.append_nil _).symm, rfl, rfl⟩

/-- Around a statement its cursor is opened and closed. -/
theorem runOnCursor_steps (G : L.Governs c) (S : c.Steady) (d : Dialect) (sql : String) (params : List Value)
    (w : World σ) :
    ∃ opened closed, c.cursor w.outside = .ok () opened.outside ∧ L.Adds w opened [] ∧
      outcome (c.runOnCursor d .primary sql params) w = (ending (c.run d .primary sql params) opened, closed) ∧
      L.Adds (after (c.run d .primary sql params) opened) closed [] := by
  obtain ⟨s, hcursor⟩ := S.cursor w.outside
  obtain ⟨s', hclose⟩ := S.close (after (c.run d .primary sql params) (called w (.wire .primary .cursor) s)).outside
  refine ⟨_, called _ (.wire .primary .close) s', hcursor, adds_called (G.cursor.ok hcursor), ?_,
    adds_called (G.close.ok hclose)⟩
  rw [runOnCursor, outcome_call_bind_ok hcursor]
  exact outcome_ensuring_ok (outcome_call_ok hclose _)

/-! ### Inside a transaction -/

theorem publish_open (h : (w.link link).inTransaction = true) : outcome (c.publish link) w = (.ok (), w) := by
  rw [publish, outcome_inTransaction_bind, h]
  rfl

theorem outcome_send_open (G : L.Governs c) (hopen : w.primary.inTransaction = true) :
    outcome (c.send .primary sql params) w = outcome (c.ask .primary sql params) w := by
  have hstill : ((after (c.ask .primary sql params) w).link .primary).inTransaction = true :=
    (ask_adds G .primary sql params w).inTransaction.trans hopen
  rw [send_eq]
  rcases outcome_cases (c.ask .primary sql params) w with ⟨result, hask⟩ | ⟨f, hask⟩
  · rw [outcome_bind_ok hask, outcome_bind_ok (publish_open hstill), hask]
    rfl
  · rw [outcome_bind_error hask, hask]

/-- A failure of a statement inside a transaction is only translated. -/
theorem after_run_open (G : L.Governs c) (hopen : w.primary.inTransaction = true) :
    after (c.run d .primary sql params) w = after (c.ask .primary sql params) w := by
  have hstill : ((after (c.ask .primary sql params) w).link .primary).inTransaction = true :=
    (ask_adds G .primary sql params w).inTransaction.trans hopen
  have hsend : outcome (c.send .primary sql params) w = _ := outcome_send_open G hopen
  rcases outcome_cases (c.ask .primary sql params) w with ⟨result, hask⟩ | ⟨f, hask⟩
  · rw [after, run, outcome_attempt_bind_of (hsend.trans hask)]
    rfl
  · rw [after, run, outcome_attempt_bind_of (hsend.trans hask)]
    dsimp only
    split
    · rfl
    · rw [outcome_inTransaction_bind, hstill]
      rfl

/-- Inside a transaction a statement is pending if the database accepted it, whatever becomes of its result. -/
theorem runOnCursor_open (G : L.Governs c) (S : c.Steady) (hopen : w.primary.inTransaction = true) :
    L.Adds w (after (c.runOnCursor d .primary sql params) w)
      (if c.accepts sql params w.outside then [(sql, params)] else []) := by
  obtain ⟨opened, closed, hcursor, hopened, houtcome, hclosed⟩ := runOnCursor_steps G S d sql params w
  have hask : L.Adds opened (after (c.run d .primary sql params) opened)
      (if c.takes sql params opened.outside then [(sql, params)] else []) := by
    rw [after_run_open G (hopened.inTransaction.trans hopen)]
    exact ask_adds G .primary sql params opened
  rw [after, houtcome, accepts, hcursor]
  exact (hopened.trans hask).quiet hclosed

/-! ### Outside of transactions -/

theorem undo_closed (G : L.Governs c) (hfree : Ledger.Free w) :
    ∃ w', outcome (c.undo .primary) w = (.ok (), w') ∧ L.Commits w w' [] := by
  obtain ⟨s, hrollback, hcommitted, hpending⟩ := G.rollback w.outside
  refine ⟨called w (.wire .primary .rollback) s, ?_, ⟨hfree.closed, hpending, hfree.depth⟩, ?_⟩
  · exact outcome_attempt_call_ok hrollback _ _
  · rw [List.append_nil]
    exact hcommitted

/-- A statement that is sent outside of transactions is committed if it returns; if it fails it may be left pending once
the database has accepted it. -/
theorem send_ends (G : L.Governs c) (sql : String) (params : List Value) (hidle : L.Idle w) :
    L.Ends (fun _ => c.takes sql params w.outside = true) w (after (c.send .primary sql params) w) [(sql, params)]
      (ending (c.send .primary sql params) w) := by
  have hadds := ask_adds G .primary sql params w
  have hfree := hadds.free hidle.free
  have hpending := hadds.pending
  rw [hidle.pending, List.nil_append] at hpending
  rw [send_eq]
  rcases outcome_cases (c.ask .primary sql params) w with ⟨result, hask⟩ | ⟨f, hask⟩
  · have htakes : c.takes sql params w.outside = true := by
      cases hexecute : c.execute sql params w.outside with
      | ok reply s => rw [takes, hexecute]
      | error f s =>
          have hrefused := (ask_refused G .primary hexecute).1
          rw [ending, hask] at hrefused
          cases hrefused
    rw [if_pos htakes] at hpending
    have hpublish : outcome (c.publish .primary) (after (c.ask .primary sql params) w) = outcome (do
        emit (.wire .primary .commit)
        outside c.commit) (after (c.ask .primary sql params) w) := by
      rw [publish, outcome_inTransaction_bind]
      change outcome (if (after (c.ask .primary sql params) w).primary.inTransaction then _ else _) _ = _
      rw [hfree.closed]
      rfl
    cases hcommit : c.commit (after (c.ask .primary sql params) w).outside with
    | ok _ s =>
        have hdone := outcome_bind_ok (k := fun _ => pure result) (hpublish.trans (outcome_call_ok hcommit _))
        refine Ledger.ends_ok ((outcome_bind_ok hask).trans hdone) ⟨⟨hfree.closed, (G.commit hcommit).2, hfree.depth⟩, ?_⟩
        exact (G.commit hcommit).1.trans (by rw [hadds.committed, hpending])
    | error f s =>
        have hfailed := outcome_bind_error (k := fun _ => pure result) (hpublish.trans (outcome_call_error hcommit _))
        exact Ledger.ends_error ((outcome_bind_ok hask).trans hfailed) ⟨hfree.closed, hfree.depth⟩
          ((G.unable hcommit).trans hadds.committed) (.inr htakes)
  · refine Ledger.ends_error (outcome_bind_error hask) hfree hadds.committed ?_
    cases htakes : c.takes sql params w.outside with
    | true => exact .inr rfl
    | false =>
        rw [htakes] at hpending
        exact .inl hpending

/-- Outside of transactions a statement is committed if it returns; if it fails nothing of it is left, unless an interrupt
comes after the database has accepted it. -/
theorem run_ends (G : L.Governs c) (d : Dialect) (sql : String) (params : List Value) (hidle : L.Idle w) :
    L.Ends (fun f => f.isInterrupt = true ∧ c.takes sql params w.outside = true ∧
        ending (c.send .primary sql params) w = .error f)
      w (after (c.run d .primary sql params) w) [(sql, params)] (ending (c.run d .primary sql params) w) := by
  have hends := send_ends G sql params hidle
  rcases outcome_cases (c.send .primary sql params) w with ⟨result, hsend⟩ | ⟨f, hsend⟩
  · refine Ledger.ends_ok (r := result) ?_ (hends.ok hsend)
    rw [run, outcome_attempt_bind_of hsend]
    rfl
  · obtain ⟨hfree, hcommitted, hpending⟩ := hends.error hsend
    cases hinterrupt : f.isInterrupt with
    | true =>
        refine Ledger.ends_error (f := f) ?_ hfree hcommitted
          (hpending.imp id fun htakes => ⟨hinterrupt, htakes, congrArg Prod.fst hsend⟩)
        rw [run, outcome_attempt_bind_of hsend]
        dsimp only
        rw [hinterrupt, if_pos rfl, outcome_throw]
    | false =>
        obtain ⟨w', hundo, hcommits⟩ := undo_closed G hfree
        have hback := hcommits.of_committed hcommitted
        have hrun : outcome (c.run d .primary sql params) w = (.error (translated d sql f), w') := by
          rw [run, outcome_attempt_bind_of hsend]
          dsimp only
          rw [hinterrupt, if_neg Bool.false_ne_true, outcome_inTransaction_bind]
          change outcome (if (after (c.send .primary sql params) w).primary.inTransaction then _ else _) _ = _
          rw [hfree.closed, if_neg Bool.false_ne_true]
          exact outcome_bind_ok hundo
        refine Ledger.ends_error hrun hback.idle.free ?_ (.inl hback.idle.pending)
        rw [hback.committed, List.append_nil]

theorem ordinary_send (S : c.Steady) (link : Link) : Ordinary (c.send link sql params) := by
  rw [send_eq]
  exact ordinary_bind (ordinary_ask S) fun _ => ordinary_bind (ordinary_publish S.commit link) fun _ => ordinary_pure _

/-- Outside of transactions a statement is committed if it returns; if it fails nothing of it is left. -/
theorem run_closed (G : L.Governs c) (S : c.Steady) (hidle : L.Idle w) :
    L.Atomic (c.run d .primary sql params) w [(sql, params)] := by
  refine (run_ends G d sql params hidle).atomic rfl fun f hf hcut => ?_
  obtain ⟨hinterrupt, -, hsend⟩ := hcut
  rw [ordinary_send S .primary w f hsend] at hinterrupt
  cases hinterrupt

/-- Outside of transactions a statement on a cursor is committed if it returns; if it fails nothing of it is left. -/
theorem runOnCursor_closed (G : L.Governs c) (S : c.Steady) (hidle : L.Idle w) :
    L.Atomic (c.runOnCursor d .primary sql params) w [(sql, params)] := by
  obtain ⟨opened, closed, -, hopened, houtcome, hclosed⟩ := runOnCursor_steps G S d sql params w
  have hready := hopened.commits hidle
  have hrun : L.Atomic (c.run d .primary sql params) opened [(sql, params)] := run_closed G S hready.idle
  rw [Ledger.Atomic, ending, after, houtcome]
  have hall := (hready.trans hrun).trans (hclosed.commits hrun.idle)
  rwa [List.nil_append, List.append_nil] at hall

/-- Whether an interrupt comes in the middle of a statement on a cursor: after the database has accepted it, and before it
is committed. -/
def IsInterrupted (c : Connection σ) (sql : String) (params : List Value) (w : World σ) : Prop :=
  ∃ s f, c.cursor w.outside = .ok () s ∧ c.takes sql params s = true ∧ f.isInterrupt = true ∧
    ending (c.send .primary sql params) (called w (.wire .primary .cursor) s) = .error f

/-- Behind a statement its cursor is closed, whether that succeeds or not. -/
theorem runOnCursor_closes (G : L.Governs c) (d : Dialect) (sql : String) (params : List Value) {s : σ}
    (hcursor : c.cursor w.outside = .ok () s) :
    L.Adds (after (c.run d .primary sql params) (called w (.wire .primary .cursor) s))
      (after (c.runOnCursor d .primary sql params) w) [] := by
  have hclosed : after (c.runOnCursor d .primary sql params) w = after (do
      emit (.wire .primary .close)
      outside c.close) (after (c.run d .primary sql params) (called w (.wire .primary .cursor) s)) := by
    rw [← after_ensuring]
    exact congrArg Prod.snd (outcome_call_bind_ok hcursor (.wire .primary .cursor) _)
  rw [hclosed]
  exact Ledger.quiet_bind (Ledger.quiet_emit _) (fun _ => Ledger.quiet_outside G.close) _

/-- Where no cursor can be opened, nothing else happens. -/
theorem runOnCursor_unopened (G : L.Governs c) (d : Dialect) (sql : String) (params : List Value) {f : Failure} {s : σ}
    (hcursor : c.cursor w.outside = .error f s) : L.Adds w (after (c.runOnCursor d .primary sql params) w) [] := by
  have hfailed : after (c.runOnCursor d .primary sql params) w = called w (.wire .primary .cursor) s :=
    congrArg Prod.snd (outcome_call_bind_error hcursor (.wire .primary .cursor) _)
  rw [hfailed]
  exact adds_called (G.cursor.error hcursor)

/-- Inside a transaction a statement on a cursor only adds to what is pending, whatever fails. -/
theorem runOnCursor_adds (G : L.Governs c) (d : Dialect) (sql : String) (params : List Value)
    (hopen : w.primary.inTransaction = true) :
    ∃ sent, L.Adds w (after (c.runOnCursor d .primary sql params) w) sent := by
  cases hcursor : c.cursor w.outside with
  | error f s => exact ⟨[], runOnCursor_unopened G d sql params hcursor⟩
  | ok _ s =>
      have hopened : L.Adds w (called w (.wire .primary .cursor) s) [] := adds_called (G.cursor.ok hcursor)
      have hasked := ask_adds G .primary sql params (called w (.wire .primary .cursor) s)
      rw [← after_run_open (d := d) G (hopened.inTransaction.trans hopen)] at hasked
      exact ⟨_, (hopened.trans hasked).quiet (runOnCursor_closes G d sql params hcursor)⟩

/-- Outside of transactions a statement on a cursor leaves nothing pending, whatever fails, unless an interrupt comes in the
middle of it. -/
theorem runOnCursor_leaves (G : L.Governs c) (d : Dialect) (sql : String) (params : List Value) (hidle : L.Idle w) :
    let w' := after (c.runOnCursor d .primary sql params) w
    Ledger.Free w' ∧ (L.pending w'.outside = [] ∨ c.IsInterrupted sql params w) := by
  intro w'
  cases hcursor : c.cursor w.outside with
  | error f s =>
      have hleft := (runOnCursor_unopened G d sql params hcursor).commits hidle
      exact ⟨hleft.idle.free, .inl hleft.idle.pending⟩
  | ok _ s =>
      have hopened : L.Commits w (called w (.wire .primary .cursor) s) [] :=
        (adds_called (G.cursor.ok hcursor)).commits hidle
      have hends := run_ends G d sql params hopened.idle
      have hclose : L.Adds _ w' [] := runOnCursor_closes G d sql params hcursor
      refine ⟨hclose.free hends.free, ?_⟩
      rw [hclose.pending, List.append_nil]
      exact hends.pending.imp id fun ⟨f, _, hinterrupt, htakes, hsend⟩ => ⟨s, f, hcursor, htakes, hinterrupt, hsend⟩

end Connection

end Polyquery
