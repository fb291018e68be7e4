import Mathlib.Order.Defs.Unbundled
import Polyquery.Proofs.Ledger
import Polyquery.Session.Pipeline

/-! Where computations lead. A relation between worlds that is reflexive and transitive holds between the ends of a
computation once it holds between the ends of each of its steps. Main statement: a driver keeps all that belongs to the
session apart from the journal, in which a statement leaves only events of its own. -/

namespace Polyquery

open Session

variable {σ α β : Type}

namespace Session

/-- A computation that leads from every world to a related one, whatever comes of it. -/
def Leads (R : World σ → World σ → Prop) (x : Session σ α) : Prop := ∀ w, R w (after x w)

section

variable {R R' : World σ → World σ → Prop}

theorem Leads.mono {x : Session σ α} (hx : Leads R x) (h : ∀ {w w'}, R w w' → R' w w') : Leads R' x :=
  fun w => h (hx w)

theorem leads_attempt {x : Session σ α} (hx : Leads R x) : Leads R (attempt x) := hx

variable [IsPreorder (World σ) R]

theorem leads_pure (a : α) : Leads R (pure a : Session σ α) := fun w => refl_of R w

theorem leads_throw (f : Failure) : Leads R (throw f : Session σ α) := fun w => refl_of R w

theorem leads_get : Leads R (get : Session σ (World σ)) := fun w => refl_of R w

theorem leads_inTransaction (link : Link) : Leads R (inTransaction link : Session σ Bool) := fun w => refl_of R w

theorem leads_settle (o : Except Failure α) : Leads R (settle o : Session σ α) := by
  intro w
  rw [after, outcome_settle]
  exact refl_of R w

/-- Where a computation has led, what follows it leads on. -/
theorem leads_behind {x : Session σ α} {k : α → Session σ β} (hk : ∀ a, Leads R (k a)) (w : World σ) :
    R (after x w) (after (x >>= k) w) := by
  rw [after, after, outcome_bind]
  cases ending x w with
  | ok a => exact hk a _
  | error f => exact refl_of R _

theorem leads_bind {x : Session σ α} {k : α → Session σ β} (hx : Leads R x) (hk : ∀ a, Leads R (k a)) :
    Leads R (x >>= k) :=
  fun w => trans_of R (hx w) (leads_behind hk w)

theorem leads_when {p : Prop} [Decidable p] {x : Session σ Unit} {k : Session σ α} (hx : Leads R x) (hk : Leads R k) :
    Leads R (if p then x >>= fun _ => k else k) := by
  split
  · exact leads_bind hx fun _ => hk
  · exact hk

theorem leads_forM {as : List β} {k : β → Session σ PUnit} (hk : ∀ a ∈ as, Leads R (k a)) : Leads R (as.forM k) := by
  induction as with
  | nil => exact leads_pure _
  | cons a as ih =>
      obtain ⟨ha, has⟩ := List.forall_mem_cons.1 hk
      exact leads_bind ha fun _ => ih has

theorem leads_ensuring {x : Session σ α} {cleanup : Session σ Unit} (hx : Leads R x) (hcleanup : Leads R cleanup) :
    Leads R (ensuring x cleanup) :=
  leads_bind (leads_attempt hx) fun _ => leads_bind hcleanup fun _ => leads_settle _

end

end Session

/-! ### What belongs to the session -/

/-- Whether every cached statement has the text that it is kept under. -/
def World.IsFaithful (w : World σ) : Prop := ∀ entry ∈ w.cache.entries, entry.2.sql = entry.1.sql

/-- Two worlds of one session with nothing but events of a kind between them: open transactions, what is recorded and the
hooks of the caller are the same. -/
structure World.Kept (allowed : Event → Prop) (w w' : World σ) : Prop where
  journal : ∃ events, w'.journal = w.journal ++ events ∧ ∀ event ∈ events, allowed event
  faithful : w'.IsFaithful
  opened : ∀ link, (w'.link link).inTransaction = (w.link link).inTransaction
  depth : w'.depth = w.depth
  recorder : w'.recorder = w.recorder
  layers : w'.layers = w.layers
  chains : w'.chains = w.chains

/-- What a step keeps that starts with a faithful cache. -/
def World.Keeps (allowed : Event → Prop) (w w' : World σ) : Prop := w.IsFaithful → w.Kept allowed w'

section

variable {allowed allowed' : Event → Prop} {w w' w'' : World σ}

/-- What is known of the links says whether transactions are open on them. -/
theorem World.opened_eq (hprimary : w'.primary = w.primary) (hreplica : w'.replica = w.replica)
    (hfurther : w'.further = w.further) (link : Link) : (w'.link link).inTransaction = (w.link link).inTransaction := by
  cases link with
  | primary => exact congrArg LinkState.inTransaction hprimary
  | replica => exact congrArg LinkState.inTransaction hreplica
  | further number => exact congrArg LinkState.inTransaction (congrFun hfurther number)

/-- What is known of a link is what was set for it, and nothing else is set with it. -/
theorem World.link_setLink (w : World σ) (link : Link) (state : LinkState) (other : Link) :
    (w.setLink link state).link other = if other = link then state else w.link other := by
  cases link with
  | primary => cases other <;> rfl
  | replica => cases other <;> rfl
  | further number => cases other <;> simp [World.setLink, World.link]

theorem World.Kept.trans (h : w.Kept allowed w') (h' : w'.Kept allowed w'') : w.Kept allowed w'' := by
  obtain ⟨events, hevents, hallowed⟩ := h.journal
  obtain ⟨events', hevents', hallowed'⟩ := h'.journal
  refine ⟨⟨events ++ events', ?_, List.forall_mem_append.2 ⟨hallowed, hallowed'⟩⟩, h'.faithful,
    fun link => (h'.opened link).trans (h.opened link), h'.depth.trans h.depth, h'.recorder.trans h.recorder,
    h'.layers.trans h.layers, h'.chains.trans h.chains⟩
  rw [hevents', hevents, List.append_assoc]

theorem World.Kept.mono (h : w.Kept allowed w') (hmono : ∀ event, allowed event → allowed' event) :
    w.Kept allowed' w' := by
  obtain ⟨events, hevents, hallowed⟩ := h.journal
  exact { h with journal := ⟨events, hevents, fun event hmem => hmono event (hallowed event hmem)⟩ }

theorem World.kept_silent (hcache : w'.IsFaithful) (hjournal : w'.journal = w.journal)
    (hopened : ∀ link, (w'.link link).inTransaction = (w.link link).inTransaction) (hdepth : w'.depth = w.depth)
    (hrecorder : w'.recorder = w.recorder) (hlayers : w'.layers = w.layers) (hchains : w'.chains = w.chains) :
    w.Kept allowed w' :=
  ⟨⟨[], by rw [hjournal, List.append_nil], List.forall_mem_nil _⟩, hcache, hopened, hdepth, hrecorder, hlayers, hchains⟩

instance : IsPreorder (World σ) (World.Keeps allowed) where
  refl _ hw := World.kept_silent hw rfl (fun _ => rfl) rfl rfl rfl rfl
  trans _ _ _ h h' hw := (h hw).trans (h' (h hw).faithful)

theorem keeps_emit {event : Event} (h : allowed event) : Leads (World.Keeps allowed) (emit event : Session σ Unit) :=
  fun _ hw => ⟨⟨[event], rfl, List.forall_mem_singleton.2 h⟩, hw, fun _ => rfl, rfl, rfl, rfl, rfl⟩

theorem keeps_outside (x : Effect σ α) : Leads (World.Keeps allowed) (outside x) := by
  intro w hw
  have hkept : ∀ s : σ, w.Kept allowed { w with outside := s } := fun s =>
    World.kept_silent hw rfl (World.opened_eq rfl rfl rfl) rfl rfl rfl rfl
  cases hx : x w.outside with
  | ok a s =>
      rw [after, outcome_outside_ok hx]
      exact hkept s
  | error f s =>
      rw [after, outcome_outside_error hx]
      exact hkept s

theorem keeps_call {event : Event} (h : allowed event) (x : Effect σ α) :
    Leads (World.Keeps allowed) (do
      emit event
      outside x) :=
  leads_bind (keeps_emit h) fun _ => keeps_outside x

theorem keeps_setLastKey (link : Link) (key : Value) :
    Leads (World.Keeps allowed) (setLastKey link key : Session σ Unit) := by
  intro w hw
  have hopened : ∀ other, ((w.setLink link { w.link link with lastKey := key }).link other).inTransaction =
      (w.link other).inTransaction := by
    intro other
    rw [World.link_setLink]
    split
    · rename_i hother
      rw [hother]
    · rfl
  cases link <;> exact World.kept_silent hw rfl hopened rfl rfl rfl rfl

end

/-! ### Statements on their way to a driver -/

/-- The events that a driver leaves for a statement: it is prepared and executed, over a connection on a cursor of its own
and with its own commit or rollback, and what goes wrong in the end is logged. -/
inductive Event.OfStatement (link : Link) (sql : String) (params : List Value) : Event → Prop
  | prepared : OfStatement link sql params (.driver link (.prepare sql))
  | executed : OfStatement link sql params (.driver link (.execute sql params))
  | sent : OfStatement link sql params (.wire link (.execute sql params))
  | opened : OfStatement link sql params (.wire link .cursor)
  | closed : OfStatement link sql params (.wire link .close)
  | committed : OfStatement link sql params (.wire link .commit)
  | rolledBack : OfStatement link sql params (.wire link .rollback)
  | logged (level : LogLevel) (name : String) (about : Particulars) :
    OfStatement link sql params (.logged level name about)

/-- The statement that an event executes. -/
def Event.executed? : Event → Option Sent
  | driver _ (.execute sql params) | wire _ (.execute sql params) => some (sql, params)
  | _ => none

theorem Event.OfStatement.eq_of_executed {link : Link} {sql : String} {params : List Value} {event : Event} {sent : Sent}
    (h : OfStatement link sql params event) (hsent : event.executed? = some sent) : sent = (sql, params) := by
  cases h <;> cases hsent <;> rfl

/-- A faithful cache answers with the text that it is asked for, and stays faithful. -/
theorem StatementCache.getOrCreate_faithful {cache : StatementCache Prepared}
    (h : ∀ entry ∈ cache.entries, entry.2.sql = entry.1.sql) (dialect sql : String) :
    ∃ cache', cache.getOrCreate ⟨dialect, sql⟩ (.ok ⟨sql⟩ : Except Failure Prepared) = (.ok ⟨sql⟩, cache') ∧
      ∀ entry ∈ cache'.entries, entry.2.sql = entry.1.sql := by
  have hlatest : ∀ entry ∈ latest ⟨dialect, sql⟩ ⟨sql⟩ cache.entries, entry.2.sql = entry.1.sql := by
    intro entry hentry
    rcases List.mem_append.1 hentry with hold | hnew
    · exact h entry (List.mem_filter.1 hold).1
    · rw [List.mem_singleton.1 hnew]
  rw [getOrCreate, getOrCreateBy]
  cases hfound : cache.get? ⟨dialect, sql⟩ with
  | some statement =>
      obtain ⟨entry, hentry, rfl⟩ := Option.map_eq_some_iff.1 hfound
      have hkey : entry.1 = ⟨dialect, sql⟩ := by simpa using List.find?_some hentry
      have hsame : entry.2 = ⟨sql⟩ := by
        have htext := h entry (List.mem_of_find?_eq_some hentry)
        rw [hkey] at htext
        cases hprepared : entry.2
        rw [hprepared] at htext
        exact congrArg Prepared.mk htext
      rw [hsame]
      exact ⟨_, rfl, hlatest⟩
  | none => exact ⟨_, rfl, fun entry hentry => hlatest entry (List.mem_of_mem_drop hentry)⟩

/-- Over a connection a statement is only prepared in the cache. -/
theorem Driver.outcome_prepare_connection (d : Dialect) (link : Link) (sql : String) (c : Connection σ) (w : World σ) :
    outcome ((Driver.connection c).prepare d link sql) w =
      let found : Except Failure Prepared × _ := w.cache.getOrCreate ⟨d.name, sql⟩ (.ok ⟨sql⟩)
      (found.1, { w with cache := found.2 }) := outcome_settle _ _

/-- What holds of a computation once it holds of its parts. -/
structure Session.Sequences (P : ∀ {α : Type}, Session σ α → Prop) : Prop where
  settle : ∀ {α : Type} (o : Except Failure α), P (settle o)
  bind : ∀ {α β : Type} {x : Session σ α} {k : α → Session σ β}, P x → (∀ a, P (k a)) → P (x >>= k)
  attempt : ∀ {α : Type} {x : Session σ α}, P x → P (attempt x)

theorem sequences_leads (R : World σ → World σ → Prop) [IsPreorder (World σ) R] : Sequences (fun x => Leads R x) where
  settle := leads_settle
  bind := leads_bind
  attempt := leads_attempt

/-- What holds of a computation once it holds of its parts, and always of those that neither leave an event nor touch more
than what is outside and what is known of a connection. -/
structure Session.Composes (P : ∀ {α : Type}, Session σ α → Prop) : Prop extends Sequences P where
  inTransaction : ∀ link, P (inTransaction link)
  outside : ∀ {α : Type} (x : Effect σ α), P (outside x)
  setLastKey : ∀ link key, P (setLastKey link key)

/-- Leading to a related world, where worlds are related between which nothing happens that counts. -/
theorem composes_leads {R : World σ → World σ → Prop} [IsPreorder (World σ) R]
    (h : ∀ {w w'}, World.Keeps (fun _ => False) w w' → R w w') : Composes (fun x => Leads R x) where
  toSequences := sequences_leads R
  inTransaction := leads_inTransaction
  outside x := (keeps_outside x).mono h
  setLastKey link key := (keeps_setLastKey link key).mono h

namespace Session.Composes

variable {P : ∀ {α : Type}, Session σ α → Prop} (C : Composes P)
include C

theorem call {event : Event} (h : P (emit event)) (x : Effect σ α) :
    P (do
      emit event
      Session.outside x) :=
  C.bind h fun _ => C.outside x

theorem ensuring {x : Session σ α} {cleanup : Session σ Unit} (hx : P x) (hcleanup : P cleanup) :
    P (Session.ensuring x cleanup) :=
  C.bind (C.attempt hx) fun _ => C.bind hcleanup fun _ => C.settle _

variable {link : Link} {sql : String} {params : List Value}
  (h : ∀ event, Event.OfStatement link sql params event → P (emit event))
include h

theorem send (c : Connection σ) : P (c.send link sql params) := by
  have hgather : ∀ reply, P (c.gather reply) := by
    intro reply
    unfold Connection.gather
    split
    · exact C.bind (C.settle _) fun _ => C.settle (.ok _)
    · exact C.bind (C.outside _) fun _ => C.bind (C.settle _) fun _ => C.settle (.ok _)
  have hask : P (c.ask link sql params) := by
    refine C.bind (h _ .sent) fun _ => C.bind (C.outside _) fun reply => C.bind (hgather reply) fun result => ?_
    split
    · exact C.bind (C.setLastKey link _) fun _ => C.settle (.ok _)
    · exact C.settle (.ok _)
  have hpublish : P (c.publish link) := by
    refine C.bind (C.inTransaction link) fun opened => ?_
    cases opened with
    | true => exact C.settle (.ok _)
    | false => exact C.call (h _ .committed) _
  rw [Connection.send_eq]
  exact C.bind hask fun _ => C.bind hpublish fun _ => C.settle (.ok _)

theorem undo (c : Connection σ) : P (c.undo link) := by
  refine C.bind (h _ .rolledBack) fun _ => C.bind (C.attempt (C.outside _)) fun outcome => ?_
  split
  · exact C.settle (.ok _)
  · split
    · exact C.settle (.error _)
    · exact h _ (.logged ..)

theorem runOnCursor (d : Dialect) (c : Connection σ) : P (c.runOnCursor d link sql params) := by
  have hrun : P (c.run d link sql params) := by
    refine C.bind (C.attempt (C.send h c)) fun outcome => ?_
    split
    · exact C.settle (.ok _)
    · split
      · exact C.settle (.error _)
      · refine C.bind (C.inTransaction link) fun opened => ?_
        cases opened with
        | true => exact C.settle (.error _)
        | false => exact C.bind (C.undo h c) fun _ => C.settle (.error _)
  exact C.bind (h _ .opened) fun _ => C.bind (C.outside _) fun _ => C.ensuring hrun (C.call (h _ .closed) _)

theorem execute (d : Dialect) (driver : Driver σ) : P (driver.execute d link ⟨sql⟩ params) := by
  cases driver with
  | port p => exact C.call (h _ .executed) _
  | connection c => exact C.runOnCursor h d c

end Session.Composes

section

variable {allowed : Event → Prop} {link : Link} {sql : String} {params : List Value}
  (h : ∀ event, Event.OfStatement link sql params event → allowed event)
include h

namespace Driver

theorem keeps_execute (d : Dialect) (driver : Driver σ) :
    Leads (World.Keeps allowed) (driver.execute d link ⟨sql⟩ params) :=
  (composes_leads fun hkeeps hw => (hkeeps hw).mono fun _ => False.elim).execute
    (fun event hevent => keeps_emit (h event hevent)) d driver

/-- A statement is prepared as it is, and whatever follows its preparation follows it for that text. -/
theorem keeps_prepare_bind (d : Dialect) (driver : Driver σ) {k : Prepared → Session σ β}
    (hk : Leads (World.Keeps allowed) (k ⟨sql⟩)) :
    Leads (World.Keeps allowed) (driver.prepare d link sql >>= k) := by
  cases driver with
  | port p =>
      have hbind : (Driver.port p).prepare d link sql >>= k = (do
          emit (.driver link (.prepare sql))
          outside (p.prepare sql)
          k ⟨sql⟩) := by simp only [prepare, bind_assoc, pure_bind]
      rw [hbind]
      exact leads_bind (keeps_emit (h _ .prepared)) fun _ => leads_bind (keeps_outside _) fun _ => hk
  | connection c =>
      intro w hw
      obtain ⟨cache, hcreated, hfaithful⟩ := StatementCache.getOrCreate_faithful hw d.name sql
      have hprepared : outcome ((Driver.connection c).prepare d link sql) w = (.ok ⟨sql⟩, { w with cache }) := by
        rw [outcome_prepare_connection, hcreated]
      have hcached : w.Kept allowed { w with cache } :=
        World.kept_silent hfaithful rfl (fun other => by cases other <;> rfl) rfl rfl rfl rfl
      rw [after, outcome_bind_ok hprepared]
      exact hcached.trans (hk _ hfaithful)

end Driver

end

/-- The events that a lookup of a column leaves. -/
inductive Event.OfLookup (d : Dialect) (table column : String) : Event → Prop
  | queried {event : Event} (h : OfStatement .primary d.columnQuery [.text table, .text column] event) :
    OfLookup d table column event
  | listed : OfLookup d table column (.columnLookup table column)
  | reflected (schema : Option String) : OfLookup d table column (.reflection table schema)

theorem Database.keeps_lookUpColumn (db : Database σ) (table column : String) :
    Leads (World.Keeps (Event.OfLookup db.dialect table column)) (db.lookUpColumn table column) := by
  rw [lookUpColumn.eq_def]
  cases db.catalogue with
  | queried =>
      exact Driver.keeps_prepare_bind (fun _ => .queried) db.dialect _ (leads_bind
        (Driver.keeps_execute (fun _ => .queried) db.dialect _) fun _ => leads_pure _)
  | listed has => exact keeps_call .listed _
  | reflected schema columns => exact leads_bind (keeps_emit (.reflected schema)) fun _ => leads_pure _

end Polyquery
