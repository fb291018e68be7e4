import Polyquery.Proofs.Chains

/-! What is done on the way of a submission, one deed after another. Each deed is a change of the world, and which deeds
may follow one another, and to what end, is told by an account for each part of the way. Main statement: a submission does
what the account of the whole way tells. -/

namespace Polyquery

open Session

variable {σ α β : Type}

/-- Something that is done on the way of a submission: by what runs it, by its layers, and by its driver. A context is
passed when the innermost layer lets it through to the driver of a link. -/
inductive Deed where
  | recorded (context : Context)
  | judged (submission : Submission) (verdict : Except Failure Unit)
  | logged (event : Event)
  | requested (chained : Chained)
  | entered (layer : Layer) (context : Context)
  | left (layer : Layer) (outcome : Except Failure Result)
  | told (event : Event)
  | registered (layer : Layer)
  | recalled (past : List Event)
  | passed (link : Link) (context : Context)
  | refused (link : Link) (context : Context) (failure : Failure)
  | prepared (link : Link) (context : Context)
  | tuned (link : Link) (sql : String) (outcome : Except Failure Unit)
  | executed (link : Link) (context : Context) (outcome : Except Failure Result)
  | measured (context : Context) (result : Result)
  | reported (context : Context)

/-- Whether a deed is done outside the innermost layer. -/
def Deed.isOutside : Deed → Bool
  | recorded _ | judged _ _ | logged _ | requested _ | entered _ _ | left _ _ | told _ | registered _ | recalled _ => true
  | _ => false

/-- What may be done on the way to an outcome. -/
abbrev Account (α : Type) := List Deed → Except Failure α → Prop

/-- A world in which nothing is composed of other layers than the first registered ones, nor prepared under another
text. -/
structure World.IsSound (w : World σ) : Prop where
  faithful : w.IsFaithful
  current : w.IsCurrent

theorem World.Kept.sound {allowed : Event → Prop} {w w' : World σ} (h : w.Kept allowed w') (hw : w.IsSound) :
    w'.IsSound := by
  refine ⟨h.faithful, ?_⟩
  rw [World.IsCurrent, h.chains, h.layers]
  exact hw.current

/-- A statement that only tunes the connection, as the driver takes it. -/
def Database.sendTuning (db : Database σ) (link : Link) (sql : String) : Session σ Unit := do
  let statement ← db.prepare link sql
  discard (db.execute link statement [])

namespace Deed

/-- The change of the world that a deed is. A hook is called if there is one. -/
def Turns (db : Database σ) (w w' : World σ) : Deed → Prop
  | recorded c => w' = { w with recorder := w.recorder.record c.sql c.params }
  | judged s verdict =>
    verdict = (Policy.check db.settings.rules w.guards s.readonly s.context).2 ∧
      w' = { w with journal := w.journal ++
        (Policy.check db.settings.rules w.guards s.readonly s.context).1.map fun guard => .guard guard.name }
  | logged event => (∃ level name about, event = .logged level name about) ∧ w' = { w with journal := w.journal ++ [event] }
  | told event => w' = { w with journal := w.journal ++ [event] }
  | requested chained => chained.layers = w.layers ∧ outcome (Database.chainFor chained.link) w = (.ok chained, w')
  | entered _ _ | left _ _ | passed _ _ => w' = w
  | registered layer => w' = { w with layers := w.layers ++ [layer] }
  | recalled past => past = w.journal ∧ w' = w
  | refused link c f => outcome (db.prepare link c.sql) w = (.error f, w')
  | prepared link c => outcome (db.prepare link c.sql) w = (.ok ⟨c.sql⟩, w')
  | tuned link sql o => outcome (db.sendTuning link sql) w = (o, w')
  | executed link c o => outcome (db.execute link ⟨c.sql⟩ c.params) w = (o, w')
  | measured c r =>
    w' = { w with journal := w.journal ++ if w.measures then [.measured c.operation c.table r.size] else [] }
  | reported c => w' = { w with journal := w.journal ++ if w.reports then [.reported c.sql c.params] else [] }

/-- The change of the world that deeds are one after another. -/
def TurnAll (db : Database σ) : List Deed → World σ → World σ → Prop
  | [], w, w' => w' = w
  | deed :: rest, w, w' => ∃ next, deed.Turns db w next ∧ TurnAll db rest next w'

variable {db : Database σ} {w w' : World σ}

theorem turnAll_append {first rest : List Deed} :
    TurnAll db (first ++ rest) w w' ↔ ∃ next, TurnAll db first w next ∧ TurnAll db rest next w' := by
  induction first generalizing w with
  | nil => simp [TurnAll]
  | cons deed first ih => simp only [List.cons_append, TurnAll, ih]; grind

/-- What drivers do to statements leaves a world sound. -/
theorem sound_of_keeps {x : Session σ α} (hx : Leads (World.Keeps fun _ => True) x) (hw : w.IsSound)
    {o : Except Failure α} (h : outcome x w = (o, w')) : w'.IsSound := by
  have hkept := hx w hw.faithful
  rw [after, h] at hkept
  exact hkept.sound hw

theorem keeps_prepare (link : Link) (sql : String) : Leads (World.Keeps fun _ => True) (db.prepare link sql) := by
  have hbind : Leads (World.Keeps fun _ => True) (db.prepare link sql >>= pure) :=
    Driver.keeps_prepare_bind (fun event (_ : Event.OfStatement link sql [] event) => trivial) _ _ (leads_pure _)
  rwa [bind_pure] at hbind

theorem keeps_execute (link : Link) (statement : Prepared) (params : List Value) :
    Leads (World.Keeps fun _ => True) (db.execute link statement params) :=
  Driver.keeps_execute (fun _ _ => trivial) _ _

theorem keeps_sendTuning (link : Link) (sql : String) : Leads (World.Keeps fun _ => True) (db.sendTuning link sql) :=
  leads_bind (keeps_prepare _ _) fun _ => leads_bind (keeps_execute _ _ _) fun _ => leads_pure _

theorem sound_of_turns {deed : Deed} (h : deed.Turns db w w') (hw : w.IsSound) : w'.IsSound := by
  cases deed with
  | recorded | told | measured | reported =>
      subst h
      exact ⟨hw.faithful, hw.current⟩
  | entered | left | passed =>
      subst h
      exact hw
  | judged | logged =>
      obtain ⟨-, rfl⟩ := h
      exact ⟨hw.faithful, hw.current⟩
  | recalled =>
      obtain ⟨-, rfl⟩ := h
      exact hw
  | requested chained =>
      obtain ⟨chains, hchained, hcurrent⟩ := Database.outcome_chainFor_current chained.link hw.current
      obtain ⟨-, rfl⟩ := Prod.mk.inj (hchained.symm.trans h.2)
      exact ⟨hw.faithful, hcurrent⟩
  | registered layer =>
      subst h
      exact ⟨hw.faithful, fun chained hmem => (hw.current chained hmem).trans (List.prefix_append _ _)⟩
  | refused | prepared => exact sound_of_keeps (keeps_prepare _ _) hw h
  | tuned => exact sound_of_keeps (keeps_sendTuning _ _) hw h
  | executed => exact sound_of_keeps (keeps_execute _ _ _) hw h

theorem sound_of_turnAll {deeds : List Deed} (h : TurnAll db deeds w w') (hw : w.IsSound) : w'.IsSound := by
  induction deeds generalizing w with
  | nil => exact h ▸ hw
  | cons deed deeds ih =>
      obtain ⟨next, hfirst, hrest⟩ := h
      exact ih hrest (sound_of_turns hfirst hw)

end Deed

/-! ### Computations and their accounts -/

namespace Session

variable {db : Database σ}

/-- A computation that does, from every sound world, what an account tells. -/
def Obeys (db : Database σ) (P : Account α) (x : Session σ α) : Prop :=
  ∀ w : World σ, w.IsSound → ∃ deeds, Deed.TurnAll db deeds w (after x w) ∧ P deeds (ending x w)

variable {P Q : Account α} {T : Account β}

theorem Obeys.mono {x : Session σ α} (hx : Obeys db P x) (h : ∀ {deeds o}, P deeds o → Q deeds o) : Obeys db Q x := by
  intro w hw
  obtain ⟨deeds, hturns, hP⟩ := hx w hw
  exact ⟨deeds, hturns, h hP⟩

theorem obeys_settle {o : Except Failure α} (h : P [] o) : Obeys db P (settle o) := by
  intro w _
  rw [after, ending, outcome_settle]
  exact ⟨[], rfl, h⟩

/-- What follows a step goes on behind what that one has done. -/
theorem Obeys.attempt_bind {x : Session σ α} {k : Except Failure α → Session σ β} (hx : Obeys db P x)
    (hk : ∀ {first o}, P first o → Obeys db (fun rest r => T (first ++ rest) r) (k o)) :
    Obeys db T (attempt x >>= k) := by
  intro w hw
  obtain ⟨first, hfirst, hP⟩ := hx w hw
  obtain ⟨rest, hrest, hT⟩ := hk hP (after x w) (Deed.sound_of_turnAll hfirst hw)
  exact ⟨first ++ rest, Deed.turnAll_append.2 ⟨_, hfirst, hrest⟩, hT⟩

theorem Obeys.bind {x : Session σ α} {k : α → Session σ β} (hx : Obeys db P x)
    (hk : ∀ {first a}, P first (.ok a) → Obeys db (fun rest r => T (first ++ rest) r) (k a))
    (herror : ∀ {first f}, P first (.error f) → T first (.error f)) : Obeys db T (x >>= k) := by
  intro w hw
  obtain ⟨first, hfirst, hP⟩ := hx w hw
  rw [after, ending, outcome_bind]
  cases hending : ending x w with
  | ok a =>
      rw [hending] at hP
      obtain ⟨rest, hrest, hT⟩ := hk hP (after x w) (Deed.sound_of_turnAll hfirst hw)
      exact ⟨first ++ rest, Deed.turnAll_append.2 ⟨_, hfirst, hrest⟩, hT⟩
  | error f =>
      rw [hending] at hP
      exact ⟨first, hfirst, herror hP⟩

/-- A step that is a single deed. -/
theorem obeys_deed {x : Session σ α} {a : α} (deed : Deed)
    (h : ∀ w : World σ, w.IsSound → ∃ w', outcome x w = (.ok a, w') ∧ deed.Turns db w w') :
    Obeys db (fun deeds r => deeds = [deed] ∧ r = .ok a) x := by
  intro w hw
  obtain ⟨w', houtcome, hturns⟩ := h w hw
  rw [after, ending, houtcome]
  exact ⟨[deed], ⟨w', hturns, rfl⟩, rfl, rfl⟩

theorem obeys_log (level : LogLevel) (name : String) (about : Particulars) :
    Obeys db (fun deeds r => deeds = [.logged (.logged level name about)] ∧ r = .ok ()) (log level name about) :=
  obeys_deed _ fun _ _ => ⟨_, rfl, ⟨level, name, about, rfl⟩, rfl⟩

end Session

/-! ### Statements -/

namespace Account

section

variable (link : Link) (c : Context)

inductive Prepares : Account Prepared
  | prepared : Prepares [.prepared link c] (.ok ⟨c.sql⟩)
  | refused (f : Failure) : Prepares [.refused link c f] (.error f)

/-- A statement that only tunes the connection may be refused; what else goes wrong with it is not forgiven. -/
inductive Tunes (sql : String) : Account Bool
  | granted : Tunes sql [.tuned link sql (.ok ())] (.ok true)
  | refused {f : Failure} (event : Event) (h : f.isExecution = true) :
    Tunes sql [.tuned link sql (.error f), .logged event] (.ok false)
  | broken {f : Failure} (h : f.isExecution = false) : Tunes sql [.tuned link sql (.error f)] (.error f)

/-- The time limit of a statement is set, if there is one and the dialect has a statement for that; and what lifts it is
kept, unless it could not be set. -/
inductive Sets (d : Dialect) : Option Int → Account (Option String)
  | unlimited : Sets d none [] (.ok none)
  | zero : Sets d (some 0) [] (.ok none)
  | unset {limit : Int} (hlimit : limit ≠ 0) (h : (d.timeout limit).apply = none) :
    Sets d (some limit) [] (.ok (d.timeout limit).lift)
  | set {limit : Int} {sql : String} {deeds : List Deed} {o : Except Failure Bool} (hlimit : limit ≠ 0)
    (h : (d.timeout limit).apply = some sql) (htunes : Tunes link sql deeds o) :
    Sets d (some limit) deeds (o.map fun granted => if granted then (d.timeout limit).lift else none)

inductive Lifts : Option String → Account Unit
  | none : Lifts none [] (.ok ())
  | some {sql : String} {deeds : List Deed} {o : Except Failure Bool} (htunes : Tunes link sql deeds o) :
    Lifts (some sql) deeds (o.map fun _ => ())

/-- What is done about a time limit: statements that tune the connection, and log records. -/
inductive OfTuning : Deed → Prop
  | tuned (sql : String) (o : Except Failure Unit) : OfTuning (.tuned link sql o)
  | logged (event : Event) : OfTuning (.logged event)

inductive Executes : Account Result
  | granted (r : Result) : Executes [.executed link c (.ok r)] (.ok r)
  | refused (f : Failure) (event : Event) : Executes [.executed link c (.error f), .logged event] (.error f)
  | broken (f : Failure) : Executes [.executed link c (.error f)] (.error f)

/-- A context behind the innermost layer: its statement is prepared, its time limit set, it is executed, and the time limit
lifted. Only what succeeds is told to the hooks. -/
inductive Performs (d : Dialect) : Account Result
  | refused {first : List Deed} {f : Failure} (hprepare : Prepares link c first (.error f)) :
    Performs d (.passed link c :: first) (.error f)
  | unset {set : List Deed} {f : Failure} (hset : Sets link d c.timeout set (.error f)) :
    Performs d (.passed link c :: .prepared link c :: set) (.error f)
  | unlifted {set run lifted : List Deed} {lift : Option String} {o : Except Failure Result} {f : Failure}
    (hset : Sets link d c.timeout set (.ok lift)) (hrun : Executes link c run o)
    (hlift : Lifts link lift lifted (.error f)) :
    Performs d (.passed link c :: .prepared link c :: (set ++ (run ++ lifted))) (.error f)
  | failed {set run lifted : List Deed} {lift : Option String} {f : Failure}
    (hset : Sets link d c.timeout set (.ok lift)) (hrun : Executes link c run (.error f))
    (hlift : Lifts link lift lifted (.ok ())) :
    Performs d (.passed link c :: .prepared link c :: (set ++ (run ++ lifted))) (.error f)
  | succeeded {set run lifted : List Deed} {lift : Option String} {r : Result} (event : Event)
    (hset : Sets link d c.timeout set (.ok lift)) (hrun : Executes link c run (.ok r))
    (hlift : Lifts link lift lifted (.ok ())) :
    Performs d (.passed link c :: .prepared link c ::
      (set ++ (run ++ (lifted ++ [.measured c r, .reported c, .logged event])))) (.ok r)

variable {link c} {deeds : List Deed}

theorem Tunes.ofTuning {sql : String} {o : Except Failure Bool} (h : Tunes link sql deeds o) :
    ∀ deed ∈ deeds, OfTuning link deed := by
  cases h with
  | granted | broken => exact List.forall_mem_singleton.2 (.tuned ..)
  | refused event => exact List.forall_mem_cons.2 ⟨.tuned .., List.forall_mem_singleton.2 (.logged event)⟩

theorem Sets.ofTuning {d : Dialect} {limit : Option Int} {o : Except Failure (Option String)}
    (h : Sets link d limit deeds o) : ∀ deed ∈ deeds, OfTuning link deed := by
  cases h with
  | unlimited | zero | unset => exact List.forall_mem_nil _
  | set _ _ htunes => exact htunes.ofTuning

theorem Lifts.ofTuning {lift : Option String} {o : Except Failure Unit} (h : Lifts link lift deeds o) :
    ∀ deed ∈ deeds, OfTuning link deed := by
  cases h with
  | none => exact List.forall_mem_nil _
  | some htunes => exact htunes.ofTuning

end

section

variable (own : Submission → Account Result)

/-- What a layer does, given what comes of the contexts that it lets through and of those that it submits. -/
inductive Plans (next : Context → Account Result) : Plan → Account Result
  | finish (o : Except Failure Result) : Plans next (.finish o) [] o
  | proceed {c : Context} {resume : Except Failure Result → Plan} {inner rest : List Deed} {o r : Except Failure Result}
    (hnext : next c inner o) (hrest : Plans next (resume o) rest r) : Plans next (.proceed c resume) (inner ++ rest) r
  | submit {s : Submission} {resume : Except Failure Result → Plan} {inner rest : List Deed}
    {o r : Except Failure Result} (hown : own s inner o) (hrest : Plans next (resume o) rest r) :
    Plans next (.submit s resume) (inner ++ rest) r
  | tell {event : Event} {plan : Plan} {rest : List Deed} {r : Except Failure Result} (hrest : Plans next plan rest r) :
    Plans next (.tell event plan) (.told event :: rest) r
  | register {number : Nat} {layer : Context → Plan} {plan : Plan} {rest : List Deed} {r : Except Failure Result}
    (hrest : Plans next plan rest r) : Plans next (.register number layer plan) (.registered ⟨number, layer⟩ :: rest) r
  | recollect {past : List Event} {resume : List Event → Plan} {rest : List Deed} {r : Except Failure Result}
    (hrest : Plans next (resume past) rest r) : Plans next (.recollect resume) (.recalled past :: rest) r

/-- A context through layers, each inside the ones before it, with a core behind the last. -/
def Visits (core : Context → Account Result) : List Layer → Context → Account Result
  | [], c, deeds, r => core c deeds r
  | layer :: layers, c, deeds, r =>
    ∃ inner, deeds = .entered layer c :: (inner ++ [.left layer r]) ∧
      Plans own (Visits core layers) (layer.plan c) inner r

/-- A submission: it is recorded before anything else, and judged. If it is rejected nothing more is done, in test mode
nothing but that it is logged. Else its context goes through the layers. -/
inductive Submits (dialect : Link → Dialect) (s : Submission) : Account Result
  | rejected (f : Failure) : Submits dialect s [.recorded s.context, .judged s (.error f)] (.error f)
  | dry (htest : s.testMode = true) :
    Submits dialect s [.recorded s.context, .judged s (.ok ()), .logged s.context.dryRun] (.ok {})
  | live (htest : s.testMode = false) {layers : List Layer} {visit : List Deed} {r : Except Failure Result}
    (hvisit : Visits own (fun c => Performs s.link c (dialect s.link)) layers s.context visit r) :
    Submits dialect s (.recorded s.context :: .judged s (.ok ()) :: .requested ⟨s.link, layers⟩ :: visit) r

end

/-- What comes of the submissions of layers, with room for so many inside one another. -/
def Owns (dialect : Link → Dialect) : Nat → Submission → Account Result
  | 0, _ => fun deeds r => deeds = [] ∧ r = .error Database.tooDeep
  | room + 1, s => Submits (Owns dialect room) dialect s

/-! ### Properties of deeds one after another -/

/-- A property of rows of deeds that joining them keeps, and that holds of every deed outside the innermost layer. -/
structure Joins (Q : List Deed → Prop) : Prop where
  nil : Q []
  append {first rest : List Deed} (hfirst : Q first) (hrest : Q rest) : Q (first ++ rest)
  outside {deed : Deed} (h : deed.isOutside = true) : Q [deed]

namespace Joins

variable {Q : List Deed → Prop} (hQ : Joins Q)
include hQ

theorem cons {deed : Deed} {rest : List Deed} (h : deed.isOutside = true) (hrest : Q rest) : Q (deed :: rest) :=
  hQ.append (hQ.outside h) hrest

variable {own : Submission → Account Result} (hown : ∀ {s deeds o}, own s deeds o → Q deeds)
include hown

theorem of_plans {next : Context → Account Result} (hnext : ∀ {c deeds o}, next c deeds o → Q deeds) {plan : Plan}
    {deeds : List Deed} {o : Except Failure Result} (h : Plans own next plan deeds o) : Q deeds := by
  induction h with
  | finish o => exact hQ.nil
  | proceed hfirst _ ih => exact hQ.append (hnext hfirst) ih
  | submit hfirst _ ih => exact hQ.append (hown hfirst) ih
  | tell _ ih | register _ ih | recollect _ ih => exact hQ.cons rfl ih

theorem of_visits {core : Context → Account Result} (hcore : ∀ {c deeds o}, core c deeds o → Q deeds)
    {layers : List Layer} {c : Context} {deeds : List Deed} {o : Except Failure Result}
    (h : Visits own core layers c deeds o) : Q deeds := by
  induction layers generalizing c deeds o with
  | nil => exact hcore h
  | cons layer layers ih =>
      obtain ⟨inner, rfl, hplans⟩ := h
      exact hQ.cons rfl (hQ.append (hQ.of_plans hown ih hplans) (hQ.outside rfl))

theorem of_submits {dialect : Link → Dialect} {s : Submission}
    (hperforms : ∀ {c deeds o}, Performs s.link c (dialect s.link) deeds o → Q deeds) {deeds : List Deed}
    {o : Except Failure Result} (h : Submits own dialect s deeds o) : Q deeds := by
  cases h with
  | rejected f => exact hQ.cons rfl (hQ.outside rfl)
  | dry htest => exact hQ.cons rfl (hQ.cons rfl (hQ.outside rfl))
  | live htest hvisit => exact hQ.cons rfl (hQ.cons rfl (hQ.cons rfl (hQ.of_visits hown hperforms hvisit)))

omit hown

theorem of_owns {dialect : Link → Dialect}
    (hperforms : ∀ {link c deeds o}, Performs link c (dialect link) deeds o → Q deeds) {room : Nat} {s : Submission}
    {deeds : List Deed} {o : Except Failure Result} (h : Owns dialect room s deeds o) : Q deeds := by
  induction room generalizing s deeds o with
  | zero =>
      obtain ⟨rfl, -⟩ := h
      exact hQ.nil
  | succ room ih => exact hQ.of_submits ih hperforms h

end Joins

end Account

open Account

namespace Database

variable (db : Database σ) (link : Link) (c : Context)

theorem ending_prepare (sql : String) {w : World σ} (hw : w.IsFaithful) {statement : Prepared}
    (h : ending (db.prepare link sql) w = .ok statement) : statement = ⟨sql⟩ := by
  unfold prepare at h
  cases hdriver : db.driver link with
  | port p =>
      rw [hdriver] at h
      cases hprepare : p.prepare sql w.outside with
      | ok _ s =>
          rw [ending, Driver.prepare, outcome_call_bind_ok hprepare] at h
          cases h
          rfl
      | error f s =>
          rw [ending, Driver.prepare, outcome_call_bind_error hprepare] at h
          cases h
  | connection connection =>
      rw [hdriver] at h
      obtain ⟨cache, hcreated, -⟩ := StatementCache.getOrCreate_faithful hw (db.dialectOf link).name sql
      rw [ending, Driver.outcome_prepare_connection, hcreated] at h
      cases h
      rfl

theorem obeys_prepare : Obeys db (Prepares link c) (db.prepare link c.sql) := by
  intro w hw
  cases hending : ending (db.prepare link c.sql) w with
  | ok statement =>
      obtain rfl := ending_prepare db link c.sql hw.faithful hending
      exact ⟨[.prepared link c], ⟨_, by rw [Deed.Turns, outcome_eq, hending], rfl⟩, .prepared⟩
  | error f => exact ⟨[.refused link c f], ⟨_, by rw [Deed.Turns, outcome_eq, hending], rfl⟩, .refused f⟩

theorem obeys_tune (sql : String) : Obeys db (Tunes link sql) (db.tune link sql) := by
  have hsent : Obeys db (fun deeds o => deeds = [.tuned link sql o]) (db.sendTuning link sql) :=
    fun w _ => ⟨[.tuned link sql (ending (db.sendTuning link sql) w)], ⟨_, rfl, rfl⟩, rfl⟩
  refine hsent.attempt_bind fun {first o} hfirst => ?_
  subst hfirst
  cases o with
  | ok _ => exact obeys_settle (o := .ok true) .granted
  | error f =>
      cases hexecution : f.isExecution with
      | true =>
          dsimp only
          rw [if_pos hexecution]
          refine (obeys_log _ _ _).bind (fun {rest _} h => ?_) fun h => ?_
          · obtain ⟨rfl, -⟩ := h
            exact obeys_settle (o := .ok false) (.refused _ hexecution)
          · cases h.2
      | false =>
          dsimp only
          rw [if_neg (by simp [hexecution])]
          exact obeys_settle (o := .error f) (.broken hexecution)

theorem obeys_applyTimeout (timeout : Option Int) :
    Obeys db (Sets link (db.dialectOf link) timeout) (db.applyTimeout link timeout) := by
  unfold applyTimeout
  cases timeout with
  | none => exact obeys_settle (o := .ok none) .unlimited
  | some limit =>
      dsimp only
      by_cases hlimit : limit = 0
      · subst hlimit
        exact obeys_settle (o := .ok none) .zero
      · rw [if_neg hlimit]
        cases happly : ((db.dialectOf link).timeout limit).apply with
        | none => exact obeys_settle (o := .ok _) (.unset hlimit happly)
        | some sql =>
            refine (db.obeys_tune link sql).bind (fun {first granted} htunes => ?_) fun htunes => .set hlimit happly htunes
            have hset : Sets link (db.dialectOf link) (some limit) (first ++ [])
                (.ok (if granted then ((db.dialectOf link).timeout limit).lift else none)) := by
              rw [List.append_nil]
              exact .set hlimit happly htunes
            cases granted with
            | true => exact obeys_settle (o := .ok _) hset
            | false => exact obeys_settle (o := .ok _) hset

theorem obeys_perform : Obeys db (Executes link c) (db.perform link ⟨c.sql⟩ c) := by
  have hexecute : Obeys db (fun deeds o => deeds = [.executed link c o]) (db.execute link ⟨c.sql⟩ c.params) :=
    fun w _ => ⟨[.executed link c (ending (db.execute link ⟨c.sql⟩ c.params) w)], ⟨_, rfl, rfl⟩, rfl⟩
  refine hexecute.attempt_bind fun {first o} hfirst => ?_
  subst hfirst
  cases o with
  | ok r => exact obeys_settle (o := .ok r) (.granted r)
  | error f =>
      unfold reportFailure
      dsimp only
      split
      · exact obeys_settle (o := .error f) (.broken f)
      · refine (obeys_log _ _ _).bind (fun {rest _} h => ?_) fun h => ?_
        · obtain ⟨rfl, -⟩ := h
          exact obeys_settle (o := .error f) (.refused f _)
        · cases h.2

/-- A statement whose time limit is lifted behind it, with what comes of the two. -/
theorem obeys_performing (lift : Option String) :
    Obeys db (fun deeds r => ∃ run lifted o lifting, deeds = run ++ lifted ∧ Executes link c run o ∧
        Lifts link lift lifted lifting ∧ r = lifting.bind fun _ => o)
      (ensuring (db.perform link ⟨c.sql⟩ c) do
        match lift with
        | some sql => discard (db.tune link sql)
        | none => pure ()) := by
  have hcleanup : Obeys db (Lifts link lift) (match lift with
      | some sql => discard (db.tune link sql)
      | none => pure ()) := by
    cases lift with
    | none => exact obeys_settle (o := .ok ()) .none
    | some sql =>
        refine (db.obeys_tune link sql).bind (fun {first granted} htunes => ?_) fun htunes => .some htunes
        refine obeys_settle (o := .ok ()) ?_
        rw [List.append_nil]
        exact .some htunes
  refine (db.obeys_perform link c).attempt_bind fun {run o} hrun => hcleanup.bind (fun {lifted _} hlift => ?_)
    fun {lifted f} hlift => ⟨run, lifted, o, .error f, rfl, hrun, hlift, rfl⟩
  refine obeys_settle ⟨run, lifted, o, .ok (), ?_, hrun, hlift, rfl⟩
  rw [List.append_nil]

theorem outcome_emit_when (p : Bool) (event : Event) (k : Session σ α) (w : World σ) :
    outcome (if p then emit event >>= fun _ => k else k) w =
      outcome k { w with journal := w.journal ++ if p then [event] else [] } := by
  cases p with
  | true => rfl
  | false => simp

theorem obeys_report (r : Result) :
    Obeys db (fun deeds o => (∃ event, deeds = [.measured c r, .reported c, .logged event]) ∧ o = .ok ())
      (report c r) := by
  intro w _
  let event : Event := .logged .debug "statement_executed"
    [("operation", .text c.operation.name), ("table", .ofText? c.table), ("route", .ofText? c.route),
     ("row_count", r.size)]
  have hreport : outcome (report c r) w = (.ok (), { w with
      journal := (w.journal ++ if w.measures then [.measured c.operation c.table r.size] else []) ++
        (if w.reports then [.reported c.sql c.params] else []) ++ [event] }) := by
    rw [report, outcome_get_bind, outcome_emit_when, outcome_emit_when]
    rfl
  rw [after, ending, hreport]
  exact ⟨[.measured c r, .reported c, .logged event], ⟨_, rfl, _, rfl, _, ⟨⟨_, _, _, rfl⟩, rfl⟩, rfl⟩,
    ⟨event, rfl⟩, rfl⟩

/-- A context behind the innermost layer. -/
theorem obeys_core : Obeys db (Performs link c (db.dialectOf link)) (db.core link c) := by
  -- that the context is passed comes before all that is computed, and changes nothing
  have hbehind : Obeys db (fun deeds r => Performs link c (db.dialectOf link) (.passed link c :: deeds) r)
      (db.core link c) := by
    refine (db.obeys_prepare link c).bind (fun {first statement} hprepare => ?_) fun hprepare => .refused hprepare
    cases hprepare
    refine (db.obeys_applyTimeout link c.timeout).bind (fun {set lift} hset => ?_) fun hset => .unset hset
    refine (db.obeys_performing link c lift).bind (fun {performed r} h => ?_) fun {performed f} h => ?_
    · obtain ⟨run, lifted, o, lifting, rfl, hrun, hlift, hr⟩ := h
      cases lifting with
      | error f => cases hr
      | ok _ =>
          obtain rfl : .ok r = o := hr
          refine (db.obeys_report c r).bind (fun {told _} h => ?_) fun h => by cases h.2
          obtain ⟨⟨event, rfl⟩, -⟩ := h
          have hperforms := Performs.succeeded event hset hrun hlift
          exact obeys_settle (o := .ok r) (by simpa using hperforms)
    · obtain ⟨run, lifted, o, lifting, rfl, hrun, hlift, hr⟩ := h
      cases lifting with
      | error f' =>
          obtain rfl : f = f' := by cases hr; rfl
          have hperforms := Performs.unlifted hset hrun hlift
          exact hperforms
      | ok _ =>
          obtain rfl : .error f = o := hr
          have hperforms := Performs.failed hset hrun hlift
          exact hperforms
  intro w hw
  obtain ⟨deeds, hturns, hperforms⟩ := hbehind w hw
  exact ⟨.passed link c :: deeds, ⟨w, rfl, hturns⟩, hperforms⟩

end Database

/-! ### Layers and submissions -/

section

variable {db : Database σ} {own : Submission → Session σ Result} {owned : Submission → Account Result}
  (hown : ∀ s, Obeys db (owned s) (own s))
include hown

theorem Plan.obeys_run {next : Context → Session σ Result} {passed : Context → Account Result}
    (hnext : ∀ c, Obeys db (passed c) (next c)) (plan : Plan) :
    Obeys db (Plans owned passed plan) (plan.run own next) := by
  induction plan with
  | finish o => exact obeys_settle (.finish o)
  | proceed c resume ih => exact (hnext c).attempt_bind fun {_ o} h => (ih o).mono fun hrest => .proceed h hrest
  | submit s resume ih => exact (hown s).attempt_bind fun {_ o} h => (ih o).mono fun hrest => .submit h hrest
  | tell event rest ih =>
      refine (obeys_deed (.told event) fun _ _ => ⟨_, rfl, rfl⟩).bind (fun {_ _} h => ?_) fun h => by cases h.2
      obtain ⟨rfl, -⟩ := h
      exact ih.mono .tell
  | register number layer rest _ ih =>
      refine (obeys_deed (.registered ⟨number, layer⟩) fun _ _ => ⟨_, rfl, rfl⟩).bind (fun {_ _} h => ?_)
        fun h => by cases h.2
      obtain ⟨rfl, -⟩ := h
      exact ih.mono .register
  | recollect resume ih =>
      -- which plan goes on depends on the world, so its deeds are those from there
      intro w hw
      obtain ⟨deeds, hturns, hplans⟩ := ih w.journal w hw
      exact ⟨.recalled w.journal :: deeds, ⟨w, ⟨rfl, rfl⟩, hturns⟩, .recollect hplans⟩

theorem Layer.obeys_through {core : Context → Session σ Result} {passed : Context → Account Result}
    (hcore : ∀ c, Obeys db (passed c) (core c)) (layers : List Layer) :
    ∀ c, Obeys db (Visits owned passed layers c) (through own core layers c) := by
  induction layers with
  | nil => exact hcore
  | cons layer layers ih =>
      intro c w hw
      obtain ⟨inner, hturns, hplans⟩ := Plan.obeys_run hown ih (layer.plan c) w hw
      let o := ending ((layer.plan c).run own (through own core layers)) w
      have hleft : ∀ w : World σ, Deed.TurnAll db [.left layer o] w w := fun _ => ⟨_, rfl, rfl⟩
      exact ⟨.entered layer c :: (inner ++ [.left layer o]),
        ⟨w, rfl, Deed.turnAll_append.2 ⟨_, hturns, hleft _⟩⟩, inner, rfl, hplans⟩

theorem Database.obeys_submitThrough (s : Submission) :
    Obeys db (Submits owned db.dialectOf s) (db.submitThrough chainFor own s) := by
  intro w hw
  obtain ⟨asked, verdict, hchecked⟩ : ∃ asked verdict,
      Policy.check db.settings.rules w.guards s.readonly s.context = (asked, verdict) := ⟨_, _, rfl⟩
  let recorded : World σ := { w with recorder := w.recorder.record s.context.sql s.context.params }
  let judged : World σ := { recorded with journal := w.journal ++ asked.map fun guard => .guard guard.name }
  have hstart : Deed.TurnAll db [.recorded s.context, .judged s verdict] w judged := by
    refine ⟨recorded, rfl, judged, ⟨?_, ?_⟩, rfl⟩ <;> rw [hchecked]
  have hsubmitted : outcome (db.submitThrough chainFor own s) w = outcome (do
      settle verdict
      if s.testMode then do
        emit s.context.dryRun
        pure {}
      else do
        let chained ← chainFor s.link
        db.follow own chained s.context) judged := by
    rw [submitThrough, outcome_modify_bind, outcome_get_bind, hchecked]
    exact outcome_askAll asked _ recorded
  rw [after, ending, hsubmitted]
  cases verdict with
  | error f => exact ⟨_, hstart, .rejected f⟩
  | ok _ =>
      cases htest : s.testMode with
      | true =>
          have hlogged : Deed.TurnAll db [.logged s.context.dryRun] judged _ :=
            ⟨_, ⟨⟨_, _, _, rfl⟩, rfl⟩, rfl⟩
          exact ⟨_, Deed.turnAll_append.2 ⟨judged, hstart, hlogged⟩, .dry htest⟩
      | false =>
          have hjudged : judged.IsSound := Deed.sound_of_turnAll hstart hw
          obtain ⟨chains, hchained, hcurrent⟩ := outcome_chainFor_current s.link hjudged.current
          obtain ⟨visit, hturns, hvisit⟩ := Layer.obeys_through hown (fun c => db.obeys_core s.link c) judged.layers
            s.context (judged.composed chains) ⟨hjudged.faithful, hcurrent⟩
          have hrequested : Deed.TurnAll db [.requested ⟨s.link, judged.layers⟩] judged (judged.composed chains) :=
            ⟨_, ⟨rfl, hchained⟩, rfl⟩
          refine ⟨[.recorded s.context, .judged s (.ok ())] ++ ([.requested ⟨s.link, judged.layers⟩] ++ visit),
            Deed.turnAll_append.2 ⟨judged, hstart, Deed.turnAll_append.2 ⟨_, hrequested, ?_⟩⟩, ?_⟩
          · change Deed.TurnAll db visit _ (outcome (chainFor s.link >>= fun chained => db.follow own chained s.context)
              judged).2
            rw [outcome_bind_ok hchained]
            exact hturns
          · change Submits owned db.dialectOf s _ (outcome (chainFor s.link >>= fun chained =>
              db.follow own chained s.context) judged).1
            rw [outcome_bind_ok hchained]
            exact .live htest hvisit

end

/-- Whatever is submitted, what is done on its way is what the account of it tells. -/
theorem Database.obeys_submitWithin (db : Database σ) (room : Nat) :
    ∀ s, Obeys db (Owns db.dialectOf (room + 1) s) (db.submitWithin chainFor room s) := by
  induction room with
  | zero =>
      have hrefused : ∀ s, Obeys db (Owns db.dialectOf 0 s) (throw tooDeep : Session σ Result) :=
        fun _ => obeys_settle (o := .error tooDeep) ⟨rfl, rfl⟩
      exact obeys_submitThrough hrefused
  | succ room ih => exact obeys_submitThrough ih

end Polyquery
