import Polyquery.Proofs.Attempts

/-! Composed layers. Layers are composed over a driver once, and what was composed goes on being used until further layers
are registered. Main statement: whatever is registered and submitted, by layers as well, goes as if layers were composed
anew for every submission. -/

namespace Polyquery

open Session

variable {σ α β : Type}

/-- Whether all that is composed was composed of the first of the registered layers. -/
def World.IsCurrent (w : World σ) : Prop := ∀ chained ∈ w.chains, chained.layers <+: w.layers

/-- A world in which this is composed and nothing else. -/
def World.composed (w : World σ) (chains : List Chained) : World σ := { w with chains }

namespace Database

theorem eq_of_sameLayers {kept registered : List Layer} (hfirst : kept <+: registered)
    (hsame : sameLayers kept registered = true) : kept = registered := by
  have hnumbers : kept.map (·.number) = registered.map (·.number) := of_decide_eq_true hsame
  exact hfirst.eq_of_length (by simpa using congrArg List.length hnumbers)

/-- What is composed anew for a link. -/
def compose (link : Link) : Session σ Chained := return ⟨link, (← get).layers⟩

/-- In a current world the registered layers are composed for a link, and for no other one. -/
theorem outcome_chainFor_current (link : Link) {w : World σ} (hw : w.IsCurrent) :
    ∃ chains, outcome (chainFor link) w = (.ok ⟨link, w.layers⟩, w.composed chains) ∧ (w.composed chains).IsCurrent := by
  rcases outcome_chainFor link w with ⟨chained, hmem, rfl, hsame, hfound⟩ | ⟨kept, hkept, hcomposed⟩
  · refine ⟨w.chains, ?_, hw⟩
    rw [← eq_of_sameLayers (hw chained hmem) hsame]
    exact hfound
  · exact ⟨_, hcomposed, List.forall_mem_cons.2 ⟨List.prefix_refl _, fun chained hmem => hw chained (hkept hmem)⟩⟩

end Database

/-! ### Computations that go alike whatever is composed -/

namespace Session

/-- Two computations of which the second one neither depends on what is composed nor changes it, and ends like the first
one in a current world, which the first one leaves current. -/
def Mirrors (x y : Session σ α) : Prop :=
  ∀ (w : World σ) (chains : List Chained), w.IsCurrent →
    outcome y (w.composed chains) = (ending x w, (after x w).composed chains) ∧ (after x w).IsCurrent

theorem mirrors_settle (o : Except Failure α) : Mirrors (settle o : Session σ α) (settle o) := by
  intro w chains hw
  rw [ending, after, outcome_settle, outcome_settle]
  exact ⟨rfl, hw⟩

theorem mirrors_bind {x y : Session σ α} {k l : α → Session σ β} (hxy : Mirrors x y) (hkl : ∀ a, Mirrors (k a) (l a)) :
    Mirrors (x >>= k) (y >>= l) := by
  intro w chains hw
  obtain ⟨hsame, hcurrent⟩ := hxy w chains hw
  rw [ending, after]
  rcases outcome_cases x w with ⟨a, ha⟩ | ⟨f, hf⟩
  · rw [ending, ha] at hsame
    rw [outcome_bind_ok hsame, outcome_bind_ok ha]
    exact hkl a (after x w) chains hcurrent
  · rw [ending, hf] at hsame
    rw [outcome_bind_error hsame, outcome_bind_error hf]
    exact ⟨rfl, hcurrent⟩

theorem mirrors_attempt {x y : Session σ α} (hxy : Mirrors x y) : Mirrors (attempt x) (attempt y) := by
  intro w chains hw
  obtain ⟨hsame, hcurrent⟩ := hxy w chains hw
  rw [outcome_eq, Prod.mk.injEq] at hsame
  rw [outcome_attempt, hsame.1, hsame.2]
  exact ⟨rfl, hcurrent⟩

/-- What is read of a world and does not depend on what is composed. -/
theorem mirrors_get_bind {k l : World σ → Session σ β} (hsame : ∀ w chains, l (World.composed w chains) = l w)
    (hkl : ∀ w, Mirrors (k w) (l w)) : Mirrors (get >>= k) (get >>= l) := by
  intro w chains hw
  rw [outcome_get_bind, hsame, ending, after, outcome_get_bind]
  exact hkl w w chains hw

theorem mirrors_modify {change : World σ → World σ}
    (hsame : ∀ w chains, change (w.composed chains) = (change w).composed chains)
    (hcurrent : ∀ w : World σ, w.IsCurrent → (change w).IsCurrent) :
    Mirrors (modify change : Session σ PUnit) (modify change) :=
  fun w chains hw => ⟨congrArg (Prod.mk _) (hsame w chains), hcurrent w hw⟩

theorem mirrors_emit (event : Event) : Mirrors (emit event : Session σ Unit) (emit event) :=
  mirrors_modify (fun _ _ => rfl) fun _ hw => hw

theorem mirrors_setLastKey (link : Link) (key : Value) :
    Mirrors (setLastKey link key : Session σ Unit) (setLastKey link key) :=
  mirrors_modify (fun _ _ => by cases link <;> rfl) fun w hw => by cases link <;> exact hw

theorem mirrors_outside (x : Effect σ α) : Mirrors (outside x) (outside x) := by
  intro w chains hw
  cases hx : x w.outside with
  | ok a s =>
      rw [outcome_outside_ok (w := w.composed chains) hx, ending, after, outcome_outside_ok hx]
      exact ⟨rfl, hw⟩
  | error f s =>
      rw [outcome_outside_error (w := w.composed chains) hx, ending, after, outcome_outside_error hx]
      exact ⟨rfl, hw⟩

theorem composes_mirrors : Composes (σ := σ) fun x => Mirrors x x where
  settle := mirrors_settle
  bind := mirrors_bind
  attempt := mirrors_attempt
  inTransaction link := mirrors_get_bind (fun _ _ => by cases link <;> rfl) fun _ => mirrors_settle (.ok _)
  outside := mirrors_outside
  setLastKey := mirrors_setLastKey

end Session

/-! ### Statements -/

theorem Driver.mirrors_prepare (d : Dialect) (link : Link) (sql : String) (driver : Driver σ) :
    Mirrors (driver.prepare d link sql) (driver.prepare d link sql) := by
  cases driver with
  | port p =>
      exact mirrors_bind (mirrors_emit _) fun _ => mirrors_bind (mirrors_outside _) fun _ => mirrors_settle (.ok _)
  | connection c =>
      intro w chains hw
      rw [ending, after, outcome_prepare_connection, outcome_prepare_connection]
      exact ⟨rfl, hw⟩

namespace Database

variable (db : Database σ)

/-- What a driver does with statements does not depend on what is composed over it. -/
theorem sends_mirrored (link : Link) : db.Sends link fun x => Mirrors x x where
  toSequences := composes_mirrors.toSequences
  told _ := mirrors_emit _
  hooked hk := mirrors_get_bind (fun _ _ => rfl) fun _ => hk _ _
  prepare _ := Driver.mirrors_prepare _ _ _ _
  execute _ _ := composes_mirrors.execute (fun event _ => mirrors_emit event) _ _

end Database

/-! ### Layers and submissions -/

section

variable {own own' : Submission → Session σ Result} (hown : ∀ s, Mirrors (own s) (own' s))
include hown

theorem Plan.mirrors_run {next next' : Context → Session σ Result} (hnext : ∀ c, Mirrors (next c) (next' c))
    (plan : Plan) : Mirrors (plan.run own next) (plan.run own' next') := by
  induction plan with
  | finish outcome => exact mirrors_settle outcome
  | proceed c resume ih => exact mirrors_bind (mirrors_attempt (hnext c)) ih
  | submit submission resume ih => exact mirrors_bind (mirrors_attempt (hown submission)) ih
  | tell event rest ih => exact mirrors_bind (mirrors_emit event) fun _ => ih
  | register number layer rest _ ih =>
      -- what is composed stays current, as further layers stand behind those that are registered
      exact mirrors_bind (mirrors_modify (fun _ _ => rfl) fun w hw chained hmem =>
        (hw chained hmem).trans (List.prefix_append _ _)) fun _ => ih
  | recollect resume ih => exact mirrors_get_bind (fun _ _ => rfl) fun w => ih w.journal

theorem Layer.mirrors_through {core : Context → Session σ Result} (hcore : ∀ c, Mirrors (core c) (core c))
    (layers : List Layer) : ∀ c, Mirrors (through own core layers c) (through own' core layers c) := by
  induction layers with
  | nil => exact hcore
  | cons layer layers ih => exact fun c => Plan.mirrors_run hown ih (layer.plan c)

namespace Database

variable (db : Database σ)

/-- A submission goes through what is composed for its link as through what is composed anew. -/
theorem mirrors_submitThrough (s : Submission) :
    Mirrors (db.submitThrough chainFor own s) (db.submitThrough compose own' s) := by
  unfold submitThrough
  refine mirrors_bind (mirrors_modify (fun _ _ => rfl) fun _ hw => hw) fun _ =>
    mirrors_get_bind (fun _ _ => rfl) fun w => ?_
  obtain ⟨asked, verdict⟩ := Policy.check db.settings.rules w.guards s.readonly s.context
  have hasked : Mirrors (asked.forM fun guard => emit (.guard guard.name) : Session σ PUnit)
      (asked.forM fun guard => emit (.guard guard.name)) := by
    induction asked with
    | nil => exact mirrors_settle (.ok _)
    | cons guard asked ih => exact mirrors_bind (mirrors_emit _) fun _ => ih
  refine mirrors_bind hasked fun _ => mirrors_bind (mirrors_settle verdict) fun _ => ?_
  split
  · exact mirrors_bind (mirrors_emit _) fun _ => mirrors_settle (.ok _)
  · intro w chains hw
    obtain ⟨kept, hchained, hcurrent⟩ := outcome_chainFor_current s.link hw
    have hcomposed : outcome (compose s.link) (w.composed chains) = (.ok ⟨s.link, w.layers⟩, w.composed chains) := rfl
    rw [ending, after, outcome_bind_ok hchained, outcome_bind_ok hcomposed]
    exact Layer.mirrors_through hown (db.sends_mirrored s.link).core w.layers s.context _ chains hcurrent

end Database

end

theorem Database.mirrors_submitWithin (db : Database σ) (room : Nat) :
    ∀ s, Mirrors (db.submitWithin chainFor room s) (db.submitWithin compose room s) := by
  induction room with
  | zero => exact db.mirrors_submitThrough fun _ => mirrors_settle (.error tooDeep)
  | succ room ih => exact db.mirrors_submitThrough ih

/-! ### Whole sessions -/

/-- What may be done to a session: a layer is registered, the other hooks of the caller change, or a context is submitted,
with room for so many more inside one another. -/
inductive Instruction where
  | register (layer : Layer)
  | attend (guards : List Guard) (measures reports : Bool)
  | submit (room : Nat) (submission : Submission)

namespace Instruction

/-- Instructions one after another, and what comes of the submissions, each of which goes through what `chain` answers for
its link. -/
def play (db : Database σ) (chain : Link → Session σ Chained) :
    List Instruction → Session σ (List (Except Failure Result))
  | [] => pure []
  | register layer :: rest => do
    modify fun w => { w with layers := w.layers ++ [layer] }
    play db chain rest
  | attend guards measures reports :: rest => do
    modify fun w => { w with guards, measures, reports }
    play db chain rest
  | submit room submission :: rest => do
    let outcome ← attempt (db.submitWithin chain room submission)
    let others ← play db chain rest
    pure (outcome :: others)

theorem mirrors_play (db : Database σ) (instructions : List Instruction) :
    Mirrors (play db Database.chainFor instructions) (play db Database.compose instructions) := by
  induction instructions with
  | nil => exact mirrors_settle (.ok [])
  | cons instruction rest ih =>
      cases instruction with
      | register layer =>
          exact mirrors_bind (mirrors_modify (fun _ _ => rfl) fun w hw chained hmem =>
            (hw chained hmem).trans (List.prefix_append _ _)) fun _ => ih
      | attend guards measures reports => exact mirrors_bind (mirrors_modify (fun _ _ => rfl) fun _ hw => hw) fun _ => ih
      | submit room submission =>
          exact mirrors_bind (mirrors_attempt (db.mirrors_submitWithin room submission)) fun outcome =>
            mirrors_bind ih fun others => mirrors_settle (.ok (outcome :: others))

/-- Whatever is registered and submitted over any number of drivers, by layers as well, comes to the same and leaves the
same world, its journal and what is outside included, as if layers were composed anew for every submission; and at every
point of a session the registered layers are composed for a link over its own driver. -/
theorem play_composed (db : Database σ) (instructions : List Instruction) {w : World σ} (hw : w.IsCurrent) :
    let kept := outcome (play db Database.chainFor instructions) w
    outcome (play db Database.compose instructions) w = (kept.1, kept.2.composed w.chains) ∧
      ∀ link, ending (Database.chainFor link) kept.2 = .ok ⟨link, kept.2.layers⟩ := by
  obtain ⟨hsame, hcurrent⟩ := mirrors_play db instructions w w.chains hw
  refine ⟨hsame, fun link => ?_⟩
  obtain ⟨chains, hchained, -⟩ := Database.outcome_chainFor_current link hcurrent
  exact congrArg Prod.fst hchained

/-- A layer that registers one more each time, and asks another driver before it lets a context through. -/
def inquiring : Layer where
  number := 0
  plan c := .register 1 (fun c => .proceed c .finish)
    (.submit { link := .further 0, context := { sql := "SELECT 2" } } fun _ => .proceed c .finish)

theorem play_composed_inquiring :
    let asked : Instruction := .submit 1 { link := .primary, context := { sql := "SELECT 1" } }
    let w : World Unit := { outside := () }
    let kept := outcome (play Database.ready Database.chainFor [.register inquiring, asked, asked]) w
    outcome (play Database.ready Database.compose [.register inquiring, asked, asked]) w = (kept.1, kept.2.composed []) ∧
      kept.2.layers.length = 5 ∧
      kept.2.journal.filterMap (Event.executed? · |>.map (·.1)) = ["SELECT 2", "SELECT 1", "SELECT 2", "SELECT 1"] := by
  intro asked w kept
  refine ⟨(play_composed Database.ready [.register inquiring, asked, asked] (w := w) (List.forall_mem_nil _)).1, ?_, ?_⟩
  · decide +kernel
  · decide +kernel

end Instruction

end Polyquery
