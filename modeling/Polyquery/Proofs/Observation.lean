import Polyquery.Proofs.Deeds

/-! What becomes of a submission. Main statement: it is recorded before anything else. What is rejected, or is submitted
in test mode, goes no further. Anything else goes through the layers, the first registered outermost; each context that they
let through is executed once, and of each execution that succeeds the hooks are told once. -/

namespace Polyquery

open Session Account

variable {σ : Type}

/-! ### Contexts let through, executed and told of -/

namespace Deed

/-- A context that the innermost layer lets through. -/
def passed? : Deed → Option (Link × Context)
  | passed link c => some (link, c)
  | _ => none

/-- A context that is executed, or whose text the driver does not prepare. -/
def attempted? : Deed → Option (Link × Context)
  | executed link c _ | refused link c _ => some (link, c)
  | _ => none

def executed? : Deed → Option (Link × Context)
  | executed link c _ => some (link, c)
  | _ => none

/-- A statement that is recorded. -/
def recorded? : Deed → Option Recorded
  | recorded c => some ⟨c.sql, c.params⟩
  | _ => none

def succeeded? : Deed → Option (Context × Result)
  | executed _ c (.ok r) => some (c, r)
  | _ => none

/-- Whether a hook is told of a statement. -/
def isObservation : Deed → Bool
  | measured _ _ | reported _ => true
  | _ => false

/-- Whether a tuning statement, if this is one, fails by a failure of execution if at all. -/
def isForgiven : Deed → Bool
  | tuned _ _ (.error f) => f.isExecution
  | _ => true

/-- Whether a deed has nothing to do with the statements of contexts. -/
def isAside : Deed → Bool
  | passed _ _ | refused _ _ _ | executed _ _ _ | measured _ _ | reported _ => false
  | _ => true

/-- Deeds in which each context that is let through is attempted once, and the hooks are told of each success once. -/
structure Match (deeds : List Deed) : Prop where
  attempts : deeds.filterMap attempted? = deeds.filterMap passed?
  observations : deeds.filter isObservation =
    (deeds.filterMap succeeded?).flatMap fun (c, r) => [.measured c r, .reported c]

variable {first rest deeds : List Deed}

theorem Match.append (hfirst : Match first) (hrest : Match rest) : Match (first ++ rest) := by
  constructor
  · rw [List.filterMap_append, List.filterMap_append, hfirst.attempts, hrest.attempts]
  · rw [List.filter_append, List.filterMap_append, List.flatMap_append, hfirst.observations, hrest.observations]

theorem none_of_isAside {deed : Deed} (h : deed.isAside = true) :
    deed.attempted? = none ∧ deed.passed? = none ∧ deed.isObservation = false ∧ deed.succeeded? = none := by
  cases deed <;> first | exact ⟨rfl, rfl, rfl, rfl⟩ | cases h

theorem nil_of_isAside (h : ∀ deed ∈ deeds, deed.isAside = true) :
    deeds.filterMap attempted? = [] ∧ deeds.filterMap passed? = [] ∧ deeds.filter isObservation = [] ∧
      deeds.filterMap succeeded? = [] := by
  refine ⟨List.filterMap_eq_nil_iff.2 fun deed hdeed => (none_of_isAside (h deed hdeed)).1,
    List.filterMap_eq_nil_iff.2 fun deed hdeed => (none_of_isAside (h deed hdeed)).2.1,
    List.filter_eq_nil_iff.2 fun deed hdeed => ?_,
    List.filterMap_eq_nil_iff.2 fun deed hdeed => (none_of_isAside (h deed hdeed)).2.2.2⟩
  rw [(none_of_isAside (h deed hdeed)).2.2.1]
  exact Bool.false_ne_true

theorem match_aside (h : ∀ deed ∈ deeds, deed.isAside = true) : Match deeds := by
  obtain ⟨hattempted, hpassed, hobserved, hsucceeded⟩ := nil_of_isAside h
  exact ⟨by rw [hattempted, hpassed], by rw [hobserved, hsucceeded]; rfl⟩

theorem Match.insert {part : List Deed} (first : List Deed) (hpart : ∀ deed ∈ part, deed.isAside = true)
    (h : Match (first ++ rest)) : Match (first ++ (part ++ rest)) := by
  obtain ⟨hattempted, hpassed, hobserved, hsucceeded⟩ := nil_of_isAside hpart
  have hattempts := h.attempts
  have hobservations := h.observations
  constructor
  · simp only [List.filterMap_append, hattempted, hpassed, List.nil_append] at hattempts ⊢
    exact hattempts
  · simp only [List.filter_append, List.filterMap_append, hobserved, hsucceeded, List.nil_append] at hobservations ⊢
    exact hobservations

end Deed

open Deed

/-! ### The deeds of each part of the way -/

section

variable {link : Link} {c : Context} {d : Dialect} {deeds : List Deed}

namespace Account

/-- Whether deeds match wherever tuning statements are forgiven. -/
def Matches {α : Type} (P : Account α) : Prop :=
  ∀ {deeds o}, P deeds o → (∀ deed ∈ deeds, deed.isForgiven = true) → Match deeds

theorem isAside_of_ofTuning (h : ∀ deed ∈ deeds, OfTuning link deed) : ∀ deed ∈ deeds, deed.isAside = true := by
  intro deed hdeed
  cases h deed hdeed <;> rfl

theorem Tunes.unforgiven {sql : String} {f : Failure} (h : Tunes link sql deeds (.error f)) :
    ∃ deed ∈ deeds, deed.isForgiven = false := by
  cases h with
  | broken hf => exact ⟨_, List.mem_singleton_self _, hf⟩

theorem Sets.unforgiven {timeout : Option Int} {f : Failure} {o : Except Failure (Option String)}
    (h : Sets link d timeout deeds o) (ho : o = .error f) : ∃ deed ∈ deeds, deed.isForgiven = false := by
  cases h with
  | unlimited | zero | unset => cases ho
  | @set _ _ _ granted _ _ htunes =>
      cases granted with
      | ok _ => cases ho
      | error _ => exact htunes.unforgiven

theorem Lifts.unforgiven {lift : Option String} {f : Failure} {o : Except Failure Unit} (h : Lifts link lift deeds o)
    (ho : o = .error f) : ∃ deed ∈ deeds, deed.isForgiven = false := by
  cases h with
  | none => cases ho
  | @some _ _ granted htunes =>
      cases granted with
      | ok _ => cases ho
      | error _ => exact htunes.unforgiven

/-- A context behind the innermost layer is attempted once, and told of once if that succeeds. -/
theorem matches_performs : (Performs link c d).Matches := by
  intro deeds o h hforgiven
  have habsurd : ∀ {deed}, deed ∈ deeds → deed.isForgiven = false → Match deeds := by
    intro deed hdeed hunforgiven
    rw [hforgiven deed hdeed] at hunforgiven
    cases hunforgiven
  cases h with
  | refused hprepare =>
      cases hprepare
      exact ⟨rfl, rfl⟩
  | unset hset =>
      obtain ⟨deed, hdeed, hunforgiven⟩ := hset.unforgiven rfl
      exact habsurd (by simp [hdeed]) hunforgiven
  | unlifted hset hrun hlift =>
      obtain ⟨deed, hdeed, hunforgiven⟩ := hlift.unforgiven rfl
      exact habsurd (by simp [hdeed]) hunforgiven
  | failed hset hrun hlift =>
      refine .insert [.passed link c, .prepared link c] (isAside_of_ofTuning hset.ofTuning) ?_
      rw [← List.append_nil (_ ++ _), List.append_assoc]
      cases hrun with
      | refused _ event =>
          exact .insert [.passed link c, .prepared link c, .executed link c (.error _), .logged event] (isAside_of_ofTuning hlift.ofTuning)
            ⟨rfl, rfl⟩
      | broken _ =>
          exact .insert [.passed link c, .prepared link c, .executed link c (.error _)] (isAside_of_ofTuning hlift.ofTuning) ⟨rfl, rfl⟩
  | succeeded event hset hrun hlift =>
      refine .insert [.passed link c, .prepared link c] (isAside_of_ofTuning hset.ofTuning) ?_
      cases hrun with
      | granted _ =>
          exact .insert [.passed link c, .prepared link c, .executed link c (.ok _)] (isAside_of_ofTuning hlift.ofTuning) ⟨rfl, rfl⟩

/-- Rows that match if tuning statements are forgiven may be joined. -/
theorem joins_match : Joins fun deeds => (∀ deed ∈ deeds, deed.isForgiven = true) → Match deeds where
  nil _ := match_aside (List.forall_mem_nil _)
  append hfirst hrest hforgiven := by
    obtain ⟨hforgiven, hforgivenRest⟩ := List.forall_mem_append.1 hforgiven
    exact (hfirst hforgiven).append (hrest hforgivenRest)
  outside {deed} h _ := by
    refine match_aside (List.forall_mem_singleton.2 ?_)
    cases deed <;> first | rfl | cases h

theorem matches_owns (dialect : Link → Dialect) (room : Nat) (s : Submission) : (Owns dialect room s).Matches :=
  joins_match.of_owns matches_performs

end Account

end

/-! ### Submissions -/

namespace Database

variable {db : Database σ} {w w' : World σ} {room : Nat} {s : Submission} {deeds : List Deed} {o : Except Failure Result}

/-- Every deed of a row is done in some world. -/
theorem exists_turns_of_mem (h : TurnAll db deeds w w') {deed : Deed} (hdeed : deed ∈ deeds) :
    ∃ v v', deed.Turns db v v' := by
  induction deeds generalizing w with
  | nil => cases hdeed
  | cons first deeds ih =>
      obtain ⟨next, hfirst, hrest⟩ := h
      rcases List.mem_cons.1 hdeed with rfl | hmem
      · exact ⟨w, next, hfirst⟩
      · exact ih hrest hmem

/-- Where every text is prepared, what is attempted is executed. -/
theorem executed_of_prepares
    (hprepares : ∀ link sql (w : World σ), ∃ statement, ending (db.prepare link sql) w = .ok statement)
    (h : TurnAll db deeds w w') : deeds.filterMap executed? = deeds.filterMap attempted? := by
  refine List.filterMap_congr fun deed hdeed => ?_
  cases deed with
  | refused link c f =>
      obtain ⟨v, v', hturns⟩ := exists_turns_of_mem h hdeed
      obtain ⟨statement, hprepared⟩ := hprepares link c.sql v
      rw [ending, show outcome (db.prepare link c.sql) v = _ from hturns] at hprepared
      cases hprepared
  | _ => rfl

/-- How far a submission goes: nowhere behind its judgement if it is rejected, only to the log in test mode, and else through
the registered layers. -/
theorem gate (howns : Owns db.dialectOf (room + 1) s deeds o) (hturns : TurnAll db deeds w w') :
    let verdict := (Policy.check db.settings.rules w.guards s.readonly s.context).2
    ∃ rest, deeds = .recorded s.context :: .judged s verdict :: rest ∧
      (∀ f, verdict = .error f → rest = [] ∧ o = .error f) ∧
      (verdict = .ok () → s.testMode = true → rest = [.logged s.context.dryRun] ∧ o = .ok {}) ∧
      (verdict = .ok () → s.testMode = false → ∃ visit, rest = .requested ⟨s.link, w.layers⟩ :: visit ∧
        Visits (Owns db.dialectOf room) (fun c => Performs s.link c (db.dialectOf s.link)) w.layers s.context visit o) := by
  intro verdict
  cases howns with
  | rejected f =>
      obtain ⟨_, rfl, _, ⟨hverdict, -⟩, -⟩ := hturns
      have hrejected : verdict = .error f := hverdict.symm
      rw [hrejected]
      exact ⟨[], rfl, fun f' hf => ⟨rfl, by cases hf; rfl⟩, nofun, nofun⟩
  | dry htest =>
      obtain ⟨_, rfl, _, ⟨hverdict, -⟩, -⟩ := hturns
      have haccepted : verdict = .ok () := hverdict.symm
      rw [haccepted]
      exact ⟨_, rfl, nofun, fun _ _ => ⟨rfl, rfl⟩, fun _ hlive => absurd (htest.symm.trans hlive) Bool.noConfusion⟩
  | live htest hvisit =>
      obtain ⟨_, rfl, _, ⟨hverdict, rfl⟩, _, ⟨hlayers, -⟩, -⟩ := hturns
      have haccepted : verdict = .ok () := hverdict.symm
      rw [haccepted]
      dsimp only at hlayers
      subst hlayers
      exact ⟨_, rfl, nofun, fun _ hdry => absurd (hdry.symm.trans htest) Bool.noConfusion, fun _ _ => ⟨_, rfl, hvisit⟩⟩

/-! ### The history of a submission -/

/-- What drivers do to statements leaves the records as they are. -/
theorem recorder_of_keeps {α : Type} {x : Session σ α} (hx : Leads (World.Keeps fun _ => True) x) (hw : w.IsSound)
    {o : Except Failure α} (h : outcome x w = (o, w')) : w'.recorder = w.recorder := by
  have hkept := hx w hw.faithful
  rw [after, h] at hkept
  exact hkept.recorder

/-- Only what is recorded is added to the history. -/
theorem history_of_turns {deed : Deed} (h : deed.Turns db w w') (hw : w.IsSound) :
    w'.recorder.history = w.recorder.history ++ deed.recorded?.toList := by
  have hsame : w'.recorder = w.recorder → w'.recorder.history = w.recorder.history ++ [] := by
    intro hrecorder
    rw [hrecorder, List.append_nil]
  cases deed with
  | recorded c =>
      subst h
      exact Recorder.history_record ..
  | entered | left | passed | told | measured | reported | registered =>
      subst h
      exact hsame rfl
  | judged | logged | recalled =>
      obtain ⟨-, rfl⟩ := h
      exact hsame rfl
  | requested chained =>
      obtain ⟨chains, hchained, -⟩ := outcome_chainFor_current chained.link hw.current
      obtain ⟨-, rfl⟩ := Prod.mk.inj (hchained.symm.trans h.2)
      exact hsame rfl
  | refused | prepared => exact hsame (recorder_of_keeps (keeps_prepare _ _) hw h)
  | tuned => exact hsame (recorder_of_keeps (keeps_sendTuning _ _) hw h)
  | executed => exact hsame (recorder_of_keeps (keeps_execute _ _ _) hw h)

theorem history_of_turnAll (h : TurnAll db deeds w w') (hw : w.IsSound) :
    w'.recorder.history = w.recorder.history ++ deeds.filterMap recorded? := by
  induction deeds generalizing w with
  | nil =>
      rw [show w' = w from h]
      exact (List.append_nil _).symm
  | cons deed deeds ih =>
      obtain ⟨next, hfirst, hrest⟩ := h
      rw [ih hrest (sound_of_turns hfirst hw), history_of_turns hfirst hw, List.append_assoc, List.filterMap_cons]
      cases deed.recorded? <;> rfl

/-- Whatever comes of a submission, its statement is recorded behind all that was there, and in front of what the layers
submit on its way. Where it does not come to the layers, it is the last one. -/
theorem submitWithin_recorded (db : Database σ) (room : Nat) (s : Submission) {w : World σ} (hw : w.IsSound) :
    let recorder := (after (db.submitWithin chainFor room s) w).recorder
    (∃ rest, recorder.history = (w.recorder.record s.context.sql s.context.params).history ++ rest) ∧
      ((Policy.check db.settings.rules w.guards s.readonly s.context).2 ≠ .ok () ∨ s.testMode = true →
        recorder.last? = some ⟨s.context.sql, s.context.params⟩) := by
  intro recorder
  obtain ⟨deeds, hturns, howns⟩ := db.obeys_submitWithin room s w hw
  obtain ⟨rest, rfl, hrejected, hdry, -⟩ := gate howns hturns
  have hhistory : recorder.history =
      (w.recorder.record s.context.sql s.context.params).history ++ rest.filterMap recorded? := by
    rw [Recorder.history_record, List.append_assoc]
    exact history_of_turnAll hturns hw
  refine ⟨⟨_, hhistory⟩, fun hstopped => ?_⟩
  have hrest : rest.filterMap recorded? = [] := by
    cases hverdict : (Policy.check db.settings.rules w.guards s.readonly s.context).2 with
    | error f => rw [(hrejected f hverdict).1, List.filterMap_nil]
    | ok _ =>
        rw [(hdry hverdict (hstopped.resolve_left fun hne => hne hverdict)).1]
        rfl
  rw [hrest, List.append_nil] at hhistory
  rw [Recorder.last?, hhistory]
  exact Recorder.last?_record ..

/-! ### The way of a submission -/

/-- A submission is recorded before anything else. What is rejected goes no further, and in test mode nothing does but to
the log. Anything else goes through the registered layers, the first one outermost. If tuning statements only fail by
failures of execution, each context that the innermost layer lets through is attempted once, and executed where the driver
prepares its text; and of each execution that succeeds the hooks are told once, the metrics before the report. -/
theorem submitWithin_observed (db : Database σ) (room : Nat) (s : Submission) {w : World σ} (hw : w.IsSound) :
    let x := db.submitWithin chainFor room s
    let verdict := (Policy.check db.settings.rules w.guards s.readonly s.context).2
    ∃ rest : List Deed,
      let deeds := .recorded s.context :: .judged s verdict :: rest
      TurnAll db deeds w (after x w) ∧ (after x w).IsSound ∧
      (∀ f, verdict = .error f → rest = [] ∧ ending x w = .error f) ∧
      (verdict = .ok () → s.testMode = true → rest = [.logged s.context.dryRun] ∧ ending x w = .ok {}) ∧
      (verdict = .ok () → s.testMode = false → ∃ visit, rest = .requested ⟨s.link, w.layers⟩ :: visit ∧
        Visits (Owns db.dialectOf room) (fun c => Performs s.link c (db.dialectOf s.link)) w.layers s.context visit
          (ending x w)) ∧
      ((∀ deed ∈ deeds, deed.isForgiven = true) →
        deeds.filterMap attempted? = deeds.filterMap passed? ∧
        ((∀ link sql (w : World σ), ∃ statement, ending (db.prepare link sql) w = .ok statement) →
          deeds.filterMap executed? = deeds.filterMap passed?) ∧
        deeds.filter isObservation =
          (deeds.filterMap succeeded?).flatMap fun (c, r) => [.measured c r, .reported c]) := by
  intro x verdict
  obtain ⟨deeds, hturns, howns⟩ := db.obeys_submitWithin room s w hw
  have hmatch := matches_owns db.dialectOf (room + 1) s howns
  obtain ⟨rest, rfl, hrejected, hdry, hlive⟩ := gate howns hturns
  refine ⟨rest, hturns, sound_of_turnAll hturns hw, hrejected, hdry, hlive, fun hforgiven => ?_⟩
  have hmatched := hmatch hforgiven
  exact ⟨hmatched.attempts, fun hprepares => (executed_of_prepares hprepares hturns).trans hmatched.attempts,
    hmatched.observations⟩

/-- A database whose driver takes no parameters. -/
def plain : Database Unit where
  settings := {}
  dialect := .sqlite
  primary := .port
    { prepare := fun _ => pure ()
      execute := fun sql params => match params with
        | [] => pure {}
        | _ => throw (.of (.execution ⟨.fatal, "too many parameters", some sql, .null⟩))
      lastKey := pure .null, start := pure (), commit := pure (), rollback := pure () }
  moment := ⟨2024, 1, 1, 0, 0, 0⟩
  chance := .ofInt 0

/-- A layer that lets a context through, and once more with a parameter. -/
def insisting : Layer where
  number := 0
  plan c := .proceed c fun _ => .proceed { c with params := [.null] } .finish

/-- Of two statements that are let through, the hooks are told of the one that succeeds. -/
theorem submitWithin_observed_insisting :
    let w : World Unit := { outside := (), layers := [insisting], measures := true, reports := true }
    let x := plain.submitWithin chainFor 0 { link := .primary, context := { sql := "SELECT 1" } }
    (∃ deeds : List Deed, TurnAll plain deeds w (after x w) ∧
      deeds.filterMap executed? = deeds.filterMap passed? ∧
      deeds.filter isObservation = (deeds.filterMap succeeded?).flatMap fun (c, r) => [.measured c r, .reported c]) ∧
    (after x w).journal.filterMap (Event.executed? · |>.map (·.2.length)) = [0, 1] ∧
    (after x w).journal.filterMap (fun event => match event with
      | .reported _ params => some params.length
      | _ => none) = [0] := by
  intro w x
  refine ⟨?_, by decide +kernel, by decide +kernel⟩
  obtain ⟨rest, hturns, -, -, -, -, hmatch⟩ := submitWithin_observed plain 0
    { link := .primary, context := { sql := "SELECT 1" } } (w := w) ⟨List.forall_mem_nil _, List.forall_mem_nil _⟩
  have hprepares : ∀ link sql (v : World Unit), ∃ statement, ending (plain.prepare link sql) v = .ok statement :=
    fun link sql v => ⟨⟨sql⟩, by cases link <;> rfl⟩
  have hforgiven : ∀ {deeds}, TurnAll plain deeds w (after x w) → ∀ deed ∈ deeds, deed.isForgiven = true := by
    intro deeds hturns deed hdeed
    obtain ⟨v, v', h⟩ := exists_turns_of_mem hturns hdeed
    cases deed with
    | tuned link sql o =>
        have hsent : ending (plain.sendTuning link sql) v = .ok () := by cases link <;> rfl
        have ho : ending (plain.sendTuning link sql) v = o := congrArg Prod.fst h
        rw [← ho, hsent]
        rfl
    | _ => rfl
  obtain ⟨-, hexecuted, htold⟩ := hmatch (hforgiven hturns)
  exact ⟨_, hturns, hexecuted hprepares, htold⟩

end Database

end Polyquery
