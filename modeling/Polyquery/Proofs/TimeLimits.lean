import Polyquery.Proofs.Observation

/-! The time limits of statements. Main statement: a context that the driver executes is the only one between the statement
that sets its time limit and the one that lifts it. The latter is sent if the dialect has one and the former was not refused,
whatever comes of the context, and what comes of the context is what the driver says. Of executions one after another,
whatever comes of each, every time limit that is lifted was set for the one statement before. -/

namespace Polyquery

open Session Account

variable {σ ι α : Type}

namespace Dialect

/-- The statements for the time limit of a context. There are none if it has no limit, and a limit of zero is none. -/
def limits (d : Dialect) : Option Int → Timeout
  | none => ⟨none, none⟩
  | some limit => if limit = 0 then ⟨none, none⟩ else d.timeout limit

/-- A text that lifts some time limit. -/
def Lifts (d : Dialect) (sql : String) : Prop := ∃ limit, (d.timeout limit).lift = some sql

theorem limits_cases (d : Dialect) (limit : Option Int) :
    d.limits limit = ⟨none, none⟩ ∨ ∃ n, limit = some n ∧ d.limits limit = d.timeout n := by
  cases limit with
  | none => exact .inl rfl
  | some n =>
      by_cases hn : n = 0
      · exact .inl (if_pos hn)
      · exact .inr ⟨n, rfl, if_neg hn⟩

theorem repr_ne_zero {n : Nat} (hn : 0 < n) : n.repr ≠ "0" := by
  intro h
  have hdigits : Nat.toDigits 10 n = ['0'] := Nat.toList_repr.symm.trans (congrArg String.toList h)
  by_cases hsmall : n < 10
  · rw [Nat.toDigits_of_lt_base hsmall] at hdigits
    have hdigit : ∀ m < 10, 0 < m → Nat.digitChar m ≠ '0' := by decide
    exact hdigit n hsmall hn (List.singleton_inj.1 hdigits)
  · rw [Nat.toDigits_of_base_le (by decide) (by omega)] at hdigits
    have hlength := congrArg List.length hdigits
    simp at hlength

theorem repr_ne_of_mem {n : Nat} {s : String} {c : Char} (hc : c ∈ s.toList) (hdigit : c.isDigit = false) : n.repr ≠ s := by
  rintro rfl
  rw [Nat.toList_repr] at hc
  rw [Nat.isDigit_of_mem_toDigits (by decide) (by decide) hc] at hdigit
  cases hdigit

/-- No text that sets a time limit lifts one: what it ends in is the number of milliseconds, one at least. -/
theorem not_lifts_of_apply {d : Dialect} {limit : Option Int} {sql : String} (h : (d.limits limit).apply = some sql) :
    ¬ d.Lifts sql := by
  rintro ⟨other, hlift⟩
  obtain hnone | ⟨n, -, hlimits⟩ := d.limits_cases limit
  · rw [hnone] at h
    cases h
  rw [hlimits] at h
  obtain ⟨m, hm⟩ : ∃ m : Nat, max 1 n = m := ⟨(max 1 n).toNat, by omega⟩
  have hwritten : ∀ (first last : String), first ++ toString (max 1 n) = first ++ last → m.repr = last := by
    intro first last heq
    rw [hm] at heq
    exact (String.append_right_inj first).1 heq
  cases d with
  | sqlite | ansi => cases hlift
  | postgres =>
      cases hlift
      exact repr_ne_of_mem (c := 'D') (by decide) rfl (hwritten "SET statement_timeout = " "DEFAULT" (Option.some.inj h))
  | mysql =>
      cases hlift
      exact repr_ne_zero (by omega) (hwritten "SET SESSION MAX_EXECUTION_TIME = " "0" (Option.some.inj h))
  | sqlserver =>
      cases hlift
      exact repr_ne_of_mem (c := '-') (by decide) rfl (hwritten "SET LOCK_TIMEOUT " "-1" (Option.some.inj h))

theorem exists_apply_of_lift {d : Dialect} {limit : Option Int} {lift : String} (h : (d.limits limit).lift = some lift) :
    ∃ set, (d.limits limit).apply = some set := by
  obtain hnone | ⟨n, -, hlimits⟩ := d.limits_cases limit
  · rw [hnone] at h
    cases h
  · rw [hlimits] at h ⊢
    cases d with
    | sqlite | ansi => cases h
    | postgres | mysql | sqlserver => exact ⟨_, rfl⟩

/-- The statement that lifts a time limit, unless the one that sets it was refused. -/
def Timeout.liftBehind (t : Timeout) (set : Except Failure Unit) : Option String :=
  if t.apply.isSome && !set.isOk then none else t.lift

end Dialect

/-! ### What is sent -/

namespace Deed

/-- Whether a statement is sent to a driver: one that tunes the connection, or a context's own. -/
def isSent : Deed → Bool
  | refused _ _ _ | tuned _ _ _ | executed _ _ _ => true
  | _ => false

/-- A statement that tunes the connection, if there is one. -/
def tuning (link : Link) (sql : Option String) (o : Except Failure Unit) : List Deed :=
  (sql.map fun sql => tuned link sql o).toList

theorem not_nil_eq {front rest : List Deed} {deed : Deed} : ¬ [] = front ++ deed :: rest :=
  fun h => List.append_ne_nil_of_right_ne_nil front (List.cons_ne_nil _ _) h.symm

theorem of_singleton_eq {only : Deed} {front rest : List Deed} {deed : Deed} (h : [only] = front ++ deed :: rest) :
    front = [] ∧ only = deed := by
  obtain ⟨rfl, hfirst⟩ | ⟨front, -, hrest⟩ := List.cons_eq_append_iff.1 h
  · exact ⟨rfl, (List.cons.inj hfirst).1.symm⟩
  · exact (not_nil_eq hrest).elim

theorem of_tuning_eq {link : Link} {sql : Option String} {o : Except Failure Unit} {front rest : List Deed} {deed : Deed}
    (h : tuning link sql o = front ++ deed :: rest) : front = [] ∧ ∃ text, sql = some text ∧ deed = tuned link text o := by
  cases sql with
  | none => exact (not_nil_eq h).elim
  | some text =>
      obtain ⟨rfl, rfl⟩ := of_singleton_eq h
      exact ⟨rfl, text, rfl, rfl⟩

/-- Deeds in which whatever lifts a time limit comes right behind the one context that the limit was set for. -/
def LiftsOwn (dialect : Link → Dialect) (deeds : List Deed) : Prop :=
  ∀ front link lift o rest, deeds.filter isSent = front ++ tuned link lift o :: rest → (dialect link).Lifts lift →
    ∃ earlier set c r, front = earlier ++ [tuned link set (.ok ()), executed link c r] ∧
      (dialect link).limits c.timeout = ⟨some set, some lift⟩

theorem isSent_of_isOutside {deed : Deed} (h : deed.isOutside = true) : deed.isSent = false := by
  cases deed <;> first | rfl | cases h

theorem joins_liftsOwn (dialect : Link → Dialect) : Joins (LiftsOwn dialect) where
  nil _ _ _ _ _ h := (not_nil_eq h).elim
  append {first rest} hfirst hrest front link lift o last h hlifts := by
    rw [List.filter_append] at h
    obtain ⟨later, rfl, hlast⟩ | ⟨later, hsent, hlast⟩ := List.append_eq_append_iff.1 h
    · obtain ⟨earlier, set, c, r, rfl, hown⟩ := hrest later link lift o last hlast hlifts
      exact ⟨_, set, c, r, (List.append_assoc _ _ _).symm, hown⟩
    · cases later with
      | nil =>
          obtain ⟨earlier, set, c, r, hfront, hown⟩ := hrest [] link lift o last hlast.symm hlifts
          simp at hfront
      | cons deed later =>
          obtain ⟨rfl, -⟩ := List.cons.inj hlast
          exact hfirst front link lift o later hsent hlifts
  outside {deed} hdeed _ _ _ _ _ h := by
    rw [List.filter_singleton, isSent_of_isOutside hdeed] at h
    exact (not_nil_eq h).elim

end Deed

open Deed

namespace Account

/-- What is sent for a context, within the statements for its time limit. A text that the driver does not prepare is followed
by nothing, as is a statement that tunes the connection and goes wrong otherwise than by a failure of execution; that is then
what comes of the context. In the end, the driver's outcome is that of the context. -/
inductive Brackets (link : Link) (c : Context) (limits : Dialect.Timeout) : Account Result
  | unprepared (f : Failure) : Brackets link c limits [.refused link c f] (.error f)
  | unset {set : String} {f : Failure} (hset : limits.apply = some set) (hf : f.isExecution = false) :
    Brackets link c limits [.tuned link set (.error f)] (.error f)
  | unlifted {set : Except Failure Unit} {o : Except Failure Result} {lift : String} {f : Failure}
    (hset : ∀ deed ∈ tuning link limits.apply set, deed.isForgiven = true) (hlift : limits.liftBehind set = some lift)
    (hf : f.isExecution = false) :
    Brackets link c limits (tuning link limits.apply set ++ [.executed link c o, .tuned link lift (.error f)]) (.error f)
  | bracketed {set lifted : Except Failure Unit} {o : Except Failure Result}
    (hset : ∀ deed ∈ tuning link limits.apply set, deed.isForgiven = true)
    (hlifted : ∀ deed ∈ tuning link (limits.liftBehind set) lifted, deed.isForgiven = true) :
    Brackets link c limits
      (tuning link limits.apply set ++ .executed link c o :: tuning link (limits.liftBehind set) lifted) o

variable {link : Link} {c : Context} {d : Dialect} {deeds : List Deed} {o : Except Failure Result}

theorem Tunes.sent_ok {sql : String} {granted : Bool} (h : Tunes link sql deeds (.ok granted)) :
    ∃ set, deeds.filter isSent = [.tuned link sql set] ∧ set.isOk = granted ∧
      (Deed.tuned link sql set).isForgiven = true := by
  cases h with
  | granted => exact ⟨.ok (), rfl, rfl, rfl⟩
  | refused event hf => exact ⟨.error _, rfl, rfl, hf⟩

theorem Tunes.sent_error {sql : String} {f : Failure} (h : Tunes link sql deeds (.error f)) :
    deeds.filter isSent = [.tuned link sql (.error f)] ∧ f.isExecution = false := by
  cases h with
  | broken hf => exact ⟨rfl, hf⟩

theorem Sets.sent_ok {limit : Option Int} {outcome : Except Failure (Option String)} {lift : Option String}
    (h : Sets link d limit deeds outcome) (hok : outcome = .ok lift) :
    ∃ set, deeds.filter isSent = tuning link (d.limits limit).apply set ∧ (d.limits limit).liftBehind set = lift ∧
      ∀ deed ∈ tuning link (d.limits limit).apply set, deed.isForgiven = true := by
  cases h with
  | unlimited | zero =>
      cases hok
      exact ⟨.ok (), rfl, rfl, List.forall_mem_nil _⟩
  | @unset n hn happly =>
      cases hok
      have hlimits : d.limits (some n) = d.timeout n := if_neg hn
      refine ⟨.ok (), ?_, ?_, ?_⟩ <;> simp [hlimits, happly, tuning, Dialect.Timeout.liftBehind]
  | @set n sql _ answer hn happly htunes =>
      have hlimits : d.limits (some n) = d.timeout n := if_neg hn
      cases answer with
      | error f => cases hok
      | ok granted =>
          cases hok
          obtain ⟨set, hsent, hset, hforgiven⟩ := htunes.sent_ok
          refine ⟨set, ?_, ?_, ?_⟩
          · simp [hlimits, happly, tuning, hsent]
          · cases granted <;> simp [hlimits, happly, Dialect.Timeout.liftBehind, hset]
          · simpa [hlimits, happly, tuning] using hforgiven

theorem Sets.sent_error {limit : Option Int} {outcome : Except Failure (Option String)} {f : Failure}
    (h : Sets link d limit deeds outcome) (herror : outcome = .error f) :
    ∃ set, (d.limits limit).apply = some set ∧ deeds.filter isSent = [.tuned link set (.error f)] ∧
      f.isExecution = false := by
  cases h with
  | unlimited | zero | unset => cases herror
  | @set n sql _ answer hn happly htunes =>
      have hlimits : d.limits (some n) = d.timeout n := if_neg hn
      cases answer with
      | ok granted => cases herror
      | error f' =>
          cases herror
          exact ⟨sql, hlimits ▸ happly, htunes.sent_error⟩

theorem Lifts.sent_ok {lift : Option String} {outcome : Except Failure Unit} (h : Lifts link lift deeds outcome)
    (hok : outcome = .ok ()) :
    ∃ lifted, deeds.filter isSent = tuning link lift lifted ∧ ∀ deed ∈ tuning link lift lifted, deed.isForgiven = true := by
  cases h with
  | none => exact ⟨.ok (), rfl, List.forall_mem_nil _⟩
  | @some sql _ answer htunes =>
      cases answer with
      | error f => cases hok
      | ok granted =>
          obtain ⟨lifted, hsent, -, hforgiven⟩ := htunes.sent_ok
          exact ⟨lifted, hsent, List.forall_mem_singleton.2 hforgiven⟩

theorem Lifts.sent_error {lift : Option String} {outcome : Except Failure Unit} {f : Failure}
    (h : Lifts link lift deeds outcome) (herror : outcome = .error f) :
    ∃ sql, lift = Option.some sql ∧ deeds.filter isSent = [.tuned link sql (.error f)] ∧ f.isExecution = false := by
  cases h with
  | none => cases herror
  | @some sql _ answer htunes =>
      cases answer with
      | ok granted => cases herror
      | error f' =>
          cases herror
          exact ⟨sql, rfl, htunes.sent_error⟩

theorem Executes.sent (h : Executes link c deeds o) : deeds.filter isSent = [.executed link c o] := by
  cases h <;> rfl

/-- What is sent behind the innermost layer. -/
theorem brackets_of_performs (h : Performs link c d deeds o) :
    Brackets link c (d.limits c.timeout) (deeds.filter isSent) o := by
  -- a context that is passed and prepared is not sent thereby
  have hbehind : ∀ rest : List Deed, (Deed.passed link c :: .prepared link c :: rest).filter isSent = rest.filter isSent :=
    fun _ => rfl
  cases h with
  | refused hprepare =>
      cases hprepare
      exact .unprepared _
  | unset hset =>
      obtain ⟨set, happly, hsent, hf⟩ := hset.sent_error rfl
      rw [hbehind, hsent]
      exact .unset happly hf
  | unlifted hset hrun hlift =>
      obtain ⟨set, hsent, rfl, hforgiven⟩ := hset.sent_ok rfl
      obtain ⟨lift, hlifting, hlifted, hf⟩ := hlift.sent_error rfl
      rw [hbehind, List.filter_append, List.filter_append, hsent, hrun.sent, hlifted]
      exact .unlifted hforgiven hlifting hf
  | failed hset hrun hlift =>
      obtain ⟨set, hsent, rfl, hforgiven⟩ := hset.sent_ok rfl
      obtain ⟨lifted, hlifted, hforgivenLift⟩ := hlift.sent_ok rfl
      rw [hbehind, List.filter_append, List.filter_append, hsent, hrun.sent, hlifted]
      exact .bracketed hforgiven hforgivenLift
  | @succeeded _ _ _ _ r event hset hrun hlift =>
      obtain ⟨set, hsent, rfl, hforgiven⟩ := hset.sent_ok rfl
      obtain ⟨lifted, hlifted, hforgivenLift⟩ := hlift.sent_ok rfl
      have htold : [Deed.measured c r, .reported c, .logged event].filter isSent = [] := rfl
      rw [hbehind, List.filter_append, List.filter_append, List.filter_append, hsent, hrun.sent, hlifted, htold,
        List.append_nil]
      exact .bracketed hforgiven hforgivenLift

section

variable {dialect : Link → Dialect} {set lifted outcome : Except Failure Unit} {front rest : List Deed} {link' : Link}
  {lift : String}

/-- What lifts a time limit within the statements for one is the last of them, and the first one has set it. -/
theorem own_of_bracket (hlifts : (dialect link').Lifts lift)
    (h : tuning link ((dialect link).limits c.timeout).apply set ++
      .executed link c o :: tuning link (((dialect link).limits c.timeout).liftBehind set) lifted =
        front ++ .tuned link' lift outcome :: rest) :
    ∃ text, front = [.tuned link text (.ok ()), .executed link c o] ∧
      (dialect link).limits c.timeout = ⟨some text, some lift⟩ ∧ link' = link := by
  -- behind the context there is only what lifts its limit
  have hbehind : ∀ {front : List Deed}, Deed.executed link c o ::
      tuning link (((dialect link).limits c.timeout).liftBehind set) lifted = front ++ .tuned link' lift outcome :: rest →
      front = [.executed link c o] ∧ ((dialect link).limits c.timeout).liftBehind set = some lift ∧ link' = link := by
    intro front h
    obtain ⟨-, hfirst⟩ | ⟨front, rfl, hrest⟩ := List.cons_eq_append_iff.1 h
    · cases hfirst
    · obtain ⟨rfl, text, htext, hdeed⟩ := of_tuning_eq hrest
      cases hdeed
      exact ⟨rfl, htext, rfl⟩
  cases happly : ((dialect link).limits c.timeout).apply with
  | none =>
      rw [happly] at h
      obtain ⟨-, hlift, -⟩ := hbehind h
      have hlimit : ((dialect link).limits c.timeout).lift = some lift := by
        simpa [Dialect.Timeout.liftBehind, happly] using hlift
      obtain ⟨text, htext⟩ := Dialect.exists_apply_of_lift hlimit
      cases happly.symm.trans htext
  | some text =>
      rw [happly] at h
      obtain ⟨-, hfirst⟩ | ⟨front, rfl, hrest⟩ := List.cons_eq_append_iff.1 h
      · cases hfirst
        exact absurd hlifts (Dialect.not_lifts_of_apply happly)
      · obtain ⟨rfl, hlift, rfl⟩ := hbehind hrest
        cases set with
        | error f => simp [Dialect.Timeout.liftBehind, happly, Except.isOk, Except.toBool] at hlift
        | ok _ =>
            have hlimit : ((dialect link').limits c.timeout).lift = some lift := by
              simpa [Dialect.Timeout.liftBehind, Except.isOk, Except.toBool] using hlift
            exact ⟨text, rfl, by rw [← happly, ← hlimit], rfl⟩

/-- Whatever lifts the time limit of a context was set for that one. -/
theorem liftsOwn_of_performs (h : Performs link c (dialect link) deeds o) : LiftsOwn dialect deeds := by
  intro front link' lift outcome rest hsplit hlifts
  obtain ⟨sent, hsent⟩ : ∃ sent, deeds.filter isSent = sent := ⟨_, rfl⟩
  have hbrackets := brackets_of_performs h
  rw [hsent] at hbrackets hsplit
  have hown : ∃ set r, front = [.tuned link set (.ok ()), .executed link c r] ∧
      (dialect link).limits c.timeout = ⟨some set, some lift⟩ ∧ link' = link := by
    cases hbrackets with
    | unprepared f => cases (of_singleton_eq hsplit).2
    | unset hset hf =>
        cases (of_singleton_eq hsplit).2
        exact absurd hlifts (Dialect.not_lifts_of_apply hset)
    | @unlifted set r text f hset hlift hf =>
        have htuning : [Deed.tuned link text (.error f)] =
            tuning link (((dialect link).limits c.timeout).liftBehind set) (.error f) := by
          rw [hlift]
          rfl
        rw [htuning] at hsplit
        obtain ⟨text, hfront⟩ := own_of_bracket hlifts hsplit
        exact ⟨text, r, hfront⟩
    | bracketed hset hlifted =>
        obtain ⟨text, hfront⟩ := own_of_bracket hlifts hsplit
        exact ⟨text, o, hfront⟩
  obtain ⟨set, r, rfl, hlimits, rfl⟩ := hown
  exact ⟨[], set, c, r, rfl, hlimits⟩

end

end Account

/-! ### Executions one after another -/

namespace Session

/-- Computations one after another, whatever comes of each. -/
def inSuccession : List (Session σ α) → Session σ Unit
  | [] => pure ()
  | x :: rest => do
    discard (attempt x)
    inSuccession rest

variable {db : Database σ} {P : ι → Account α} {x : ι → Session σ α}

theorem obeys_inSuccession (hx : ∀ i, Obeys db (P i) (x i)) (is : List ι) :
    Obeys db (fun deeds _ => ∃ rows, deeds = rows.flatten ∧ List.Forall₂ (fun i row => ∃ o, P i row o) is rows)
      (inSuccession (is.map x)) := by
  induction is with
  | nil => exact obeys_settle (o := .ok ()) ⟨[], rfl, .nil⟩
  | cons i is ih =>
      refine (hx i).attempt_bind fun {first o} hfirst => ih.mono fun {rest _} hrest => ?_
      obtain ⟨rows, rfl, hrows⟩ := hrest
      exact ⟨first :: rows, rfl, .cons ⟨o, hfirst⟩ hrows⟩

end Session

theorem Account.Joins.flatten {Q : List Deed → Prop} (hQ : Joins Q) {R : ι → List Deed → Prop}
    (hR : ∀ {i row}, R i row → Q row) {is : List ι} {rows : List (List Deed)} (h : List.Forall₂ R is rows) :
    Q rows.flatten := by
  induction h with
  | nil => exact hQ.nil
  | cons hrow _ ih => exact hQ.append (hR hrow) ih

namespace Database

/-- A context behind the innermost layer is executed between the statement that sets its time limit and the one that lifts
it, of which the former is sent if the dialect has one, and the latter if it has one and the former was not refused. What
comes of the context is then what the driver says, unless the connection could not be tuned for something else than a
failure of execution. Of executions one after another, and of submissions through layers, each time limit that is lifted was
set for the one context in between, whatever comes of all of these. -/
theorem time_limits_bracketed (db : Database σ) {w : World σ} (hw : w.IsSound) :
    (∀ link c,
      let x := db.core link c
      ∃ deeds, TurnAll db deeds w (after x w) ∧
        Brackets link c ((db.dialectOf link).limits c.timeout) (deeds.filter isSent) (ending x w)) ∧
    (∀ executions : List (Link × Context),
      let x := inSuccession (executions.map fun e => db.core e.1 e.2)
      ∃ rows : List (List Deed), TurnAll db rows.flatten w (after x w) ∧ LiftsOwn db.dialectOf rows.flatten ∧
        List.Forall₂ (fun e row => ∃ o,
          Brackets e.1 e.2 ((db.dialectOf e.1).limits e.2.timeout) (row.filter isSent) o) executions rows) ∧
    (∀ (room : Nat) (submissions : List Submission),
      let x := inSuccession (submissions.map (db.submitWithin chainFor room))
      ∃ deeds, TurnAll db deeds w (after x w) ∧ LiftsOwn db.dialectOf deeds) := by
  have hjoins := joins_liftsOwn db.dialectOf
  refine ⟨fun link c => ?_, fun executions => ?_, fun room submissions => ?_⟩
  · obtain ⟨deeds, hturns, hperforms⟩ := db.obeys_core link c w hw
    exact ⟨deeds, hturns, brackets_of_performs hperforms⟩
  · obtain ⟨_, hturns, rows, rfl, hrows⟩ := obeys_inSuccession (fun e : Link × Context => db.obeys_core e.1 e.2)
      executions w hw
    exact ⟨rows, hturns, hjoins.flatten (fun ⟨_, h⟩ => liftsOwn_of_performs h) hrows,
      hrows.imp fun _ _ ⟨o, h⟩ => ⟨o, brackets_of_performs h⟩⟩
  · obtain ⟨_, hturns, rows, rfl, hrows⟩ := obeys_inSuccession (db.obeys_submitWithin room) submissions w hw
    exact ⟨rows.flatten, hturns, hjoins.flatten (fun ⟨_, h⟩ => hjoins.of_owns liftsOwn_of_performs h) hrows⟩

/-- A statement that takes no parameters is given one within a time limit, and fails. -/
theorem time_limits_bracketed_failed :
    let db := { plain with dialect := .postgres }
    let c : Context := { sql := "SELECT 1", params := [.null], timeout := some 250 }
    let w : World Unit := { outside := () }
    let x := db.core .primary c
    (∃ deeds, TurnAll db deeds w (after x w) ∧
      Brackets .primary c ⟨some "SET statement_timeout = 250", some "SET statement_timeout = DEFAULT"⟩
        (deeds.filter isSent) (ending x w)) ∧
    (∃ f, ending x w = .error f ∧ f.message = "too many parameters") ∧
    (after x w).journal.filterMap (Event.executed? · |>.map (·.1)) =
      ["SET statement_timeout = 250", "SELECT 1", "SET statement_timeout = DEFAULT"] := by
  intro db c w x
  have hlimits : (db.dialectOf .primary).limits c.timeout =
      ⟨some "SET statement_timeout = 250", some "SET statement_timeout = DEFAULT"⟩ := by decide +kernel
  obtain ⟨hbracketed, -⟩ := time_limits_bracketed db (w := w) ⟨List.forall_mem_nil _, List.forall_mem_nil _⟩
  obtain ⟨deeds, hturns, hbrackets⟩ := hbracketed .primary c
  exact ⟨⟨deeds, hturns, hlimits ▸ hbrackets⟩, ⟨_, rfl, rfl⟩, by decide +kernel⟩

end Database

end Polyquery
