import Mathlib.Data.List.DropRight
import Polyquery.Proofs.Leads

/-! What a session knows of the columns of tables. Questions after columns and calls that forget the answers come in any
order, and between them anything may happen that leaves the answers alone, the catalogue may change its mind included.

Main statement: a question is answered by what the catalogue said when it was first asked with success after the answers on
the table were last forgotten. Where there is no such answer, and only there, the catalogue is asked; a failure of its own
is passed on and not remembered. -/

namespace Polyquery

open Session

variable {σ α : Type}

/-! ### The catalogue leaves the answers alone -/

/-- Whether two worlds know the same of columns. -/
def World.SameColumns (w w' : World σ) : Prop := w'.columns = w.columns

instance : IsPreorder (World σ) World.SameColumns where
  refl _ := rfl
  trans _ _ _ h h' := h'.trans h

theorem sameColumns_outside (x : Effect σ α) : Leads World.SameColumns (outside x) := by
  intro w
  cases hx : x w.outside with
  | ok a s => rw [after, outcome_outside_ok hx]; rfl
  | error f s => rw [after, outcome_outside_error hx]; rfl

theorem composes_sameColumns : Composes (σ := σ) fun x => Leads World.SameColumns x where
  toSequences := sequences_leads _
  inTransaction := leads_inTransaction
  outside := sameColumns_outside
  setLastKey link _ := fun _ => by cases link <;> rfl

theorem Driver.sameColumns_prepare (d : Dialect) (link : Link) (sql : String) (driver : Driver σ) :
    Leads World.SameColumns (driver.prepare d link sql) := by
  cases driver with
  | port p =>
      exact leads_bind (fun _ => rfl) fun _ => leads_bind (sameColumns_outside _) fun _ => leads_pure _
  | connection c =>
      intro w
      rw [after, outcome_prepare_connection]
      rfl

namespace Database

variable (db : Database σ) (table column : String) {w : World σ}

theorem sameColumns_lookUpColumn : Leads World.SameColumns (db.lookUpColumn table column) := by
  rw [lookUpColumn.eq_def]
  cases db.catalogue with
  | queried =>
      refine leads_bind (Driver.sameColumns_prepare _ _ _ _) fun _ => leads_bind ?_ fun _ => leads_pure _
      exact composes_sameColumns.execute (fun _ _ _ => rfl) _ _
  | listed has => exact composes_sameColumns.call (fun _ => rfl) _
  | reflected schema columns => exact leads_bind (fun _ => rfl) fun _ => leads_pure _

/-! What the catalogue says where it is a list of the caller's, or the columns that are reflected: the answer or the failure
is the list's own, and reflected columns are looked through. -/

theorem lookUpColumn_listed {has : String → String → Effect σ Bool} (hcatalogue : db.catalogue = .listed has) :
    outcome (db.lookUpColumn table column) w = match has table column w.outside with
      | .ok found s => (.ok found, called w (.columnLookup table column) s)
      | .error f s => (.error f, called w (.columnLookup table column) s) := by
  rw [lookUpColumn, hcatalogue]
  cases hsaid : has table column w.outside with
  | ok found s => exact outcome_call_ok hsaid _
  | error f s => exact outcome_call_error hsaid _

theorem lookUpColumn_reflected {schema : Option String} {columns : String → Option (List String)}
    (hcatalogue : db.catalogue = .reflected schema columns) :
    outcome (db.lookUpColumn table column) w =
      (.ok ((columns table).any (·.contains column)), called w (.reflection table schema) w.outside) := by
  rw [lookUpColumn, hcatalogue]
  rfl

/-- A known answer is given, and nothing else happens. -/
theorem tableHasColumn_known {found : Bool} (h : w.columns.get? table column = some found) :
    outcome (db.tableHasColumn table column) w = (.ok found, w) := by
  rw [tableHasColumn, outcome_get_bind, h, outcome_pure]

/-- Where no answer is known the catalogue is asked. -/
theorem tableHasColumn_unknown (h : w.columns.get? table column = none) :
    outcome (db.tableHasColumn table column) w =
      match outcome (db.lookUpColumn table column) w with
      | (.ok found, w') => (.ok found, { w' with columns := w.columns.put table column found })
      | (.error f, w') => (.error f, w') := by
  have hcolumns : (after (db.lookUpColumn table column) w).columns = w.columns :=
    db.sameColumns_lookUpColumn table column w
  rw [tableHasColumn, outcome_get_bind, h]
  obtain ⟨found, hfound⟩ | ⟨f, hfailed⟩ := outcome_cases (db.lookUpColumn table column) w
  · rw [outcome_bind_ok hfound, hfound, ← hcolumns]
    rfl
  · rw [outcome_bind_error hfailed, hfailed]

end Database

/-! ### Calls, and what has come of them -/

/-- What may happen to the known answers: a question, that the answers on a table or on all are forgotten, or whatever else
happens in the meantime, which leaves them as they are. -/
inductive ColumnCall (σ : Type) where
  | ask (table column : String)
  | forget (table : Option String)
  | meanwhile (change : World σ → World σ)

/-- What has come of a call. A question has what the catalogue had to say at that time, whether it was asked or not, and the
answer. -/
inductive ColumnTurn where
  | asked (table column : String) (said answer : Except Failure Bool)
  | forgotten (table : Option String)
  | passed

namespace Database

/-- One call. -/
def takeColumn (db : Database σ) (w : World σ) : ColumnCall σ → ColumnTurn × World σ
  | .ask table column =>
    let (answer, w') := outcome (db.tableHasColumn table column) w
    (.asked table column (ending (db.lookUpColumn table column) w) answer, w')
  | .forget table => (.forgotten table, after (forgetColumns table) w)
  | .meanwhile change => (.passed, { change w with columns := w.columns })

/-- One call after another. -/
def playColumns (db : Database σ) (w : World σ) : List (ColumnCall σ) → List ColumnTurn × World σ
  | [] => ([], w)
  | call :: calls =>
    let (turn, w') := db.takeColumn w call
    let (turns, final) := db.playColumns w' calls
    (turn :: turns, final)

end Database

namespace ColumnTurn

/-- Whether the answers on a table are forgotten. -/
def clears (table : String) : ColumnTurn → Bool
  | forgotten none => true
  | forgotten (some other) => other = table
  | asked .. | passed => false

/-- What the catalogue said to a question, unless it failed. -/
def found? (table column : String) : ColumnTurn → Option Bool
  | asked other name said _ => if other = table ∧ name = column then said.toOption else none
  | forgotten _ | passed => none

/-- What the catalogue said to a question when it was first asked with success, after the answers on the table were last
forgotten. -/
def firstFound (turns : List ColumnTurn) (table column : String) : Option Bool :=
  (turns.rtakeWhile (!·.clears table)).findSome? (·.found? table column)

variable (turns : List ColumnTurn) (table column : String)

theorem firstFound_concat (turn : ColumnTurn) :
    firstFound (turns ++ [turn]) table column =
      if turn.clears table then none else (firstFound turns table column).or (turn.found? table column) := by
  rw [firstFound, List.rtakeWhile_concat]
  cases turn.clears table with
  | true => rfl
  | false =>
      rw [Bool.not_false, if_pos rfl, if_neg Bool.false_ne_true, List.findSome?_append, List.findSome?_cons,
        List.findSome?_nil, ← firstFound]
      cases turn.found? table column <;> rfl

end ColumnTurn

/-! ### What is known -/

/-- A world knows what its turns say, and has answered accordingly. -/
structure World.Recalls (w : World σ) (turns : List ColumnTurn) : Prop where
  known : ∀ table column, w.columns.get? table column = ColumnTurn.firstFound turns table column
  answers : ∀ before table column said answer rest, turns = before ++ .asked table column said answer :: rest →
    answer = ((ColumnTurn.firstFound before table column).map .ok).getD said

namespace World.Recalls

variable (db : Database σ) {w : World σ} {turns : List ColumnTurn}

/-- One more turn: what is known then, and what has been answered if it was a question. -/
theorem concat (h : w.Recalls turns) {w' : World σ} {turn : ColumnTurn}
    (hknown : ∀ table column, w'.columns.get? table column =
      if turn.clears table then none else (w.columns.get? table column).or (turn.found? table column))
    (hanswer : ∀ table column said answer, turn = .asked table column said answer →
      answer = ((w.columns.get? table column).map .ok).getD said) :
    w'.Recalls (turns ++ [turn]) where
  known table column := by rw [hknown, h.known, ColumnTurn.firstFound_concat]
  answers before table column said answer rest hsplit := by
    obtain rfl | ⟨rest, last, rfl⟩ := List.eq_nil_or_concat rest
    · obtain ⟨rfl, hturn⟩ := List.append_inj' hsplit rfl
      rw [← h.known]
      exact hanswer table column said answer (List.cons.inj hturn).1
    · rw [List.concat_eq_append, ← List.cons_append, ← List.append_assoc] at hsplit
      exact h.answers before table column said answer rest (List.append_inj' hsplit rfl).1

theorem ask (h : w.Recalls turns) (table column : String) :
    (db.takeColumn w (.ask table column)).2.Recalls (turns ++ [(db.takeColumn w (.ask table column)).1]) := by
  cases hget : w.columns.get? table column with
  | some found =>
      rw [Database.takeColumn, db.tableHasColumn_known table column hget]
      refine h.concat (fun other name => ?_) ?_
      · by_cases hsame : table = other ∧ column = name
        · obtain ⟨rfl, rfl⟩ := hsame
          rw [hget]
          rfl
        · simp [ColumnTurn.clears, ColumnTurn.found?, hsame]
      · rintro _ _ _ _ ⟨⟩
        rw [hget]
        rfl
  | none =>
      rw [Database.takeColumn, db.tableHasColumn_unknown table column hget]
      have hcolumns : (after (db.lookUpColumn table column) w).columns = w.columns :=
        db.sameColumns_lookUpColumn table column w
      rw [outcome_eq (db.lookUpColumn table column) w]
      cases hsaid : ending (db.lookUpColumn table column) w with
      | ok found =>
          refine h.concat (fun other name => ?_) ?_
          · rw [ColumnCache.get?_put]
            by_cases hsame : table = other ∧ column = name
            · obtain ⟨rfl, rfl⟩ := hsame
              simp [ColumnTurn.clears, ColumnTurn.found?, hget, Except.toOption]
            · simp [ColumnTurn.clears, ColumnTurn.found?, hsame]
          · rintro _ _ _ _ ⟨⟩
            rw [hget]
            rfl
      | error f =>
          refine h.concat (fun other name => ?_) ?_
          · simp [hcolumns, ColumnTurn.clears, ColumnTurn.found?, Except.toOption]
          · rintro _ _ _ _ ⟨⟩
            rw [hget]
            rfl

theorem forget (h : w.Recalls turns) (table : Option String) :
    (db.takeColumn w (.forget table)).2.Recalls (turns ++ [.forgotten table]) := by
  refine h.concat (fun other name => ?_) fun _ _ _ _ hturn => by cases hturn
  cases table with
  | none => exact ColumnCache.get?_invalidate_none w.columns other name
  | some table =>
      refine (ColumnCache.get?_invalidate_some w.columns table other name).trans ?_
      simp [ColumnTurn.clears, ColumnTurn.found?, eq_comm]

/-- Every call keeps a world to its turns. -/
theorem step (h : w.Recalls turns) (call : ColumnCall σ) :
    (db.takeColumn w call).2.Recalls (turns ++ [(db.takeColumn w call).1]) := by
  cases call with
  | ask table column => exact h.ask db table column
  | forget table => exact h.forget db table
  | meanwhile change =>
      refine h.concat (fun other name => ?_) fun _ _ _ _ hturn => by cases hturn
      simp [Database.takeColumn, ColumnTurn.clears, ColumnTurn.found?]

theorem play (h : w.Recalls turns) (calls : List (ColumnCall σ)) :
    (db.playColumns w calls).2.Recalls (turns ++ (db.playColumns w calls).1) := by
  induction calls generalizing w turns with
  | nil => rwa [Database.playColumns, List.append_nil]
  | cons call calls ih =>
      have hrest := ih (h.step db call)
      rwa [List.append_assoc] at hrest

end World.Recalls

namespace Database

/-- After any calls, from a session that knows nothing of columns, every question along the way has been answered by what
the catalogue said when it was first asked with success after the answers on the table were last forgotten, and by what it
said then and there where it had not. The next question goes the same way: with such an answer nothing else happens at all,
and without it the answer or the failure is the catalogue's own, of which the answer is remembered and the failure is
not. To forget the answers on one table leaves those on all others. -/
theorem playColumns_first (db : Database σ) (calls : List (ColumnCall σ)) (w : World σ) :
    ∃ turns w', db.playColumns { w with columns := {} } calls = (turns, w') ∧
      (∀ before table column said answer rest, turns = before ++ .asked table column said answer :: rest →
        answer = ((ColumnTurn.firstFound before table column).map .ok).getD said) ∧
      ∀ table column,
        w'.columns.get? table column = ColumnTurn.firstFound turns table column ∧
        (outcome (db.tableHasColumn table column) w' =
          match ColumnTurn.firstFound turns table column, outcome (db.lookUpColumn table column) w' with
          | some found, _ => (.ok found, w')
          | none, (.ok found, asked) => (.ok found, { asked with columns := w'.columns.put table column found })
          | none, (.error f, asked) => (.error f, asked)) ∧
        (after (db.lookUpColumn table column) w').columns = w'.columns ∧
        ∀ other, (after (forgetColumns (some other)) w').columns.get? table column =
          if other = table then none else w'.columns.get? table column := by
  have hfresh : World.Recalls { w with columns := {} } [] :=
    ⟨fun _ _ => rfl, fun before _ _ _ _ _ hsplit => by simp at hsplit⟩
  have hplayed := hfresh.play db calls
  rw [List.nil_append] at hplayed
  refine ⟨_, _, rfl, hplayed.answers, fun table column => ⟨hplayed.known table column, ?_, ?_, fun other => ?_⟩⟩
  · rw [← hplayed.known]
    cases hknown : (db.playColumns { w with columns := {} } calls).2.columns.get? table column with
    | some found => exact db.tableHasColumn_known table column hknown
    | none =>
        rw [db.tableHasColumn_unknown table column hknown]
        obtain ⟨_, hlooked⟩ | ⟨_, hlooked⟩ := outcome_cases (db.lookUpColumn table column) _ <;> rw [hlooked]
  · exact db.sameColumns_lookUpColumn table column _
  · exact ColumnCache.get?_invalidate_some _ other table column

/-! ### Lists that hold the same throughout -/

section

variable {db : Database σ} {has : String → String → Effect σ Bool} (hcatalogue : db.catalogue = .listed has)
  {content : String → String → Bool} (hhas : ∀ table column s, ∃ s', has table column s = .ok (content table column) s')
include hcatalogue hhas

/-- A question is answered by what the list holds, and nothing else is known behind it. -/
theorem ask_listed {w : World σ}
    (hknown : ∀ {table column found}, w.columns.get? table column = some found → found = content table column)
    (table column : String) :
    (∀ other name said answer, (db.takeColumn w (.ask table column)).1 = .asked other name said answer →
        answer = .ok (content other name)) ∧
      ∀ {other name found}, (db.takeColumn w (.ask table column)).2.columns.get? other name = some found →
        found = content other name := by
  cases hget : w.columns.get? table column with
  | some found =>
      rw [takeColumn, db.tableHasColumn_known table column hget]
      refine ⟨?_, hknown⟩
      rintro _ _ _ _ ⟨⟩
      rw [hknown hget]
  | none =>
      obtain ⟨s, hsaid⟩ := hhas table column w.outside
      have hasked := db.tableHasColumn_unknown table column hget
      rw [db.lookUpColumn_listed table column hcatalogue, hsaid] at hasked
      rw [takeColumn, hasked]
      refine ⟨?_, fun {other name found} hfound => ?_⟩
      · rintro _ _ _ _ ⟨⟩
        rfl
      · dsimp only at hfound
        rw [ColumnCache.get?_put] at hfound
        split at hfound
        case isTrue hsame =>
          obtain ⟨rfl, rfl⟩ := hsame
          exact (Option.some.inj hfound).symm
        case isFalse => exact hknown hfound

/-- Every question along any calls is answered by what the list holds. -/
theorem playColumns_listed (calls : List (ColumnCall σ)) {w : World σ}
    (hknown : ∀ {table column found}, w.columns.get? table column = some found → found = content table column) :
    ∀ turn ∈ (db.playColumns w calls).1, ∀ table column said answer,
      turn = .asked table column said answer → answer = .ok (content table column) := by
  induction calls generalizing w with
  | nil => exact fun _ hturn => absurd hturn List.not_mem_nil
  | cons call calls ih =>
      -- what a call leaves known is what the list holds, whether it was known before or has just been said
      have hstep : (∀ table column said answer, (db.takeColumn w call).1 = .asked table column said answer →
            answer = .ok (content table column)) ∧
          ∀ {table column found}, (db.takeColumn w call).2.columns.get? table column = some found →
            found = content table column := by
        cases call with
        | ask table column => exact db.ask_listed hcatalogue hhas hknown table column
        | forget table =>
            refine ⟨nofun, fun {other name found} hfound => ?_⟩
            change (w.columns.invalidate table).get? other name = some found at hfound
            cases table with
            | none => cases hfound
            | some table =>
                rw [ColumnCache.get?_invalidate_some] at hfound
                split at hfound
                · cases hfound
                · exact hknown hfound
        | meanwhile change => exact ⟨nofun, hknown⟩
      exact List.forall_mem_cons.2 ⟨hstep.1, ih hstep.2⟩

end

end Database

end Polyquery
