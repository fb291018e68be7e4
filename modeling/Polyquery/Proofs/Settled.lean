import Polyquery.Session.Opening

/-! Settings that were read before are read once more when a database is opened over them: they are written as
data, and the data is checked. A check leaves its result within bounds (`Settings.Settled`), and what is within
them is read back as it is; so a further reading changes nothing, whatever the first one was given. The value of
restored rows is the one field whose default looks at another field as it was spelt: written settings always have
it, so that the default is for first readings alone. Main statement: `settings_settle`. -/

namespace Polyquery

/-! ### Checks that accept -/

namespace Checked

variable {α β : Type} {a : α}

theorem ok_of_seq {f : Checked (α → β)} {x : Checked α} {b : β} (h : f <*> x = .ok b) :
    ∃ g a, f = .ok g ∧ x = .ok a ∧ g a = b := by
  cases f <;> cases x <;> first | exact ⟨_, _, rfl, rfl, ok.inj h⟩ | cases h

theorem ok_of_map {f : α → β} {x : Checked α} {b : β} (h : f <$> x = .ok b) : ∃ a, x = .ok a ∧ f a = b := by
  obtain ⟨_, a, hf, hx, hb⟩ := ok_of_seq (f := .ok f) h
  exact ⟨a, hx, ok.inj hf ▸ hb⟩

theorem map_ok (f : α → β) (a : α) : f <$> (.ok a : Checked α) = .ok (f a) := rfl

theorem ok_of_under {step : PathStep} {x : Checked α} (h : x.under step = .ok a) : x = .ok a := by
  cases x
  · exact h
  · cases h

theorem ok_of_withIssues {issues : List Issue} {x : Checked α} (h : x.withIssues issues = .ok a) : x = .ok a := by
  cases x
  · simp only [withIssues] at h
    split at h
    · exact h
    · cases h
  · cases h

theorem ok_of_filter {p : α → Bool} {kind : IssueKind} {given : Value} {x : Checked α}
    (h : x.filter p kind given = .ok a) : x = .ok a ∧ p a = true := by
  cases x
  · simp only [filter] at h
    split at h
    · rename_i hp
      obtain rfl := ok.inj h
      exact ⟨rfl, hp⟩
    · cases h
  · cases h

theorem filter_ok {p : α → Bool} (h : p a = true) (kind : IssueKind) (given : Value) :
    (ok a).filter p kind given = .ok a := if_pos h

end Checked

namespace Check

open Checked

variable {α : Type} {a : α}

/-- What is accepted as a record is a mapping whose fields are accepted. -/
theorem ok_of_record {otherwise unknown : IssueKind} {known : List String} {check : Fields → Checked α} {v : Value}
    (h : record otherwise unknown known check v = .ok a) : ∃ fields, v = .map fields ∧ check fields = .ok a := by
  cases v with
  | map fields => exact ⟨fields, rfl, ok_of_withIssues h⟩
  | _ => cases h

/-- A field that is accepted has its default, or is a value that is accepted. -/
theorem ok_of_fieldOr {name : String} {absent : α} {check : Value → Checked α} {fields : Fields}
    (h : fieldOr name absent check fields = .ok a) : a = absent ∨ ∃ v, check v = .ok a := by
  simp only [fieldOr] at h
  split at h
  · exact .inr ⟨_, ok_of_under h⟩
  · exact .inl (ok.inj h).symm

/-- Texts are accepted as they are. -/
theorem list_text (texts : List String) : list text (.list (texts.map .text)) = .ok texts := by
  have hfrom : ∀ start, Checked.all (((texts.map Value.text).zipIdx start).map fun placed =>
      (text placed.1).under (.index (Int.ofNat placed.2))) = .ok texts := by
    induction texts with
    | nil => intro start; rfl
    | cons s rest ih =>
      intro start
      rw [List.map_cons, List.zipIdx_cons, List.map_cons, Checked.all, ih]
      rfl
  exact hfrom 0

end Check

/-! ### Associations read once more -/

namespace Association

variable {α : Type}

theorem map_fst_assign (name : String) (value : α) (entries : List (String × α)) :
    (assign name value entries).map (·.1) =
      if name ∈ entries.map (·.1) then entries.map (·.1) else entries.map (·.1) ++ [name] := by
  induction entries with
  | nil => rfl
  | cons entry rest ih =>
    rw [assign]
    by_cases heq : entry.1 = name
    · simp [heq]
    · have hne : name ≠ entry.1 := Ne.symm heq
      rw [if_neg heq, List.map_cons, ih, List.map_cons]
      by_cases hmem : name ∈ rest.map (·.1)
      · rw [if_pos hmem, if_pos (List.mem_cons_of_mem _ hmem)]
      · rw [if_neg hmem, if_neg (List.not_mem_cons_of_ne_of_not_mem hne hmem), List.cons_append]

theorem nodup_assign {name : String} {value : α} {entries : List (String × α)} (h : (entries.map (·.1)).Nodup) :
    ((assign name value entries).map (·.1)).Nodup := by
  rw [map_fst_assign]
  split
  · exact h
  · rename_i hnew
    exact List.nodup_append.2 ⟨h, by simp, by rintro a ha b hb rfl; exact hnew (List.mem_singleton.1 hb ▸ ha)⟩

/-- An association has each name once. -/
theorem nodup_ofEntries (entries : List (String × α)) : ((ofEntries entries).map (·.1)).Nodup := by
  have hfrom : ∀ done : List (String × α), (done.map (·.1)).Nodup →
      ((entries.foldl (fun done entry => assign entry.1 entry.2 done) done).map (·.1)).Nodup := by
    induction entries with
    | nil => exact fun done h => h
    | cons entry rest ih => exact fun done h => ih _ (nodup_assign h)
  exact hfrom [] .nil

theorem assign_of_notMem {name : String} {value : α} {entries : List (String × α)}
    (h : name ∉ entries.map (·.1)) : assign name value entries = entries ++ [(name, value)] := by
  induction entries with
  | nil => rfl
  | cons entry rest ih =>
    simp only [List.map_cons, List.mem_cons, not_or] at h
    rw [assign, if_neg (fun he => h.1 he.symm), ih h.2, List.cons_append]

/-- Entries with different names are an association already. -/
theorem ofEntries_of_nodup {entries : List (String × α)} (h : (entries.map (·.1)).Nodup) :
    ofEntries entries = entries := by
  have hfrom : ∀ done : List (String × α), ((done ++ entries).map (·.1)).Nodup →
      entries.foldl (fun done entry => assign entry.1 entry.2 done) done = done ++ entries := by
    induction entries with
    | nil => intro done _; simp
    | cons entry rest ih =>
      intro done hdone
      have hnew : entry.1 ∉ done.map (·.1) := by
        intro hmem
        rw [List.map_append, List.nodup_append] at hdone
        exact hdone.2.2 _ hmem _ (by simp) rfl
      rw [List.foldl_cons, assign_of_notMem hnew, ih (List.nodup_cons.1 h).2 (done ++ [entry]) (by simpa using hdone),
        List.append_assoc]
      rfl
  exact hfrom [] h

end Association

/-! ### Bounds that a check leaves -/

/-- A delay that a check accepts: a number, and not below zero. -/
def Double.IsDelay (x : Double) : Prop := !x.isNan && !x.less (.ofInt 0)

/-- Retry settings within the bounds of their check. -/
structure Retry.Settled (r : Retry) : Prop where
  attempts : 1 ≤ r.attempts
  baseDelay : r.baseDelay.IsDelay
  maxDelay : r.maxDelay.IsDelay
  jitter : r.jitter.IsDelay

/-- Rules that name each table at most once. -/
def TableRules.Settled (r : TableRules) : Prop := (r.deniedOperations.map (·.1)).Nodup

/-- Settings within the bounds of their checks. -/
structure Settings.Settled (s : Settings) : Prop where
  maxInValues : 1 ≤ s.maxInValues
  cacheSize : 0 ≤ s.cacheSize
  retry : s.retry.Settled
  rules : s.rules.Settled

section Bounds

open Check Checked

theorem Check.integerFrom_bound {least n : Int} {v : Value} (h : integerFrom least v = .ok n) : least ≤ n :=
  of_decide_eq_true (ok_of_filter h).2

theorem Check.nonNegative_isDelay {x : Double} {v : Value} (h : nonNegative v = .ok x) : x.IsDelay :=
  (ok_of_filter h).2

instance (x : Double) : Decidable x.IsDelay := inferInstanceAs (Decidable (_ = true))

theorem Retry.settled_default : Retry.Settled {} := 
  ⟨by decide, by decide +kernel, by decide +kernel, by decide +kernel⟩

theorem Retry.settled_of_check {v : Value} {r : Retry} (h : Retry.check v = .ok r) : r.Settled := by
  obtain ⟨fields, -, h⟩ := ok_of_record h
  obtain ⟨_, jitter, h₃, hjitter, rfl⟩ := ok_of_seq h
  obtain ⟨_, maxDelay, h₂, hmaxDelay, rfl⟩ := ok_of_seq h₃
  obtain ⟨_, baseDelay, h₁, hbaseDelay, rfl⟩ := ok_of_seq h₂
  obtain ⟨attempts, hattempts, rfl⟩ := ok_of_map h₁
  refine ⟨?_, ?_, ?_, ?_⟩
  · rcases ok_of_fieldOr hattempts with rfl | ⟨_, hgiven⟩
    · exact settled_default.attempts
    · exact integerFrom_bound hgiven
  · rcases ok_of_fieldOr hbaseDelay with rfl | ⟨_, hgiven⟩
    · exact settled_default.baseDelay
    · exact nonNegative_isDelay hgiven
  · rcases ok_of_fieldOr hmaxDelay with rfl | ⟨_, hgiven⟩
    · exact settled_default.maxDelay
    · exact nonNegative_isDelay hgiven
  · rcases ok_of_fieldOr hjitter with rfl | ⟨_, hgiven⟩
    · exact settled_default.jitter
    · exact nonNegative_isDelay hgiven

theorem TableRules.nodup_checkDenied {v : Value} {entries : List (String × List String)}
    (h : checkDenied v = .ok entries) : (entries.map (·.1)).Nodup := by
  cases v with
  | map given =>
    obtain ⟨read, -, rfl⟩ := ok_of_map h
    exact Association.nodup_ofEntries read
  | _ => cases h

theorem TableRules.settled_of_check {v : Value} {r : TableRules} (h : TableRules.check v = .ok r) : r.Settled := by
  obtain ⟨fields, -, h⟩ := ok_of_record h
  obtain ⟨_, deniedOperations, h₂, hdenied, rfl⟩ := ok_of_seq h
  obtain ⟨_, denied, h₁, -, rfl⟩ := ok_of_seq h₂
  obtain ⟨allowed, -, rfl⟩ := ok_of_map h₁
  rcases ok_of_fieldOr hdenied with rfl | ⟨_, hgiven⟩
  · exact .nil
  · exact nodup_checkDenied hgiven

theorem Settings.settled_default : Settings.Settled {} := ⟨by decide, by decide, Retry.settled_default, .nil⟩

/-- Settings that a check accepts are within its bounds, however they were spelt. -/
theorem Settings.settled_of_check {v : Value} {s : Settings} (h : Settings.check v = .ok s) : s.Settled := by
  obtain ⟨fields, -, h⟩ := ok_of_record h
  obtain ⟨_, rules, h₈, hrules, rfl⟩ := ok_of_seq h
  obtain ⟨_, cacheSize, h₇, hcacheSize, rfl⟩ := ok_of_seq h₈
  obtain ⟨_, retry, h₆, hretry, rfl⟩ := ok_of_seq h₇
  obtain ⟨_, softDelete, h₅, -, rfl⟩ := ok_of_seq h₆
  obtain ⟨_, maxInValues, h₄, hmaxInValues, rfl⟩ := ok_of_seq h₅
  obtain ⟨_, testMode, h₃, -, rfl⟩ := ok_of_seq h₄
  obtain ⟨_, readonly, h₂, -, rfl⟩ := ok_of_seq h₃
  obtain ⟨_, tablePrefix, h₁, -, rfl⟩ := ok_of_seq h₂
  obtain ⟨dialect, -, rfl⟩ := ok_of_map h₁
  refine ⟨?_, ?_, ?_, ?_⟩
  · rcases ok_of_fieldOr hmaxInValues with rfl | ⟨_, hgiven⟩
    · exact settled_default.maxInValues
    · exact integerFrom_bound hgiven
  · rcases ok_of_fieldOr hcacheSize with rfl | ⟨_, hgiven⟩
    · exact settled_default.cacheSize
    · exact integerFrom_bound hgiven
  · rcases ok_of_fieldOr hretry with rfl | ⟨_, hgiven⟩
    · exact Retry.settled_default
    · exact Retry.settled_of_check hgiven
  · rcases ok_of_fieldOr hrules with rfl | ⟨_, hgiven⟩
    · exact settled_default.rules
    · exact TableRules.settled_of_check hgiven

end Bounds

/-! ### Written settings read once more -/

section Again

open Check Checked

theorem Check.integerFrom_int {least n : Int} (h : least ≤ n) : integerFrom least (.int n) = .ok n :=
  filter_ok (p := fun n => decide (least ≤ n)) (decide_eq_true h) _ _

theorem Check.nonNegative_real {x : Double} (h : x.IsDelay) : nonNegative (.real x) = .ok x :=
  filter_ok (p := fun x : Double => !x.isNan && !x.less (.ofInt 0)) h _ _

/-- A record whose fields are accepted, and all known, is accepted. -/
theorem Check.record_ok {α : Type} {otherwise unknown : IssueKind} {known : List String}
    {check : Fields → Checked α} {fields : Fields} {a : α} (hcheck : check fields = .ok a)
    (hknown : unknownFields unknown known fields = []) :
    record otherwise unknown known check (.map fields) = .ok a := by
  rw [record, hcheck, hknown]
  rfl

/-- Soft deletion is read back as it is, under every mode and with every marker: the value of restored rows
among the fields stands, null or not. -/
theorem SoftDelete.check_toValue (s : SoftDelete) : SoftDelete.check s.toValue = .ok s := by
  have hmode : encodedWord modes .notAMember (.text s.mode.name) = .ok s.mode := by cases s.mode <;> rfl
  refine record_ok ?_ (by rfl)
  simp only [fieldOr, Value.field?, decide_true, List.find?_cons_of_pos, Option.map_some, Check.bool, String.reduceEq,
    decide_false, Bool.false_eq_true, not_false_eq_true, List.find?_cons_of_neg, text, hmode, any]
  rfl

theorem Retry.check_toValue {r : Retry} (h : r.Settled) : Retry.check r.toValue = .ok r := by
  rw [toValue, check]
  refine record_ok ?_ (by rfl)
  simp only [fieldOr, Value.field?, decide_true, List.find?_cons_of_pos, Option.map_some, integerFrom_int h.attempts,
    String.reduceEq, decide_false, Bool.false_eq_true, not_false_eq_true, List.find?_cons_of_neg,
    nonNegative_real h.baseDelay, nonNegative_real h.maxDelay, nonNegative_real h.jitter]
  rfl

theorem TableRules.checkDenied_toValue {entries : List (String × List String)} (h : (entries.map (·.1)).Nodup) :
    checkDenied (.map (entries.map fun (t, ops) => (.text t, .list (ops.map .text)))) = .ok entries := by
  have hall : Checked.all ((entries.map fun (t, ops) => (Value.text t, Value.list (ops.map .text))).map checkEntry) =
      .ok entries := by
    clear h
    induction entries with
    | nil => rfl
    | cons entry rest ih =>
      rw [List.map_cons, List.map_cons, Checked.all, ih, checkEntry, list_text]
      rfl
  rw [checkDenied, hall, map_ok, Association.ofEntries_of_nodup h]

theorem TableRules.check_toValue {r : TableRules} (h : r.Settled) : TableRules.check r.toValue = .ok r := by
  refine record_ok ?_ (by rfl)
  simp only [checkFields, fieldOr, Value.field?, decide_true, List.find?_cons_of_pos, Option.map_some, list_text,
    String.reduceEq, decide_false, Bool.false_eq_true, not_false_eq_true, List.find?_cons_of_neg, checkDenied_toValue h]
  rfl

/-- Settings within the bounds of their check are read back as they are. -/
theorem Settings.check_toValue {s : Settings} (h : s.Settled) : Settings.check s.toValue = .ok s := by
  have hprefix : optionalText ((s.tablePrefix.map Value.text).getD .null) = .ok s.tablePrefix := by
    cases s.tablePrefix <;> rfl
  rw [toValue, check]
  refine record_ok ?_ (by rfl)
  simp only [toFields, fieldOr, Value.field?, decide_true, List.find?_cons_of_pos, Option.map_some, String.reduceEq,
    decide_false, Bool.false_eq_true, not_false_eq_true, List.find?_cons_of_neg, hprefix, text, Check.bool,
    integerFrom_int h.maxInValues, integerFrom_int h.cacheSize, SoftDelete.check_toValue, Retry.check_toValue h.retry,
    TableRules.check_toValue h.rules]
  rfl

end Again

/-- A database over connections runs by the settings that it is opened with, in the dialect that they name. -/
theorem Database.settings_overConnections {σ : Type} {s : Settings} {dialect : Dialect}
    (h : Dialect.ofName s.dialect = .ok dialect) (primary : Connection σ) (replica : Option (Connection σ))
    (catalogue : Catalogue σ) (moment : Moment) (chance : Double) :
    ∃ db, Database.overConnections s primary replica catalogue moment chance = .ok db ∧ db.settings = s ∧
      db.dialect = dialect := by
  rw [overConnections, h]
  exact ⟨_, rfl, rfl, rfl⟩

/-- A check of settings is a projection. Whatever data was accepted, in whatever spelling, the settings that it
stands for are accepted as data themselves, and stand for themselves, soft deletion with the value of restored rows
that it has. So a database that is opened over them without overrides runs by exactly them, wherever their dialect
is known. -/
theorem settings_settle {v : Value} {s : Settings} (h : Settings.check v = .ok s) :
    Settings.check s.toValue = .ok s ∧ SoftDelete.check s.softDelete.toValue = .ok s.softDelete ∧
      Settings.overlaid (.inl s) (.map []) = .ok s ∧
      ∀ dialect, Dialect.ofName s.dialect = .ok dialect →
        ∀ {σ : Type} (primary : Connection σ) replica catalogue moment chance, ∃ db : Database σ,
          (Settings.overlaid (.inl s) (.map []) >>= fun again =>
              Database.overConnections again primary replica catalogue moment chance) = .ok db ∧
            db.settings = s ∧ db.dialect = dialect := by
  have hagain := Settings.check_toValue (Settings.settled_of_check h)
  have hoverlaid : Settings.overlaid (.inl s) (.map []) = .ok s := by
    change (Settings.check s.toValue).toExcept = .ok s
    rw [hagain]
    rfl
  refine ⟨hagain, SoftDelete.check_toValue s.softDelete, hoverlaid, ?_⟩
  intro dialect hdialect σ primary replica catalogue moment chance
  rw [hoverlaid]
  exact Database.settings_overConnections hdialect primary replica catalogue moment chance

/-- Settings in other spellings than their own: a word for a truth value, the text of a number, and a boolean
mode without a value for restored rows. -/
def Settings.spelt : Value :=
  .map [(.text "readonly", .text "Yes"), (.text "prefix", .null), (.text "max_in_params", .text " 50 "),
    (.text "soft_delete", .map [(.text "enabled", .int 1), (.text "mode", .text "boolean"),
      (.text "deleted_value", .list [.null])]),
    (.text "retry", .map [(.text "attempts", .text "5"), (.text "jitter", .int 0)]),
    (.text "policy", .map [(.text "denied_operations", .map [(.text "users", .tuple [.text "delete"])])])]

theorem settings_settle_spelt :
    ∃ s, Settings.check Settings.spelt = .ok s ∧ s.softDelete.restoredValue = .int 0 ∧ s.retry.attempts = 5 ∧
      Settings.check s.toValue = .ok s ∧ SoftDelete.check s.softDelete.toValue = .ok s.softDelete ∧
      Settings.overlaid (.inl s) (.map []) = .ok s ∧
      ∀ {σ : Type} (primary : Connection σ) replica catalogue moment chance, ∃ db : Database σ,
        (Settings.overlaid (.inl s) (.map []) >>= fun again =>
            Database.overConnections again primary replica catalogue moment chance) = .ok db ∧
          db.settings = s ∧ db.dialect = .sqlite := by
  let s : Settings := {
    readonly := true, maxInValues := 50
    softDelete := { enabled := true, mode := .boolean, deletedValue := .list [.null], restoredValue := .int 0 }
    retry := { attempts := 5, jitter := .ofInt 0 }
    rules := { deniedOperations := [("users", ["delete"])] } }
  have hread : Settings.check Settings.spelt = .ok s := by rfl
  have hdialect : Dialect.ofName "sqlite" = .ok .sqlite := by rfl
  obtain ⟨hagain, hsoft, hoverlaid, hopened⟩ := settings_settle hread
  exact ⟨s, hread, rfl, rfl, hagain, hsoft, hoverlaid, hopened .sqlite hdialect⟩

end Polyquery
