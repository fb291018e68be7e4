import Mathlib.Data.List.Induction
import Polyquery.Registry

/-! Registries after rows of registrations. The registrations alone say what a spelling stands for: in small letters, the
name of the latest one that lists it as an alias, or else itself; and a name is the dialect of the latest registration
under it. Main statement: the last registration wins, for its name and, with the name they stand for, for its aliases; and
a spelling that was never registered is refused. -/

namespace Polyquery

namespace Association

variable {α : Type}

/-- An entry is found under its name, and the others are found as before. -/
theorem find?_assign (name other : String) (value : α) (entries : List (String × α)) :
    find? other (assign name value entries) = if name = other then some value else find? other entries := by
  unfold find?
  induction entries with
  | nil => by_cases h : name = other <;> simp [assign, h]
  | cons entry entries ih =>
      obtain ⟨key, old⟩ := entry
      by_cases hname : key = name
      · by_cases h : name = other <;> simp [assign, hname, h]
      · by_cases hother : key = other
        · subst hother
          simp [assign, hname, Ne.symm hname]
        · simpa [assign, hname, hother] using ih

theorem find?_foldl_assign (keys : List String) (other : String) (value : α) (entries : List (String × α)) :
    find? other (keys.foldl (fun done key => assign key value done) entries) =
      if other ∈ keys then some value else find? other entries := by
  induction keys generalizing entries with
  | nil => simp
  | cons key keys ih =>
      rw [List.foldl_cons, ih, find?_assign]
      by_cases hlater : other ∈ keys
      · simp [hlater]
      · simp [hlater, eq_comm]

end Association

/-! ### The latest of a row -/

/-- The latest member of a row of which something holds. -/
def IsLatest {α : Type} (p : α → Prop) (a : α) (as : List α) : Prop :=
  ∃ before later, as = before ++ a :: later ∧ p a ∧ ∀ b ∈ later, ¬p b

section

variable {α : Type} {p : α → Prop} {a : α} {as : List α}

theorem findRev?_concat (q : α → Bool) (as : List α) (a : α) :
    (as ++ [a]).findRev? q = if q a then some a else as.findRev? q := by
  rw [List.findRev?_eq_find?_reverse, List.findRev?_eq_find?_reverse, List.reverse_append, List.reverse_singleton,
    List.singleton_append, List.find?_cons]
  cases q a <;> rfl

variable [DecidablePred p]

theorem isLatest_iff : IsLatest p a as ↔ as.findRev? (p ·) = some a := by
  rw [List.findRev?_eq_find?_reverse, List.find?_eq_some_iff_append]
  constructor
  · rintro ⟨before, later, rfl, ha, hlater⟩
    exact ⟨decide_eq_true ha, later.reverse, before.reverse, by simp, by simpa using hlater⟩
  · rintro ⟨ha, later, before, hreverse, hlater⟩
    refine ⟨before.reverse, later.reverse, ?_, of_decide_eq_true ha, by simpa using hlater⟩
    rw [← List.reverse_reverse as, hreverse]
    simp

theorem exists_isLatest (h : ∃ a ∈ as, p a) : ∃ a, IsLatest p a as := by
  obtain ⟨a, ha, hp⟩ := h
  cases hfound : as.findRev? (p ·) with
  | some latest => exact ⟨latest, isLatest_iff.2 hfound⟩
  | none =>
      rw [List.findRev?_eq_find?_reverse, List.find?_eq_none] at hfound
      exact absurd (decide_eq_true hp) (hfound a (List.mem_reverse.2 ha))

theorem findRev?_eq_none (h : ∀ a ∈ as, ¬p a) : as.findRev? (p ·) = none := by
  rw [List.findRev?_eq_find?_reverse, List.find?_eq_none]
  intro a ha
  simpa using h a (List.mem_reverse.1 ha)

end

/-! ### Registrations -/

/-- A registration of a dialect under a name and some aliases. -/
structure Enrolment where
  name : String
  entry : Registration
  aliases : List String

namespace Enrolment

/-- Whether a spelling is the name or an alias of a registration. -/
def Mentions (spelling : String) (e : Enrolment) : Prop := e.name = spelling ∨ spelling ∈ e.aliases

instance (spelling : String) : DecidablePred (Mentions spelling) := fun _ => inferInstanceAs (Decidable (_ ∨ _))

/-- The registrations of the dialects that are always there. -/
def standard : List Enrolment :=
  [⟨"sqlite", ⟨.sqlite, "sqlite"⟩, []⟩, ⟨"postgres", ⟨.postgres, "postgres"⟩, ["pgsql", "postgresql"]⟩,
   ⟨"mysql", ⟨.mysql, "mysql"⟩, ["mariadb"]⟩, ⟨"sqlserver", ⟨.sqlserver, "sqlserver"⟩, ["sqlsrv", "mssql"]⟩,
   ⟨"ansi", ⟨.ansi, "ansi"⟩, []⟩]

end Enrolment

namespace Registry

/-- A registry after more registrations. -/
def enrol (r : Registry) (es : List Enrolment) : Registry :=
  es.foldl (fun r e => r.register e.name e.entry e.aliases) r

theorem enrol_append (r : Registry) (es later : List Enrolment) : r.enrol (es ++ later) = (r.enrol es).enrol later :=
  List.foldl_append

theorem builtin_eq : builtin = (⟨[], []⟩ : Registry).enrol Enrolment.standard := rfl

/-- A name is the dialect of the latest registration under it. -/
theorem find?_names (es : List Enrolment) (name : String) :
    Association.find? name ((⟨[], []⟩ : Registry).enrol es).names = (es.findRev? (·.name = name)).map (·.entry) := by
  induction es using List.reverseRecOn with
  | nil => rfl
  | append_singleton es e ih =>
      rw [enrol_append, findRev?_concat]
      change Association.find? name (Association.assign _ _ _) = _
      rw [Association.find?_assign, ih]
      by_cases h : e.name = name <;> simp [h]

/-- An alias is the name of the latest registration that lists it. -/
theorem find?_aliases (es : List Enrolment) (spelling : String) :
    Association.find? spelling ((⟨[], []⟩ : Registry).enrol es).aliases =
      (es.findRev? (spelling ∈ ·.aliases)).map (·.name) := by
  induction es using List.reverseRecOn with
  | nil => rfl
  | append_singleton es e ih =>
      rw [enrol_append, findRev?_concat]
      change Association.find? spelling (e.aliases.foldl (fun done key => Association.assign key e.name done) _) = _
      rw [Association.find?_foldl_assign, ih]
      by_cases h : spelling ∈ e.aliases <;> simp [h]

/-- What a spelling stands for, told from the registrations alone. -/
theorem create_enrol (es : List Enrolment) (text : String) :
    let r := (⟨[], []⟩ : Registry).enrol es
    let name := ((es.findRev? (Text.lower text ∈ ·.aliases)).map (·.name)).getD (Text.lower text)
    r.create text = match es.findRev? (·.name = name) with
      | some e => .ok e.entry
      | none => .error (.uncompilable (.unknownDialect text r.registered)) := by
  dsimp only
  rw [create, find?_aliases, find?_names]
  cases es.findRev? _ <;> rfl

variable {es : List Enrolment} {text : String} {e : Enrolment}

/-- An alias is the dialect that its name stands for. -/
theorem create_alias (he : IsLatest (Text.lower text ∈ ·.aliases) e es) :
    ∃ namesake, IsLatest (·.name = e.name) namesake es ∧
      ((⟨[], []⟩ : Registry).enrol es).create text = .ok namesake.entry := by
  have hmem : e ∈ es := by
    obtain ⟨before, later, rfl, -⟩ := he
    exact List.mem_append_right before List.mem_cons_self
  obtain ⟨namesake, hnamesake⟩ := exists_isLatest (p := (·.name = e.name)) ⟨e, hmem, rfl⟩
  refine ⟨namesake, hnamesake, ?_⟩
  rw [create_enrol, isLatest_iff.1 he, Option.map_some, Option.getD_some, isLatest_iff.1 hnamesake]

/-- A spelling that is no alias is the dialect of the latest registration under it. -/
theorem create_name (he : IsLatest (·.name = Text.lower text) e es) (hfree : ∀ e ∈ es, Text.lower text ∉ e.aliases) :
    ((⟨[], []⟩ : Registry).enrol es).create text = .ok e.entry := by
  rw [create_enrol, findRev?_eq_none hfree, Option.map_none, Option.getD_none, isLatest_iff.1 he]

/-- The latest registration decides what its name and its aliases stand for: an alias stands for its name, whatever is
registered under that, and a name that no registration has for an alias for the dialect. A spelling that was registered in
small letters is never refused, and one that was registered neither as it is nor in small letters always. -/
theorem create_latest (calls : List Enrolment) :
    let all := Enrolment.standard ++ calls
    let r := builtin.enrol calls
    (∀ text e, IsLatest (Enrolment.Mentions (Text.lower text)) e all →
      (Text.lower text ∈ e.aliases →
        ∃ namesake, IsLatest (·.name = e.name) namesake all ∧ r.create text = .ok namesake.entry) ∧
      ((∀ other ∈ all, Text.lower text ∉ other.aliases) → r.create text = .ok e.entry)) ∧
    (∀ text, (∃ e ∈ all, e.Mentions (Text.lower text)) → ∃ entry, r.create text = .ok entry) ∧
    ∀ text, (∀ e ∈ all, ¬e.Mentions text ∧ ¬e.Mentions (Text.lower text)) →
      r.create text = .error (.uncompilable (.unknownDialect text r.registered)) := by
  intro all r
  have hr : r = (⟨[], []⟩ : Registry).enrol all := by
    rw [enrol_append, ← builtin_eq]
  rw [hr]
  refine ⟨fun text e ⟨before, later, hall, hmentions, hlater⟩ => ⟨fun halias => ?_, fun hfree => ?_⟩, ?_, ?_⟩
  · exact create_alias ⟨before, later, hall, halias, fun b hb h => hlater b hb (.inr h)⟩
  · refine create_name ⟨before, later, hall, ?_, fun b hb h => hlater b hb (.inl h)⟩ hfree
    exact hmentions.resolve_right (hfree e (hall ▸ List.mem_append_right before List.mem_cons_self))
  · rintro text ⟨e, he, hmentions⟩
    by_cases halias : ∃ e ∈ all, Text.lower text ∈ e.aliases
    · obtain ⟨latest, hlatest⟩ := exists_isLatest halias
      obtain ⟨namesake, -, hcreated⟩ := create_alias hlatest
      exact ⟨namesake.entry, hcreated⟩
    · have hfree : ∀ e ∈ all, Text.lower text ∉ e.aliases := fun e he h => halias ⟨e, he, h⟩
      obtain ⟨latest, hlatest⟩ := exists_isLatest (p := (·.name = Text.lower text))
        ⟨e, he, hmentions.resolve_right (hfree e he)⟩
      exact ⟨latest.entry, create_name hlatest hfree⟩
  · intro text hnone
    rw [create_enrol, findRev?_eq_none fun e he h => (hnone e he).2 (.inr h), Option.map_none, Option.getD_none,
      findRev?_eq_none fun e he h => (hnone e he).2 (.inl h)]

/-- A dialect under a name and an alias, in whatever letters it is asked for, and a spelling that is neither. -/
theorem create_latest_oracle :
    let oracle : Enrolment := ⟨"oracle", ⟨.ansi, "oracle"⟩, ["oci"]⟩
    let r := builtin.enrol [oracle]
    r.create "OCI" = .ok oracle.entry ∧ r.create "Oracle" = .ok oracle.entry ∧ (∃ entry, r.create "pgsql" = .ok entry) ∧
      ∃ f, r.create "db2" = .error f := by
  intro oracle r
  obtain ⟨hlatest, hregistered, hrefused⟩ := create_latest [oracle]
  have hlower : Text.lower "OCI" = "oci" ∧ Text.lower "Oracle" = "oracle" ∧ Text.lower "pgsql" = "pgsql" ∧
      Text.lower "db2" = "db2" := by decide +kernel
  obtain ⟨hoci, hname, hpgsql, hdb2⟩ := hlower
  refine ⟨?_, (hlatest "Oracle" oracle ?_).2 ?_, hregistered "pgsql" ?_, _, hrefused "db2" ?_⟩
  · obtain ⟨namesake, hnamesake, hcreated⟩ := (hlatest "OCI" oracle ⟨Enrolment.standard, [], rfl, by rw [hoci]; decide,
      by simp⟩).1 (by rw [hoci]; decide)
    have horacle : IsLatest (·.name = oracle.name) oracle (Enrolment.standard ++ [oracle]) :=
      ⟨Enrolment.standard, [], rfl, rfl, by simp⟩
    have hsame : some oracle = some namesake := (isLatest_iff.1 horacle).symm.trans (isLatest_iff.1 hnamesake)
    rw [hcreated, Option.some.inj hsame]
  · rw [hname]
    exact ⟨Enrolment.standard, [], rfl, by decide, by simp⟩
  · rw [hname]
    decide
  · rw [hpgsql]
    decide
  · rw [hdb2]
    decide

/-- An alias does not stay with the dialect that it was registered for: it follows its name when that is registered
again. -/
theorem create_follows_name :
    ¬∀ (calls : List Enrolment) (spelling : String) (e : Enrolment),
      IsLatest (Enrolment.Mentions spelling) e (Enrolment.standard ++ calls) →
        (builtin.enrol calls).create spelling = .ok e.entry := by
  intro h
  have hfirst := h [⟨"a", ⟨.sqlite, "first"⟩, ["x"]⟩, ⟨"a", ⟨.sqlite, "second"⟩, []⟩] "x" ⟨"a", ⟨.sqlite, "first"⟩, ["x"]⟩
    ⟨Enrolment.standard, [⟨"a", ⟨.sqlite, "second"⟩, []⟩], rfl, by decide, by decide⟩
  have hsecond : ((builtin.enrol [⟨"a", ⟨.sqlite, "first"⟩, ["x"]⟩, ⟨"a", ⟨.sqlite, "second"⟩, []⟩]).create "x").toOption =
      some ⟨.sqlite, "second"⟩ := by decide +kernel
  rw [hfirst] at hsecond
  exact absurd hsecond (by decide)

end Registry

end Polyquery
