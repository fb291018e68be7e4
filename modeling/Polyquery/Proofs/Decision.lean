import Mathlib.Data.List.Basic
import Polyquery.Session.Policy

/-! What policy decides of a statement. Readonly mode, the rules on its table and the guards in their order are asked one
after the other, and the first that objects decides. Main statement: what may run, and of all else which guards were asked
and with what failure it is turned away, is said rule by rule; and more rules, more guards or readonly mode never let
anything pass that was turned away without them. -/

namespace Polyquery

/-! ### Rules on tables -/

namespace TableRules

variable {rules others : TableRules} {operation table : String}

/-- The operations that are denied under a name, of a table or the star. -/
def deniedUnder (rules : TableRules) (name : String) : List String := (rules.deniedOperations.lookup name).getD []

theorem mem_deniedFor (rules : TableRules) (operation table : String) :
    operation ∈ rules.deniedFor table ↔ ∃ name ∈ ["*", table], operation ∈ rules.deniedUnder name := by
  have hentry : ∀ name, ((rules.deniedOperations.find? fun entry => entry.1 = name).map (·.2)).getD [] =
      rules.deniedUnder name := by
    intro name
    rw [deniedUnder]
    congr 1
    induction rules.deniedOperations with
    | nil => rfl
    | cons entry entries ih =>
        rw [List.lookup_cons, List.find?_cons]
        by_cases hname : entry.1 = name
        · simp [hname]
        · have hother : (name == entry.1) = false := by simpa using Ne.symm hname
          simp only [hname, hother, decide_false, ih]
  simp [deniedFor, hentry]

/-- What rules ask of an operation on a table. -/
structure Admit (rules : TableRules) (operation table : String) : Prop where
  allowed : rules.allowed = [] ∨ table ∈ rules.allowed
  denied : table ∉ rules.denied
  operation : ∀ name ∈ ["*", table], operation ∉ rules.deniedUnder name

/-- The rule by which an operation on a table is declined: the first of the three that has something against it. -/
inductive Objects (rules : TableRules) (operation table : String) : Rule → Prop
  | notAllowed (h : ¬(rules.allowed = [] ∨ table ∈ rules.allowed)) : Objects rules operation table .tableNotAllowed
  | denied (hallowed : rules.allowed = [] ∨ table ∈ rules.allowed) (h : table ∈ rules.denied) :
      Objects rules operation table .tableDenied
  | operation {name : String} (hallowed : rules.allowed = [] ∨ table ∈ rules.allowed) (hdenied : table ∉ rules.denied)
      (hname : name ∈ ["*", table]) (h : operation ∈ rules.deniedUnder name) :
      Objects rules operation table .operationDenied

theorem admit_or_objects (rules : TableRules) (operation table : String) :
    rules.Admit operation table ∨ ∃ rule, rules.Objects operation table rule := by
  by_cases hallowed : rules.allowed = [] ∨ table ∈ rules.allowed
  · by_cases hdenied : table ∈ rules.denied
    · exact .inr ⟨_, .denied hallowed hdenied⟩
    · by_cases hoperation : ∃ name ∈ ["*", table], operation ∈ rules.deniedUnder name
      · obtain ⟨name, hname, hmem⟩ := hoperation
        exact .inr ⟨_, .operation hallowed hdenied hname hmem⟩
      · exact .inl ⟨hallowed, hdenied, fun name hname hmem => hoperation ⟨name, hname, hmem⟩⟩
  · exact .inr ⟨_, .notAllowed hallowed⟩

/-- Whether other rules deny whatever these deny, and allow no more tables. -/
structure Within (rules others : TableRules) : Prop where
  allowed : others.allowed = rules.allowed
  denied : rules.denied ⊆ others.denied
  operations : ∀ name, rules.deniedUnder name ⊆ others.deniedUnder name

theorem Within.admits (h : rules.Within others) (hadmitted : others.Admit operation table) : rules.Admit operation table where
  allowed := h.allowed ▸ hadmitted.allowed
  denied := fun hdenied => hadmitted.denied (h.denied hdenied)
  operation := fun name hname hoperation => hadmitted.operation name hname (h.operations name hoperation)

end TableRules

/-! ### Guards -/

namespace Guard

/-- A guard lets a statement pass by answering anything but `false`. It is asked at most once for a statement, so its answer
is the one that it gives when it is asked. -/
def Consents (guard : Guard) (c : Context) : Prop := ∃ value, guard.answer c = .ok value ∧ value ≠ .bool false

/-- How a guard turns a statement away: by answering `false`, or by a failure, which is kept if it is a rejection or an
interrupt and otherwise becomes the origin of a rejection. -/
inductive Declines (guard : Guard) (c : Context) : Failure → Prop
  | answered (h : guard.answer c = .ok (.bool false)) : Declines guard c (Policy.reject c .guardDeclined)
  | kept {f : Failure} (h : guard.answer c = .error f) (hkept : f.isRejection = true ∨ f.isInterrupt = true) :
      Declines guard c f
  | wrapped {f : Failure} (h : guard.answer c = .error f) (hrejection : f.isRejection = false)
      (hinterrupt : f.isInterrupt = false) :
      Declines guard c (.chained (Policy.rejection c (.guardFailed f.message)) f)

end Guard

namespace Policy

variable {rules others : TableRules} {guards asked : List Guard} {guard : Guard} {readonly : Bool} {c : Context}
  {f : Failure}

theorem verdict_eq_ok : verdict c guard = .ok () ↔ guard.Consents c := by
  rw [verdict, Guard.Consents]
  constructor
  · intro h
    split at h
    · cases h
    · exact ⟨_, ‹_›, by rintro rfl; simp_all⟩
    · split at h <;> cases h
  · rintro ⟨value, hanswer, hvalue⟩
    rw [hanswer]
    split
    · simp_all
    · rfl
    · simp_all

theorem verdict_eq_error : verdict c guard = .error f ↔ guard.Declines c f := by
  rw [verdict]
  constructor
  · intro h
    split at h
    · cases h
      exact .answered ‹_›
    · cases h
    · split at h <;> cases h
      · exact .kept ‹_› (Bool.or_eq_true _ _ ▸ ‹_ = true›)
      · rename_i hanswer hwrapped
        rw [Bool.or_eq_true, not_or] at hwrapped
        exact .wrapped hanswer (by simpa using hwrapped.1) (by simpa using hwrapped.2)
  · intro h
    cases h with
    | answered h => rw [h]
    | kept h hkept => simp [h, hkept]
    | wrapped h hrejection hinterrupt => simp [h, hrejection, hinterrupt]

theorem askGuards_cons (hconsents : guard.Consents c) (guards : List Guard) :
    askGuards c (guard :: guards) = (guard :: (askGuards c guards).1, (askGuards c guards).2) := by
  rw [askGuards, verdict_eq_ok.2 hconsents]

/-- Guards that let a statement pass are asked, and then the ones behind them. -/
theorem askGuards_append {before : List Guard} (hbefore : ∀ g ∈ before, g.Consents c) (guards : List Guard) :
    askGuards c (before ++ guards) = (before ++ (askGuards c guards).1, (askGuards c guards).2) := by
  induction before with
  | nil => rfl
  | cons first before ih =>
      obtain ⟨hfirst, hbefore⟩ := List.forall_mem_cons.1 hbefore
      rw [List.cons_append, askGuards_cons hfirst, ih hbefore, List.cons_append]

theorem askGuards_consenting (hall : ∀ g ∈ guards, g.Consents c) : askGuards c guards = (guards, .ok ()) := by
  simpa [askGuards] using askGuards_append hall []

/-- A guard that turns a statement away is the last one that is asked. -/
theorem askGuards_declined {before : List Guard} (hbefore : ∀ g ∈ before, g.Consents c) (hdeclines : guard.Declines c f)
    (after : List Guard) : askGuards c (before ++ guard :: after) = (before ++ [guard], .error f) := by
  rw [askGuards_append hbefore, askGuards, verdict_eq_error.2 hdeclines]

/-- Either all guards let a statement pass, or one of them is the first that does not. -/
theorem consenting_or_declined (c : Context) (guards : List Guard) : (∀ g ∈ guards, g.Consents c) ∨
    ∃ before guard after f, guards = before ++ guard :: after ∧ (∀ g ∈ before, g.Consents c) ∧ guard.Declines c f := by
  induction guards with
  | nil => exact .inl fun _ h => absurd h List.not_mem_nil
  | cons first guards ih =>
      cases hverdict : verdict c first with
      | error f =>
          exact .inr ⟨[], first, guards, f, rfl, fun _ h => absurd h List.not_mem_nil, verdict_eq_error.1 hverdict⟩
      | ok _ =>
          have hfirst : first.Consents c := verdict_eq_ok.1 hverdict
          rcases ih with hall | ⟨before, guard, after, f, hguards, hbefore, hdeclines⟩
          · exact .inl (List.forall_mem_cons.2 ⟨hfirst, hall⟩)
          · exact .inr ⟨first :: before, guard, after, f, by rw [hguards, List.cons_append],
              List.forall_mem_cons.2 ⟨hfirst, hbefore⟩, hdeclines⟩

/-! ### From the first rule to the last guard -/

/-- Neither readonly mode nor a rule on tables turns a statement away. -/
structure Permitted (rules : TableRules) (readonly : Bool) (c : Context) : Prop where
  mode : ¬(readonly = true ∧ c.isWrite = true)
  table : ∀ table, c.table = some table → rules.Admit c.operation.name table

/-- How readonly mode or a rule on tables turns a statement away. The rules are asked where the mode has nothing against the
statement. -/
inductive Barred (rules : TableRules) (readonly : Bool) (c : Context) : Failure → Prop
  | mode (hreadonly : readonly = true) (hwrite : c.isWrite = true) : Barred rules readonly c (reject c .readonlyMode)
  | table {table : String} {rule : Rule} (hmode : ¬(readonly = true ∧ c.isWrite = true)) (htable : c.table = some table)
      (hobjects : rules.Objects c.operation.name table rule) : Barred rules readonly c (reject c rule)

/-- How a statement is turned away, and the guards that were asked for it: none if a rule turns it away, else all up to the
first that declines. -/
inductive Rejected (rules : TableRules) (guards : List Guard) (readonly : Bool) (c : Context) :
    List Guard → Failure → Prop
  | rule {f : Failure} (h : Barred rules readonly c f) : Rejected rules guards readonly c [] f
  | guard {before after : List Guard} {guard : Guard} {f : Failure} (hpermitted : Permitted rules readonly c)
      (hguards : guards = before ++ guard :: after) (hbefore : ∀ g ∈ before, g.Consents c)
      (hdeclines : guard.Declines c f) : Rejected rules guards readonly c (before ++ [guard]) f

/-- The verdict of the rules on tables, said with the operations that are denied under the table's name or the star. -/
theorem checkTable_eq {table : String} (htable : c.table = some table) : checkTable rules c =
    if ¬(rules.allowed = [] ∨ table ∈ rules.allowed) then .error (reject c .tableNotAllowed)
    else if table ∈ rules.denied then .error (reject c .tableDenied)
    else if ∃ name ∈ ["*", table], c.operation.name ∈ rules.deniedUnder name then .error (reject c .operationDenied)
    else .ok () := by
  simp only [checkTable, htable, ← TableRules.mem_deniedFor, not_or, ← ne_eq, Bool.and_eq_true, Bool.not_eq_true',
    List.isEmpty_eq_false_iff, List.contains_eq_mem, decide_eq_false_iff_not, decide_eq_true_eq]

theorem check_permitted (h : Permitted rules readonly c) (guards : List Guard) :
    check rules guards readonly c = askGuards c guards := by
  have hmode : (readonly && c.isWrite) = false := by simpa using h.mode
  have htable : checkTable rules c = .ok () := by
    cases hnamed : c.table with
    | none => simp only [checkTable, hnamed]
    | some table =>
        obtain ⟨hallowed, hdenied, hoperation⟩ := h.table table hnamed
        have hnone : ¬∃ name ∈ ["*", table], c.operation.name ∈ rules.deniedUnder name :=
          fun ⟨name, hname, hmem⟩ => hoperation name hname hmem
        rw [checkTable_eq hnamed, if_neg (not_not.2 hallowed), if_neg hdenied, if_neg hnone]
  rw [check, hmode, htable]
  rfl

theorem check_barred_of (h : Barred rules readonly c f) (guards : List Guard) :
    check rules guards readonly c = ([], .error f) := by
  cases h with
  | mode hreadonly hwrite => simp [check, hreadonly, hwrite]
  | @table table rule hmode htable hobjects =>
      have hquiet : (readonly && c.isWrite) = false := by simpa using hmode
      have hchecked : checkTable rules c = .error (reject c rule) := by
        rw [checkTable_eq htable]
        cases hobjects with
        | notAllowed h => rw [if_pos h]
        | denied hallowed h => rw [if_neg (not_not.2 hallowed), if_pos h]
        | operation hallowed hdenied hname h =>
            rw [if_neg (not_not.2 hallowed), if_neg hdenied, if_pos ⟨_, hname, h⟩]
      rw [check, hquiet, hchecked]
      rfl

theorem permitted_or_barred (rules : TableRules) (readonly : Bool) (c : Context) :
    Permitted rules readonly c ∨ ∃ f, Barred rules readonly c f := by
  by_cases hmode : readonly = true ∧ c.isWrite = true
  · exact .inr ⟨_, .mode hmode.1 hmode.2⟩
  · cases htable : c.table with
    | none => exact .inl ⟨hmode, by simp [htable]⟩
    | some table =>
        rcases rules.admit_or_objects c.operation.name table with hadmitted | ⟨rule, hobjects⟩
        · exact .inl ⟨hmode, by simpa [htable] using hadmitted⟩
        · exact .inr ⟨_, .table hmode htable hobjects⟩

theorem check_of_passes (hpermitted : Permitted rules readonly c) (hguards : ∀ g ∈ guards, g.Consents c) :
    check rules guards readonly c = (guards, .ok ()) := by
  rw [check_permitted hpermitted, askGuards_consenting hguards]

theorem check_of_rejected (h : Rejected rules guards readonly c asked f) :
    check rules guards readonly c = (asked, .error f) := by
  cases h with
  | rule h => exact check_barred_of h guards
  | guard hpermitted hguards hbefore hdeclines =>
      rw [check_permitted hpermitted, hguards, askGuards_declined hbefore hdeclines]

/-- A statement passes everything, or something turns it away. -/
theorem passes_or_rejected (rules : TableRules) (guards : List Guard) (readonly : Bool) (c : Context) :
    (Permitted rules readonly c ∧ ∀ g ∈ guards, g.Consents c) ∨ ∃ asked f, Rejected rules guards readonly c asked f := by
  rcases permitted_or_barred rules readonly c with hpermitted | ⟨f, hbarred⟩
  · rcases consenting_or_declined c guards with hall | ⟨before, guard, after, f, hguards, hbefore, hdeclines⟩
    · exact .inl ⟨hpermitted, hall⟩
    · exact .inr ⟨_, f, .guard hpermitted hguards hbefore hdeclines⟩
  · exact .inr ⟨[], f, .rule hbarred⟩

theorem Permitted.within {stricter : Bool} (h : Permitted others stricter c) (hwithin : rules.Within others)
    (hreadonly : readonly = true → stricter = true) : Permitted rules readonly c where
  mode := fun hmode => h.mode ⟨hreadonly hmode.1, hmode.2⟩
  table := fun table htable => hwithin.admits (h.table table htable)

/-- A statement may run exactly if readonly mode and the rules on its table permit it and every guard consents; then every
guard has been asked. Everything else is turned away by the first that objects, with its failure, after exactly the guards
up to that one were asked, and none if it is no guard. What is turned away stays so where the rules deny more, there are
more guards, or readonly mode is on. -/
theorem check_decides (rules : TableRules) (guards : List Guard) (readonly : Bool) (c : Context) :
    (∀ asked, check rules guards readonly c = (asked, .ok ()) ↔
      asked = guards ∧ Permitted rules readonly c ∧ ∀ guard ∈ guards, guard.Consents c) ∧
    (∀ asked f, check rules guards readonly c = (asked, .error f) ↔ Rejected rules guards readonly c asked f) ∧
    ∀ others more stricter, rules.Within others → guards ⊆ more → (readonly = true → stricter = true) →
      (check rules guards readonly c).2 ≠ .ok () → (check others more stricter c).2 ≠ .ok () := by
  have hpasses : ∀ (rules : TableRules) guards readonly asked, check rules guards readonly c = (asked, .ok ()) →
      asked = guards ∧ Permitted rules readonly c ∧ ∀ guard ∈ guards, guard.Consents c := by
    intro rules guards readonly asked hcheck
    rcases passes_or_rejected rules guards readonly c with ⟨hpermitted, hall⟩ | ⟨asked', f, hrejected⟩
    · rw [check_of_passes hpermitted hall] at hcheck
      cases hcheck
      exact ⟨rfl, hpermitted, hall⟩
    · rw [check_of_rejected hrejected] at hcheck
      cases hcheck
  refine ⟨fun asked => ⟨hpasses rules guards readonly asked, ?_⟩, fun asked f => ⟨fun hcheck => ?_, check_of_rejected⟩, ?_⟩
  · rintro ⟨rfl, hpermitted, hall⟩
    exact check_of_passes hpermitted hall
  · rcases passes_or_rejected rules guards readonly c with ⟨hpermitted, hall⟩ | ⟨asked', f', hrejected⟩
    · rw [check_of_passes hpermitted hall] at hcheck
      cases hcheck
    · rw [check_of_rejected hrejected] at hcheck
      cases hcheck
      exact hrejected
  · intro others more stricter hwithin hmore hreadonly hrejected hcheck
    obtain ⟨-, hpermitted, hall⟩ := hpasses others more stricter _ (Prod.ext rfl hcheck)
    have hguards : ∀ guard ∈ guards, guard.Consents c := fun guard hguard => hall guard (hmore hguard)
    rw [check_of_passes (hpermitted.within hwithin hreadonly) hguards] at hrejected
    exact hrejected rfl

/-- A guard behind a consenting one fails, and the last one is not asked. With another guard in front, every deletion denied
and readonly mode on, the statement stays turned away. -/
theorem check_decides_failing_guard :
    let c : Context := { sql := "DELETE FROM t", operation := .delete, table := some "t" }
    let tenant : Guard := ⟨some "tenant", fun _ => .ok .null⟩
    let quota : Guard := ⟨some "quota", fun _ => .error (.badValue "none left")⟩
    let others : TableRules := { deniedOperations := [("*", ["delete"])] }
    check {} [tenant, quota, tenant] false c =
      ([tenant, quota], .error (.chained (rejection c (.guardFailed "none left")) (.badValue "none left"))) ∧
    TableRules.Within {} others ∧ [tenant, quota, tenant] ⊆ [quota, tenant, quota] ∧ (false = true → true = true) ∧
    (check others [quota, tenant, quota] true c).2 ≠ .ok () := by
  intro c tenant quota others
  obtain ⟨-, hrejected, hstays⟩ := check_decides {} [tenant, quota, tenant] false c
  have hpermitted : Permitted {} false c :=
    { mode := by simp
      table := fun table _ => { allowed := .inl rfl, denied := List.not_mem_nil, operation := fun _ _ => List.not_mem_nil } }
  have htenant : tenant.Consents c := ⟨.null, rfl, by simp⟩
  have hmessage : (Failure.badValue "none left").message = "none left" := rfl
  have hquota : quota.Declines c (.chained (rejection c (.guardFailed "none left")) (.badValue "none left")) :=
    hmessage ▸ .wrapped rfl rfl rfl
  have hasked : Rejected {} [tenant, quota, tenant] false c ([tenant] ++ [quota])
      (.chained (rejection c (.guardFailed "none left")) (.badValue "none left")) :=
    .guard hpermitted rfl (List.forall_mem_singleton.2 htenant) hquota
  have hcheck := (hrejected [tenant, quota] _).2 hasked
  have hwithin : TableRules.Within {} others :=
    { allowed := rfl, denied := List.nil_subset _, operations := fun _ => List.nil_subset _ }
  have hmore : [tenant, quota, tenant] ⊆ [quota, tenant, quota] := by simp
  refine ⟨hcheck, hwithin, hmore, fun _ => rfl, hstays others _ true hwithin hmore (fun _ => rfl) ?_⟩
  rw [hcheck]
  exact nofun

end Policy

end Polyquery
