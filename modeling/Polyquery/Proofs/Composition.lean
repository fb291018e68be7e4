import Polyquery.Proofs.Isolation

/-! What conditions are written with. A condition is put together from references and paths, from values, and from a few
words of its own; how the pieces are joined is stated here once. Main statement: a property of fragments that holds of
these parts, and of what is joined at a border, holds of every condition that a compiler writes. -/

namespace Polyquery

open Sql Fragment

namespace Composed

/-- The words of conditions behind which something is written. -/
def openings : List String :=
  Operator.all.map (fun op => " " ++ op.spelling ++ " ") ++
    ["(", ", ", " IN (", " NOT IN (", " BETWEEN ", " NOT BETWEEN ", " AND ", " OR ", " WHERE "]

/-- The words of conditions that end one. -/
def closings : List String := [")", " IS NULL", " IS NOT NULL", "1 = 1", "1 = 0"]

end Composed

open Composed

/-- A property of fragments that is kept where conditions are put together. -/
structure Composed (d : Dialect) (R : Fragment → Prop) : Prop where
  nil : R []
  append : ∀ {f g : Fragment}, R f → R g → Bordered g → R (f ++ g)
  opening : ∀ {s : String} {f : Fragment}, s ∈ openings → R f → R (.words s :: f)
  closing : ∀ {s : String}, s ∈ closings → R (words s)
  bind : ∀ (value : Value) {f : Fragment}, R f → R (.bind value :: f)
  reference : ∀ ref : String, R (reference ref)
  path : ∀ {ref : String} {segments : List String} {f : Fragment},
    jsonExtract d (Fragment.reference ref) (JsonPath.validate segments) = .ok f → R f

namespace Composed

variable {d : Dialect} {R : Fragment → Prop}

/-! ### Conditions -/

theorem spelling_mem_openings (op : Operator) : " " ++ op.spelling ++ " " ∈ openings := by
  cases op <;> decide

theorem connective_mem_openings (connective : Connective) : " " ++ connective.spelling ++ " " ∈ openings := by
  cases connective <;> decide

theorem compare (H : Composed d R) {subject : Fragment} (h : R subject) (op : Operator) (value : Value) :
    R (Condition.compare subject op value).fragment := by
  have hborder : Bordered [Piece.words (" " ++ op.spelling ++ " "), Piece.bind value] := by
    cases op <;> exact ⟨by decide, by decide⟩
  exact H.append h (H.opening (spelling_mem_openings op) (H.bind value H.nil)) hborder

theorem isNull (H : Composed d R) {subject : Fragment} (h : R subject) (negated : Bool) :
    R (Condition.isNull subject negated).fragment := by
  cases negated with
  | true => exact H.append h (H.closing (by decide)) (bordered_words (by decide))
  | false => exact H.append h (H.closing (by decide)) (bordered_words (by decide))

theorem ofComparison (H : Composed d R) {subject : Fragment} (h : R subject) (op : Operator) (value : Value) :
    R (Condition.ofComparison subject op value).fragment := by
  unfold Condition.ofComparison
  split
  · exact H.isNull h _
  · exact H.compare h op _

theorem bindList (H : Composed d R) (values : List Value) : R (Fragment.bindList values) := by
  rw [Fragment.bindList]
  induction values with
  | nil => exact H.nil
  | cons value values ih =>
      cases values with
      | nil => exact H.bind value H.nil
      | cons next values => exact H.bind value (H.opening (by decide) ih)

theorem isIn (H : Composed d R) {subject : Fragment} (h : R subject) (values : List Value) (negated : Bool) :
    R (Condition.isIn subject values negated).fragment := by
  have hlist : R (Fragment.bindList values ++ words ")") :=
    H.append (H.bindList values) (H.closing (by decide)) (bordered_words (by decide))
  rw [Condition.fragment, List.append_assoc]
  cases negated with
  | true => exact H.append h (H.opening (by decide) hlist) (bordered_words (by decide))
  | false => exact H.append h (H.opening (by decide) hlist) (bordered_words (by decide))

theorem between (H : Composed d R) {subject : Fragment} (h : R subject) (low high : Value) (negated : Bool) :
    R (Condition.between subject low high negated).fragment := by
  have hbounds : R [Piece.bind low, Piece.words " AND ", Piece.bind high] :=
    H.bind low (H.opening (by decide) (H.bind high H.nil))
  cases negated with
  | true => exact H.append h (H.opening (by decide) hbounds) (bordered_words (by decide))
  | false => exact H.append h (H.opening (by decide) hbounds) (bordered_words (by decide))

theorem constant (H : Composed d R) (truth : Bool) : R (Condition.constant truth).fragment := by
  cases truth <;> exact H.closing (by decide)

/-! ### Chains -/

theorem restFragment (H : Composed d R) {rest : Chain} (h : ∀ member ∈ rest, R member.2.fragment) :
    R (Condition.restFragment rest) ∧ Bordered (Condition.restFragment rest) := by
  induction rest with
  | nil => exact ⟨H.nil, trivial⟩
  | cons member rest ih =>
      obtain ⟨connective, condition⟩ := member
      obtain ⟨hfirst, hrest⟩ := List.forall_mem_cons.1 h
      obtain ⟨hmore, hborder⟩ := ih hrest
      refine ⟨H.opening (connective_mem_openings connective) (H.append hfirst hmore hborder), ?_⟩
      cases connective <;> exact bordered_words (by decide)

theorem chain (H : Composed d R) {chain : Chain} (h : ∀ member ∈ chain, R member.2.fragment) : R chain.fragment := by
  cases chain with
  | nil => exact H.nil
  | cons member rest =>
      obtain ⟨hfirst, hrest⟩ := List.forall_mem_cons.1 h
      obtain ⟨hmore, hborder⟩ := H.restFragment hrest
      exact H.append hfirst hmore hborder

theorem group (H : Composed d R) {chain : Chain} (h : ∀ member ∈ chain, R member.2.fragment) :
    R (Condition.group chain).fragment :=
  H.opening (by decide) (H.append (H.chain h) (H.closing (by decide)) (bordered_words (by decide)))

/-! ### Filters and what is added to them -/

theorem lowering {c : Compiler} (H : Composed c.dialect R) : Lowering c
    (fun _ condition? => condition?.elim True fun condition => R condition.fragment)
    (fun _ chain => ∀ member ∈ chain, R member.2.fragment) where
  basic _ := H.ofComparison (H.reference _) _ _
  isIn _ _ := H.isIn (H.reference _) _ _
  isInNothing _ := H.constant _
  isNull := H.isNull (H.reference _) _
  between := H.between (H.reference _) _ _ _
  json _ hsubject := H.ofComparison (H.path hsubject) _ _
  group {query connective chain} h := by
    split
    · trivial
    · exact H.group h
  nil := nofun
  leftOut _ hrest := hrest
  cons hfilter hrest := List.forall_mem_cons.2 ⟨hfilter, hrest⟩

theorem addedColumn (H : Composed d R) (qualifier column : String) : R (Compiler.addedColumn qualifier column) := by
  rw [Compiler.addedColumn]
  split <;> exact H.reference _

theorem scopeColumn (H : Composed d R) {qualifier : String} {column : Value} {subject : Fragment}
    (h : Compiler.scopeColumn qualifier column = .ok subject) : R subject := by
  rw [Compiler.scopeColumn.eq_def] at h
  split at h
  case h_1 name =>
    cases h
    exact H.addedColumn qualifier name
  case h_2 members =>
    split at h
    · cases h
    · cases h
      exact H.reference _
  case h_3 =>
    split at h
    · obtain ⟨name, -, rfl⟩ := map_eq_ok.1 h
      exact H.reference name
    · cases h

theorem visibility (H : Composed d R) {s : SoftDelete} {visibility : Visibility} {qualifier : String}
    {condition : Condition} (h : Compiler.visibilityCondition? s visibility qualifier = some condition) :
    R condition.fragment := by
  have hcolumn := H.addedColumn qualifier s.column
  rw [Compiler.visibilityCondition?.eq_def] at h
  dsimp only at h
  split at h
  case h_1 => cases h
  case h_2 =>
    cases h
    exact H.isNull hcolumn true
  case h_3 =>
    cases h
    exact H.isNull hcolumn false
  case h_4 =>
    cases h
    exact H.compare hcolumn .equal s.deletedValue
  case h_5 =>
    cases h
    have hdifferent := H.compare hcolumn .different s.deletedValue
    refine H.group fun member hmem => ?_
    rcases List.mem_pair.1 hmem with rfl | rfl
    · exact H.isNull hcolumn false
    · exact hdifferent

theorem addedConditions {c : Compiler} (H : Composed d R) {scope : Row} {visibility : Visibility}
    {qualifier : String} {added : List Condition} (h : c.addedConditions scope visibility qualifier = .ok added) :
    ∀ condition ∈ added, R condition.fragment := by
  obtain ⟨equalities, hequalities, rfl⟩ := Compiler.addedConditions_parts h
  intro condition hmem
  rcases List.mem_append.1 hmem with hmem | hmem
  · obtain ⟨⟨column, value⟩, -, hequality⟩ := exists_of_mem_mapM hequalities condition hmem
    obtain ⟨subject, hsubject, rfl⟩ := map_eq_ok.1 hequality
    exact H.ofComparison (H.scopeColumn hsubject) _ _
  · obtain ⟨s, -, htest⟩ := Option.bind_eq_some_iff.1 (Option.mem_toList.1 hmem)
    exact H.visibility htest

theorem joinChains (H : Composed d R) {added : List Condition} {own : Chain}
    (hadded : ∀ condition ∈ added, R condition.fragment) (hown : ∀ member ∈ own, R member.2.fragment) :
    ∀ member ∈ Compiler.joinChains added own, R member.2.fragment := by
  have hall : ∀ member ∈ Chain.all added, R member.2.fragment := by
    intro member hmem
    obtain ⟨condition, hcondition, rfl⟩ := List.mem_map.1 hmem
    exact hadded condition hcondition
  match own with
  | [] => exact hall
  | [(connective, condition)] =>
      have hlast := hown (connective, condition) List.mem_cons_self
      exact List.forall_mem_append.2 ⟨hall, List.forall_mem_singleton.2 hlast⟩
  | first :: second :: rest =>
      rw [Compiler.joinChains]
      · split
        · exact hown
        · exact List.forall_mem_append.2 ⟨hall, List.forall_mem_singleton.2 (H.group hown)⟩
      · simp
      · simp

/-- The condition of a statement, behind its keyword. -/
theorem whereClause {c : Compiler} (H : Composed c.dialect R) {filters : List Filter} {visibility : Visibility}
    {scope : Row} {qualifier : String} {chain : Chain}
    (h : c.whereChain filters visibility scope qualifier = .ok chain) : R (whereClause chain) := by
  obtain ⟨added, own, hadded, hown, rfl⟩ := whereChain_parts h
  have hmembers := H.joinChains (H.addedConditions hadded) (H.lowering.filterChain filters own hown)
  rw [Sql.whereClause]
  split
  · exact H.nil
  · exact H.opening (by decide) (H.chain hmembers)

end Composed

end Polyquery
