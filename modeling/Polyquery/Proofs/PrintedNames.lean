import Polyquery.Proofs.Isolation
import Polyquery.Proofs.Words

/-! The names in a statement. Names with dots between them are one reference; it names a table behind the words that
announce one, and elsewhere what stands before its last dot is a qualifier. Main statement: a selection names its tables and
writes the references of its clauses one after the other, each as it is given. -/

namespace Polyquery

open Sql Fragment

namespace Sql

/-! ### Reading names -/

/-- Names with dots between them, and whether they stand where a table is named. -/
structure Named where
  isTable : Bool
  parts : List String
deriving DecidableEq, Repr

namespace Named

/-- A name that a reference is written with. -/
def column (ref : String) : Named := ⟨false, Text.splitDots ref⟩

/-- A name that a table is announced with. -/
def table (name : String) : Named := ⟨true, Text.splitDots name⟩

/-- The parts of a table's name. -/
def table? (n : Named) : Option (List String) := if n.isTable then some n.parts else none

/-- The parts before the last dot of what is no table's name. -/
def qualifier? (n : Named) : Option (List String) :=
  if n.isTable || n.parts.dropLast.isEmpty then none else some n.parts.dropLast

/-- A part in front of the first of some names. -/
def joined (isTable : Bool) (part : String) : List Named → List Named
  | [] => [⟨isTable, [part]⟩]
  | n :: rest => { n with parts := part :: n.parts } :: rest

end Named

namespace Piece

/-- The name that a piece is; a star is a name as well. -/
def part? : Piece → Option String
  | name s => some s
  | words s => if s = "*" then some s else none
  | _ => none

def isDot : Piece → Bool
  | words s => s = "."
  | _ => false

/-- Whether a table is named behind a piece. -/
def announces : Piece → Bool
  | words s => s = " FROM " || [JoinKind.inner, .left, .right].any fun kind => s = " " ++ kind.spelling ++ " JOIN "
  | _ => false

/-- Whether a piece has nothing to do with names. -/
def isSilent (p : Piece) : Bool := p.part?.isNone && !p.isDot && !p.announces

end Piece

namespace Fragment

/-- The names in a fragment, of which the first may stand where a table is named. -/
def named (isTable : Bool) : Fragment → List Named
  | [] => []
  | p :: rest =>
    match p.part? with
    | none => named (if p.isDot then isTable else p.announces) rest
    | some part =>
      if rest.head?.any Piece.isDot then Named.joined isTable part (named isTable rest)
      else ⟨isTable, [part]⟩ :: named false rest

/-- The tables that a fragment names. -/
def tables (f : Fragment) : List (List String) := (f.named false).filterMap Named.table?

/-- The qualifiers that a fragment writes. -/
def qualifiers (f : Fragment) : List (List String) := (f.named false).filterMap Named.qualifier?

/-- Whether every qualifier in a fragment is a table that it names. -/
def IsResolved (f : Fragment) : Prop := f.qualifiers ⊆ f.tables

instance (f : Fragment) : Decidable f.IsResolved := inferInstanceAs (Decidable (∀ x ∈ f.qualifiers, x ∈ f.tables))

/-- Whether no dot stands in front. -/
def Undotted (f : Fragment) : Prop := f.head?.any Piece.isDot = false

/-- A fragment with the given names, whatever but a dot is written behind it. -/
def Prints (f : Fragment) (names : List Named) : Prop :=
  Undotted f ∧ ∀ g, Undotted g → named false (f ++ g) = names ++ named false g

/-! ### Pieces in a row -/

theorem Undotted.append {f g : Fragment} (hf : Undotted f) (hg : Undotted g) : Undotted (f ++ g) := by
  cases f with
  | nil => exact hg
  | cons p f => exact hf

theorem prints_nil : Prints [] [] := ⟨rfl, fun _ _ => rfl⟩

theorem Prints.append {f g : Fragment} {a b : List Named} (hf : Prints f a) (hg : Prints g b) :
    Prints (f ++ g) (a ++ b) := by
  refine ⟨hf.1.append hg.1, fun rest hrest => ?_⟩
  rw [List.append_assoc, hf.2 _ (hg.1.append hrest), hg.2 _ hrest, List.append_assoc]

theorem prints_silent {p : Piece} (h : p.isSilent) : Prints [p] [] := by
  rw [Piece.isSilent, Bool.and_eq_true, Bool.and_eq_true, Option.isNone_iff_eq_none, Bool.not_eq_true',
    Bool.not_eq_true'] at h
  obtain ⟨⟨hpart, hdot⟩, htable⟩ := h
  refine ⟨hdot, fun g _ => ?_⟩
  simp only [List.singleton_append, named, hpart, hdot, htable, Bool.false_eq_true, ↓reduceIte, List.nil_append]

theorem Prints.silent_cons {p : Piece} {f : Fragment} {names : List Named} (hp : p.isSilent) (h : Prints f names) :
    Prints (p :: f) names :=
  (prints_silent hp).append h

theorem prints_silence {f : Fragment} (h : ∀ p ∈ f, p.isSilent) : Prints f [] := by
  induction f with
  | nil => exact prints_nil
  | cons p f ih =>
      obtain ⟨hp, hf⟩ := List.forall_mem_cons.1 h
      exact (ih hf).silent_cons hp

theorem Prints.append_silence {f g : Fragment} {names : List Named} (h : Prints f names) (hg : ∀ p ∈ g, p.isSilent) :
    Prints (f ++ g) names := by
  simpa using h.append (prints_silence hg)

theorem prints_separated {α : Type} {separator : String} (hseparator : (Piece.words separator).isSilent)
    {f : α → Fragment} {names : α → List Named} {parts : List α} (h : ∀ a ∈ parts, Prints (f a) (names a)) :
    Prints (separated separator (parts.map f)) (parts.flatMap names) := by
  induction parts with
  | nil => exact prints_nil
  | cons a parts ih =>
      obtain ⟨ha, hrest⟩ := List.forall_mem_cons.1 h
      cases parts with
      | nil => simpa [separated] using ha
      | cons b parts => exact ha.append ((ih hrest).silent_cons hseparator)

theorem prints_flatMap {α : Type} {f : α → Fragment} {names : α → List Named} {parts : List α}
    (h : ∀ a ∈ parts, Prints (f a) (names a)) : Prints (parts.flatMap f) (parts.flatMap names) := by
  induction parts with
  | nil => exact prints_nil
  | cons a parts ih =>
      obtain ⟨ha, hrest⟩ := List.forall_mem_cons.1 h
      exact ha.append (ih hrest)

/-! ### References -/

section

variable {p : Piece} {part : String} {g : Fragment}

/-- A name that no dot continues. -/
theorem named_part (isTable : Bool) (hp : p.part? = some part) (hg : Undotted g) :
    named isTable (p :: g) = ⟨isTable, [part]⟩ :: named false g := by
  simp only [named, hp]
  exact if_neg (by rw [hg]; exact Bool.false_ne_true)

/-- A name that a dot continues; behind the dot it is as before the name. -/
theorem named_part_dot (isTable : Bool) (hp : p.part? = some part) :
    named isTable (p :: .words "." :: g) = Named.joined isTable part (named isTable g) := by
  simp only [named, hp]
  rfl

theorem part?_piece (part : String) : (if part = "*" then Piece.words part else .name part).part? = some part := by
  by_cases hstar : part = "*"
  · rw [if_pos hstar, Piece.part?, if_pos hstar]
  · rw [if_neg hstar]
    rfl

theorem isDot_eq_false (hp : p.part? = some part) : p.isDot = false := by
  cases p with
  | words s =>
      refine decide_eq_false ?_
      rintro rfl
      cases hp
  | _ => rfl

end

/-- The pieces of a reference, one for each part, with dots between them. -/
theorem reference_eq (ref : String) : reference ref =
    separated "." ((Text.splitDots ref).map fun part => [if part = "*" then Piece.words part else .name part]) := by
  refine congrArg _ (List.map_congr_left fun part _ => ?_)
  split <;> rfl

theorem undotted_reference (ref : String) : Undotted (reference ref) := by
  obtain ⟨part, rest, hparts⟩ := List.exists_cons_of_ne_nil (Text.splitDots_ne_nil ref)
  have hpart := isDot_eq_false (part?_piece part)
  rw [reference_eq, hparts]
  cases rest <;> exact hpart

/-- The names of a reference are read as one, a table's where it is announced. -/
theorem named_reference (isTable : Bool) (ref : String) {g : Fragment} (hg : Undotted g) :
    named isTable (reference ref ++ g) = ⟨isTable, Text.splitDots ref⟩ :: named false g := by
  rw [reference_eq]
  generalize hparts : Text.splitDots ref = parts
  have hne : parts ≠ [] := hparts ▸ Text.splitDots_ne_nil ref
  clear hparts
  induction parts with
  | nil => exact absurd rfl hne
  | cons part rest ih =>
      cases rest with
      | nil => exact named_part isTable (part?_piece part) hg
      | cons next rest =>
          have hrest := ih (List.cons_ne_nil next rest)
          calc named isTable (_ :: .words "." :: (separated "." _ ++ g))
              = Named.joined isTable part (named isTable _) := named_part_dot isTable (part?_piece part)
            _ = ⟨isTable, part :: next :: rest⟩ :: named false g := by rw [hrest]; rfl

theorem prints_reference (ref : String) : Prints (reference ref) [Named.column ref] :=
  ⟨undotted_reference ref, fun _ hg => named_reference false ref hg⟩

/-- A table behind the words that announce it. -/
theorem prints_table {p : Piece} (hp : p.part? = none) (hdot : p.isDot = false) (hannounces : p.announces)
    (name : String) : Prints (p :: reference name) [Named.table name] := by
  refine ⟨hdot, fun g hg => ?_⟩
  rw [List.cons_append, named, hp]
  simp only [hdot, hannounces, Bool.false_eq_true, ↓reduceIte]
  exact named_reference true name hg

theorem prints_part {p : Piece} {part : String} (hp : p.part? = some part) : Prints [p] [⟨false, [part]⟩] :=
  ⟨isDot_eq_false hp, fun _ hg => named_part false hp hg⟩

end Fragment

/-! ### Conditions -/

namespace Condition

variable {subject : Fragment} {names : List Named}

theorem prints_compare (h : Prints subject names) (op : Operator) (value : Value) :
    Prints (compare subject op value).fragment names := by
  have hop : (Piece.words (" " ++ op.spelling ++ " ")).isSilent := by cases op <;> decide
  exact h.append_silence (List.forall_mem_cons.2 ⟨hop, List.forall_mem_singleton.2 rfl⟩)

theorem prints_isNull (h : Prints subject names) (negated : Bool) : Prints (isNull subject negated).fragment names := by
  cases negated <;> exact h.append_silence (List.forall_mem_singleton.2 (by decide))

theorem prints_ofComparison (h : Prints subject names) (op : Operator) (value : Value) :
    Prints (ofComparison subject op value).fragment names := by
  unfold ofComparison
  split
  · exact prints_isNull h _
  · exact prints_compare h op _

theorem prints_bindList (values : List Value) : Prints (bindList values) [] := by
  have hvalues : ∀ value ∈ values, Prints [Piece.bind value] [] := fun value _ => prints_silent rfl
  have hlist : Prints (bindList values) (values.flatMap fun _ => []) := prints_separated (by decide) hvalues
  rwa [List.flatMap_eq_nil_iff.2 fun _ _ => rfl] at hlist

theorem prints_isIn (h : Prints subject names) (values : List Value) (negated : Bool) :
    Prints (isIn subject values negated).fragment names := by
  have hclosing : Prints (words ")") [] := prints_silent (by decide)
  have hlist : Prints (.words (if negated then " NOT IN (" else " IN (") :: bindList values ++ words ")") [] := by
    refine Prints.silent_cons ?_ ((prints_bindList values).append hclosing)
    cases negated <;> decide
  have hall := h.append hlist
  rw [List.append_nil] at hall
  simpa [fragment] using hall

theorem prints_between (h : Prints subject names) (low high : Value) (negated : Bool) :
    Prints (between subject low high negated).fragment names := by
  have hbounds : ∀ p ∈ [Piece.bind low, .words " AND ", .bind high], p.isSilent := by
    refine List.forall_mem_cons.2 ⟨rfl, List.forall_mem_cons.2 ⟨by decide, List.forall_mem_singleton.2 rfl⟩⟩
  cases negated <;> exact h.append_silence (List.forall_mem_cons.2 ⟨by decide, hbounds⟩)

theorem prints_constant (truth : Bool) : Prints (constant truth).fragment [] := by
  cases truth <;> exact prints_silent (by decide)

end Condition

/-- A chain whose members print names, one after the other. -/
inductive Chain.Prints : Chain → List Named → Prop where
  | nil : Chain.Prints [] []
  | cons {connective : Connective} {condition : Condition} {rest : Chain} {a b : List Named} :
    condition.fragment.Prints a → Chain.Prints rest b → Chain.Prints ((connective, condition) :: rest) (a ++ b)

namespace Chain.Prints

variable {chain rest : Chain} {a b names : List Named}

theorem singleton {connective : Connective} {condition : Condition} (h : condition.fragment.Prints names) :
    Chain.Prints [(connective, condition)] names := by
  have hone : Chain.Prints [(connective, condition)] (names ++ []) := .cons h .nil
  rwa [List.append_nil] at hone

theorem append (h : Chain.Prints chain a) (hrest : Chain.Prints rest b) : Chain.Prints (chain ++ rest) (a ++ b) := by
  induction h with
  | nil => exact hrest
  | cons hcondition _ ih =>
      rw [List.append_assoc]
      exact .cons hcondition ih

/-- Conditions all of which must hold. -/
theorem all {α : Type} {conditions : List Condition} {items : List α} {names : α → List Named}
    (h : List.Forall₂ (fun item condition => condition.fragment.Prints (names item)) items conditions) :
    Chain.Prints (Chain.all conditions) (items.flatMap names) := by
  induction h with
  | nil => exact .nil
  | cons hfirst _ ih => exact .cons hfirst ih

theorem restFragment (h : Chain.Prints chain names) : (Condition.restFragment chain).Prints names := by
  induction h with
  | nil => exact prints_nil
  | @cons connective _ _ _ _ hcondition _ ih =>
      have hconnective : (Piece.words (" " ++ connective.spelling ++ " ")).isSilent := by cases connective <;> decide
      exact (hcondition.append ih).silent_cons hconnective

theorem fragment (h : Chain.Prints chain names) : (Chain.fragment chain).Prints names := by
  cases h with
  | nil => exact prints_nil
  | cons hcondition hrest => exact hcondition.append hrest.restFragment

theorem group (h : Chain.Prints chain names) : (Condition.group chain).fragment.Prints names := by
  have hclosing : ∀ p ∈ Fragment.words ")", p.isSilent := List.forall_mem_singleton.2 (by decide)
  exact (h.fragment.append_silence hclosing).silent_cons (by decide)

theorem whereClause (h : Chain.Prints chain names) : (Sql.whereClause chain).Prints names := by
  rw [Sql.whereClause]
  split
  case isTrue hempty =>
    rw [List.isEmpty_iff.1 hempty] at h
    cases h
    exact prints_nil
  case isFalse => exact h.fragment.silent_cons (by decide)

/-- Added conditions come first, and the caller's as they are or in parentheses. -/
theorem joinChains {added : List Condition} {own : Chain} (hadded : Chain.Prints (Chain.all added) a)
    (hown : Chain.Prints own b) : Chain.Prints (Compiler.joinChains added own) (a ++ b) := by
  match own, hown with
  | [], .nil =>
      rw [List.append_nil]
      exact hadded
  | [(connective, condition)], .cons hcondition .nil => exact hadded.append (.cons hcondition .nil)
  | first :: second :: rest, hown =>
      cases added with
      | nil =>
          cases hadded
          exact hown
      | cons _ _ => exact hadded.append (.singleton hown.group)

end Chain.Prints

/-! ### Clauses -/

/-- The names that an entry of a projection is written with. -/
def Projected.named : Projected → List Named
  | everything => [⟨false, ["*"]⟩]
  | expression _ => []
  | column ref => [.column ref]
  | aliased ref label => [.column ref, ⟨false, [label]⟩]

/-- The reference in an entry of a projection. -/
def Projected.references : Projected → List String
  | everything | expression _ => []
  | column ref | aliased ref _ => [ref]

/-- The names that a join is written with. -/
def Joined.named (j : Joined) : List Named := [.table j.table, .column j.left, .column j.right]

theorem Projected.tables_named (p : Projected) : p.named.filterMap Named.table? = [] := by
  cases p <;> rfl

theorem Projected.qualifiers_named (p : Projected) :
    p.named.filterMap Named.qualifier? = p.references.filterMap fun ref => (Named.column ref).qualifier? := by
  cases p <;> rfl

theorem Projected.prints (p : Projected) : p.fragment.Prints p.named := by
  cases p with
  | everything => exact prints_part rfl
  | expression text => exact prints_silent rfl
  | column ref => exact prints_reference ref
  | aliased ref label => exact (prints_reference ref).append ((prints_part rfl).silent_cons (by decide))

theorem Joined.prints (j : Joined) : j.fragment.Prints j.named := by
  have hop : (Piece.words (" " ++ j.op.spelling ++ " ")).isSilent := by cases j.op <;> decide
  have htable : Prints (.words (" " ++ j.kind.spelling ++ " JOIN ") :: reference j.table) [.table j.table] := by
    cases j.kind <;> exact prints_table (by decide) (by decide) (by decide) j.table
  have hleft := (prints_reference j.left).silent_cons (p := .words " ON ") (by decide)
  have hright := (prints_reference j.right).silent_cons hop
  exact (htable.append hleft).append hright

namespace Selection

variable {s : Selection} {names : List Named}

theorem prints_optional {α : Type} {keyword : String} (hkeyword : (Piece.words (" " ++ keyword ++ " ")).isSilent)
    {f : α → Fragment} {names : α → List Named} {parts : List α} (h : ∀ a ∈ parts, (f a).Prints (names a)) :
    (optional keyword (parts.map f)).Prints (parts.flatMap names) := by
  rw [optional]
  split
  case isTrue hempty =>
    rw [List.isEmpty_iff, List.map_eq_nil_iff] at hempty
    subst hempty
    exact prints_nil
  case isFalse => exact (prints_separated (by decide) h).silent_cons hkeyword

theorem prints_having (clauses : List Having) :
    Prints (if clauses.isEmpty then [] else .words " HAVING " :: Having.chain clauses) [] := by
  split
  · exact prints_nil
  · have hclause : ∀ clause ∈ clauses, (Having.fragment clause).Prints [] := by
      intro clause _
      have hop : (Piece.words (" " ++ clause.op.spelling ++ " ")).isSilent := by cases clause.op <;> decide
      exact (((prints_silent rfl).silent_cons hop).silent_cons rfl)
    have hchain : (Having.chain clauses).Prints (clauses.flatMap fun _ => []) := prints_separated (by decide) hclause
    rw [List.flatMap_eq_nil_iff.2 fun _ _ => rfl] at hchain
    exact hchain.silent_cons (by decide)

/-- The window of a selection names nothing. -/
theorem named_windowClause (d : Dialect) (s : Selection) :
    Undotted (s.windowClause d) ∧ (s.windowClause d).named false = [] := by
  unfold windowClause
  dsimp only
  split
  · exact ⟨rfl, rfl⟩
  · generalize s.window.clause d (!s.orderBy.isEmpty) = clause
    have hne : ∀ c : Char, c ≠ ' ' → " " ++ clause ≠ String.ofList [c] := by
      intro c hc heq
      have hhead := congrArg (fun text : String => text.toList.head?) heq
      simp only [String.toList_append, String.toList_ofList] at hhead
      exact hc (Option.some.inj hhead).symm
    refine ⟨decide_eq_false (hne '.' (by decide)), ?_⟩
    have hstar : ¬" " ++ clause = "*" := hne '*' (by decide)
    simp [named, Fragment.words, Piece.part?, hstar]

/-- The names of a selection are those of its clauses, in the order of these. -/
theorem named_fragment (d : Dialect) (hcondition : Chain.Prints s.condition names) :
    (s.fragment d).named false = s.projection.flatMap Projected.named ++ [.table s.table] ++
      s.joins.flatMap Joined.named ++ names ++ s.groupBy.map Named.column ++
        s.orderBy.map (Named.column ·.1) := by
  have hprojection : Prints (separated ", " (s.projection.map Projected.fragment))
      (s.projection.flatMap Projected.named) := prints_separated (by decide) fun p _ => p.prints
  have htable : Prints (.words " FROM " :: reference s.table) [.table s.table] :=
    prints_table (by decide) (by decide) (by decide) s.table
  have hjoins : Prints (s.joins.flatMap Joined.fragment) (s.joins.flatMap Joined.named) :=
    prints_flatMap fun j _ => j.prints
  have hgroups : Prints (optional "GROUP BY" (s.groupBy.map reference)) (s.groupBy.flatMap fun ref => [.column ref]) :=
    prints_optional (by decide) fun ref _ => prints_reference ref
  have horders : Prints (optional "ORDER BY" (s.orderBy.map fun term =>
      reference term.1 ++ Fragment.words (" " ++ term.2.spelling)))
        (s.orderBy.flatMap fun term => [.column term.1]) := by
    refine prints_optional (by decide) fun term _ => (prints_reference term.1).append_silence ?_
    cases term.2 <;> exact List.forall_mem_singleton.2 (by decide)
  have hfront := ((hprojection.silent_cons (p := .words "SELECT ") (by decide)).append htable).append hjoins
  have hgrouped := ((hfront.append hcondition.whereClause).append hgroups).append (prints_having s.having)
  have hall := hgrouped.append horders
  obtain ⟨hundotted, hwindow⟩ := named_windowClause d s
  have hnames := hall.2 _ hundotted
  rw [hwindow, List.append_nil, List.append_nil, ← List.map_eq_flatMap, ← List.map_eq_flatMap] at hnames
  exact hnames

variable {refs : List String}

/-- A selection names the table it is of and the joined ones, in this order. -/
theorem tables_fragment (d : Dialect) (hcondition : Chain.Prints s.condition (refs.map Named.column)) :
    (s.fragment d).tables = (s.table :: s.joins.map Joined.table).map Text.splitDots := by
  have hcolumn : ∀ {α : Type} (f : α → String) (items : List α),
      (items.map fun a => Named.column (f a)).filterMap Named.table? = [] := by
    intro α f items
    rw [List.filterMap_map]
    exact List.filterMap_eq_nil_iff.2 fun _ _ => rfl
  have hprojection : (s.projection.flatMap Projected.named).filterMap Named.table? = [] := by
    rw [List.filterMap_flatMap]
    exact List.flatMap_eq_nil_iff.2 fun p _ => p.tables_named
  have hjoins : (s.joins.flatMap Joined.named).filterMap Named.table? =
      s.joins.map fun j => Text.splitDots j.table := by
    rw [List.filterMap_flatMap, List.map_eq_flatMap]
    rfl
  rw [Fragment.tables, named_fragment d hcondition]
  simp only [List.filterMap_append, hprojection, hjoins, hcolumn, List.nil_append, List.append_nil, List.map_cons,
    List.map_map]
  rfl

/-- A selection writes the references of its clauses, and those of its condition among them. -/
theorem qualifiers_fragment (d : Dialect) (hcondition : Chain.Prints s.condition (refs.map Named.column)) :
    (s.fragment d).qualifiers = (s.projection.flatMap Projected.references ++
      (s.joins.flatMap fun j => [j.left, j.right]) ++ refs ++ s.groupBy ++ s.orderBy.map Prod.fst).filterMap
        fun ref => (Named.column ref).qualifier? := by
  have hprojection : (s.projection.flatMap Projected.named).filterMap Named.qualifier? =
      (s.projection.flatMap Projected.references).filterMap fun ref => (Named.column ref).qualifier? := by
    rw [List.filterMap_flatMap, List.filterMap_flatMap]
    exact congrArg (List.flatMap · s.projection) (funext Projected.qualifiers_named)
  have hjoins : (s.joins.flatMap Joined.named).filterMap Named.qualifier? =
      (s.joins.flatMap fun j => [j.left, j.right]).filterMap fun ref => (Named.column ref).qualifier? := by
    rw [List.filterMap_flatMap, List.filterMap_flatMap]
    rfl
  have htable : [Named.table s.table].filterMap Named.qualifier? = [] := rfl
  rw [Fragment.qualifiers, named_fragment d hcondition]
  simp only [List.filterMap_append, List.filterMap_map, hprojection, hjoins, htable, List.append_nil]
  rfl

end Selection

end Sql

end Polyquery
