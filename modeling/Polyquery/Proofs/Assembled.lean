import Polyquery.Proofs.Composition
import Polyquery.Proofs.Made

/-! How statements are put together: of words that mean nothing to a scan, of names, values and checked paths, and of texts of
the caller's, with a border behind each of them. Main statement: a property of fragments that is kept there holds of every
compiled statement whose texts of the caller's it admits. -/

namespace Polyquery

open Sql Fragment

namespace Sql

variable {d : Dialect}

/-! ### Numbers -/

theorem Scan.tame_append {a b : String} (ha : Scan.Tame a.toList) (hb : Scan.Tame b.toList) :
    Scan.Tame (a ++ b).toList := by
  rw [String.toList_append]
  exact List.forall_mem_append.2 ⟨ha, hb⟩

theorem Scan.isTame_of_isDigit {c : Char} (h : c.isDigit) : Scan.isTame c := by
  by_contra hc
  have hmem : c ∈ ['"', '\x60', '[', '\'', '?', '%'] := by
    rw [Scan.isTame, Bool.not_eq_true', Bool.not_eq_false, List.contains_iff_mem] at hc
    exact hc
  have hnone : ['"', '\x60', '[', '\'', '?', '%'].all fun c => !c.isDigit := by decide
  simpa [h] using List.all_eq_true.1 hnone c hmem

theorem Scan.tame_repr (n : Nat) : Scan.Tame n.repr.toList := by
  intro c hc
  rw [Nat.toList_repr] at hc
  exact Scan.isTame_of_isDigit (Nat.isDigit_of_mem_toDigits (by decide) (by decide) hc)

theorem Scan.tame_toString (n : Int) : Scan.Tame (toString n).toList := by
  cases n with
  | ofNat n => exact Scan.tame_repr n
  | negSucc n => exact Scan.tame_append (a := "-") (by decide) (Scan.tame_repr (n + 1))

/-! ### Windows -/

theorem Scan.tame_joined {texts : List String} (h : ∀ s ∈ texts, Scan.Tame s.toList) :
    Scan.Tame (Text.joined " " texts).toList := by
  induction texts with
  | nil => exact fun c hc => absurd hc (by simp [Text.joined])
  | cons s texts ih =>
      obtain ⟨hs, hrest⟩ := List.forall_mem_cons.1 h
      cases texts with
      | nil => simpa [Text.joined] using hs
      | cons next texts =>
          have hspace : Scan.Tame " ".toList := by decide
          have hjoined : Text.joined " " (s :: next :: texts) = s ++ " " ++ Text.joined " " (next :: texts) := by
            simp [Text.joined]
          rw [hjoined]
          exact Scan.tame_append (Scan.tame_append hs hspace) (ih hrest)

/-- A number between two texts. -/
theorem Scan.tame_around {front back : String} (hfront : Scan.Tame front.toList) (hback : Scan.Tame back.toList) (n : Int) :
    Scan.Tame (front ++ toString n ++ back).toList :=
  Scan.tame_append (Scan.tame_append hfront (Scan.tame_toString n)) hback

/-- What is written of a bound, where there is one. -/
theorem forall_map_toList {Q : String → Prop} {written : Int → String} (h : ∀ n, Q (written n)) (bound : Option Int) :
    ∀ s ∈ (bound.map written).toList, Q s := by
  intro s hs
  obtain ⟨n, -, rfl⟩ := Option.map_eq_some_iff.1 (Option.mem_toList.1 hs)
  exact h n

/-- What holds of everything that a window is written with holds of its parts. -/
theorem Window.forall_parts {Q : String → Prop} (hlimit : ∀ n : Int, Q ("LIMIT " ++ toString n)) (hall : Q "LIMIT -1")
    (hoffset : ∀ n : Int, Q ("OFFSET " ++ toString n)) (hrows : ∀ n : Int, Q ("OFFSET " ++ toString n ++ " ROWS"))
    (hnext : ∀ n : Int, Q ("FETCH NEXT " ++ toString n ++ " ROWS ONLY"))
    (hfirst : ∀ n : Int, Q ("FETCH FIRST " ++ toString n ++ " ROWS ONLY")) {ordered : Bool}
    (hunordered : ordered = false → Q "ORDER BY (SELECT NULL)") (w : Window) : ∀ s ∈ w.parts d ordered, Q s := by
  have hpair : ∀ {s s' : String}, Q s → Q s' → ∀ t ∈ [s, s'], Q t := fun hs hs' =>
    List.forall_mem_cons.2 ⟨hs, List.forall_mem_singleton.2 hs'⟩
  obtain ⟨limit, offset⟩ := w
  cases d with
  | sqlite =>
      match limit, offset with
      | none, none => exact List.forall_mem_nil _
      | none, some o => exact hpair hall (hoffset o)
      | some l, none => exact List.forall_mem_singleton.2 (hlimit l)
      | some l, some o => exact hpair (hlimit l) (hoffset o)
  | mysql =>
      match limit, offset with
      | none, none => exact List.forall_mem_nil _
      | none, some o => exact hpair (hlimit mysqlEverything) (hoffset o)
      | some l, none => exact List.forall_mem_singleton.2 (hlimit l)
      | some l, some o => exact hpair (hlimit l) (hoffset o)
  | postgres => exact List.forall_mem_append.2 ⟨forall_map_toList hlimit limit, forall_map_toList hoffset offset⟩
  | sqlserver =>
      rw [Window.parts]
      split
      case isTrue => exact List.forall_mem_nil _
      case isFalse =>
        refine List.forall_mem_append.2 ⟨List.forall_mem_append.2 ⟨?_, List.forall_mem_singleton.2 (hrows _)⟩,
          forall_map_toList hnext limit⟩
        cases ordered with
        | true => exact List.forall_mem_nil _
        | false => exact List.forall_mem_singleton.2 (hunordered rfl)
  | ansi => exact List.forall_mem_append.2 ⟨forall_map_toList hrows offset, forall_map_toList hfirst limit⟩

theorem Window.tame_parts (w : Window) (ordered : Bool) : ∀ s ∈ w.parts d ordered, Scan.Tame s.toList := by
  have hcount : ∀ {keyword : String}, Scan.Tame keyword.toList → ∀ n : Int, Scan.Tame (keyword ++ toString n).toList :=
    fun hkeyword n => Scan.tame_append hkeyword (Scan.tame_toString n)
  exact w.forall_parts (hcount (by decide)) (by decide) (hcount (by decide)) (Scan.tame_around (by decide) (by decide))
    (Scan.tame_around (by decide) (by decide)) (Scan.tame_around (by decide) (by decide)) fun _ => by decide

/-! ### Borders -/

theorem bordered_whereClause (chain : Chain) : Bordered (whereClause chain) := by
  rw [whereClause]
  split
  · trivial
  · exact bordered_words (by decide)

theorem Joined.bordered (j : Joined) : Bordered j.fragment := by
  have hkind : Bordered [Piece.words (" " ++ j.kind.spelling ++ " JOIN ")] := by
    cases j.kind <;> exact ⟨by decide, by decide⟩
  exact hkind

theorem Joined.bordered_flatMap (joins : List Joined) : Bordered (joins.flatMap Joined.fragment) := by
  induction joins with
  | nil => trivial
  | cons j joins ih => exact j.bordered.append ih

theorem Having.bordered_clause (clauses : List Having) :
    Bordered (if clauses.isEmpty then [] else Piece.words " HAVING " :: Having.chain clauses) := by
  split
  · trivial
  · exact bordered_words (by decide)

theorem Selection.bordered_optional {keyword : String} (parts : List Fragment)
    (hborder : (" " ++ keyword ++ " ").toList ≠ [] ∧ Scan.Bordered (" " ++ keyword ++ " ").toList) :
    Bordered (optional keyword parts) := by
  rw [optional]
  split
  · trivial
  · exact hborder

theorem Selection.bordered_windowClause (s : Selection) : Bordered (s.windowClause d) := by
  unfold Selection.windowClause
  dsimp only
  split
  · trivial
  · rw [words]
    exact ⟨by simp, by simp [String.toList_append, Scan.Bordered, Scan.separators]⟩

end Sql

/-- A property of fragments that is kept where statements are put together. -/
structure Assembled (d : Dialect) (R : Fragment → Prop) : Prop where
  nil : R []
  append : ∀ {f g : Fragment}, R f → R g → Bordered g → R (f ++ g)
  words : ∀ {s : String} {f : Fragment}, Scan.Tame s.toList → R f → R (.words s :: f)
  name : ∀ (s : String) {f : Fragment}, Bordered f → R f → R (.name s :: f)
  bind : ∀ (value : Value) {f : Fragment}, R f → R (.bind value :: f)
  path : ∀ {segments path : List String} {f : Fragment}, JsonPath.validate segments = .ok path → Bordered f → R f →
    R (.literal (JsonPath.written d path) :: f)

/-- Whether a property is kept where a text of the caller's is written as it is. -/
def Admits (R : Fragment → Prop) (text : String) : Prop := ∀ f : Fragment, Bordered f → R f → R (.expression text :: f)

namespace Assembled

variable {d : Dialect} {R : Fragment → Prop}

/-! ### Lists -/

theorem separated (A : Assembled d R) {separator : String} (htame : Scan.Tame separator.toList)
    (hborder : separator.toList ≠ [] ∧ Scan.Bordered separator.toList) {parts : List Fragment} (h : ∀ f ∈ parts, R f) :
    R (separated separator parts) := by
  fun_induction Fragment.separated separator parts with
  | case1 => exact A.nil
  | case2 f => exact h f List.mem_cons_self
  | case3 f rest hne ih =>
      have hrest := ih fun g hg => h g (List.mem_cons_of_mem _ hg)
      exact A.append (h f List.mem_cons_self) (A.words htame hrest) hborder

theorem commas (A : Assembled d R) {parts : List Fragment} (h : ∀ f ∈ parts, R f) : R (Fragment.separated ", " parts) :=
  A.separated (by decide) (by decide) h

theorem reference (A : Assembled d R) (ref : String) : R (reference ref) := by
  refine A.separated (by decide) (by decide) (List.forall_mem_map.2 fun part _ => ?_)
  split
  · exact A.words (by subst part; decide) A.nil
  · exact A.name part trivial A.nil

theorem nameList (A : Assembled d R) (names : List String) : R (nameList names) :=
  A.commas (List.forall_mem_map.2 fun name _ => A.name name trivial A.nil)

theorem bindList (A : Assembled d R) (values : List Value) : R (bindList values) :=
  A.commas (List.forall_mem_map.2 fun value _ => A.bind value A.nil)

/-! ### Documents -/

/-- A path between a document and the rest of a call. -/
theorem argument (A : Assembled d R) {segments path : List String} {f : Fragment}
    (hpath : JsonPath.validate segments = .ok path) (hborder : Bordered f) (hf : R f) :
    R (.words ", " :: .literal (JsonPath.written d path) :: f) :=
  A.words (by decide) (A.path hpath hborder hf)

theorem jsonExtract (A : Assembled d R) {column f : Fragment} {segments : List String} (hcolumn : R column)
    (h : jsonExtract d column (JsonPath.validate segments) = .ok f) : R f := by
  cases d with
  | ansi => cases h
  | postgres =>
      obtain ⟨path, hpath, hf⟩ := bind_eq_ok.1 h
      cases pure_eq_ok.1 hf
      exact A.append hcolumn (A.words (by decide) (A.path hpath trivial A.nil)) (bordered_words (by decide))
  | sqlite | mysql | sqlserver =>
      obtain ⟨path, hpath, hf⟩ := bind_eq_ok.1 h
      cases pure_eq_ok.1 hf
      refine A.words (by decide) (A.append hcolumn ?_ (bordered_words (by decide)))
      exact A.argument hpath (bordered_words (by decide)) (A.words (by decide) A.nil)

theorem jsonSet (A : Assembled d R) {target f : Fragment} {segments : List String} {value : Value} (htarget : R target)
    (h : jsonSet d target (JsonPath.validate segments) [.bind value] = .ok f) : R f := by
  cases d with
  | ansi => cases h
  | postgres =>
      obtain ⟨path, hpath, hf⟩ := bind_eq_ok.1 h
      cases pure_eq_ok.1 hf
      have hvalue := A.bind value (A.words (s := " AS jsonb))") (by decide) A.nil)
      have hend := A.words (s := " AS jsonb), ") (by decide)
        (A.path hpath (bordered_words (by decide)) (A.words (s := ", CAST(") (by decide) hvalue))
      rw [List.append_assoc, List.append_assoc]
      exact A.words (by decide) (A.append htarget hend (bordered_words (by decide)))
  | sqlite | mysql | sqlserver =>
      obtain ⟨path, hpath, hf⟩ := bind_eq_ok.1 h
      cases pure_eq_ok.1 hf
      rw [List.append_assoc, List.append_assoc]
      refine A.words (by decide) (A.append htarget ?_ (bordered_words (by decide)))
      exact A.argument hpath (bordered_words (by decide))
        (A.words (by decide) (A.bind value (A.words (by decide) A.nil)))

theorem document (A : Assembled d R) {f : Fragment} (h : Document d f) : R f := by
  induction h with
  | column name => exact A.name name trivial A.nil
  | set inner h ih => exact A.jsonSet ih h

/-! ### Clauses -/

theorem composed (A : Assembled d R) : Composed d R where
  nil := A.nil
  append := A.append
  opening {s f} hs hf := by
    have htame : ∀ s ∈ Composed.openings, Scan.Tame s.toList := by decide
    exact A.words (htame s hs) hf
  closing {s} hs := by
    have htame : ∀ s ∈ Composed.closings, Scan.Tame s.toList := by decide
    exact A.words (htame s hs) A.nil
  bind := A.bind
  reference := A.reference
  path := A.jsonExtract (A.reference _)

theorem joined (A : Assembled d R) (j : Joined) : R j.fragment := by
  have hkind : Scan.Tame (" " ++ j.kind.spelling ++ " JOIN ").toList := by cases j.kind <;> decide
  have hop : Scan.Tame (" " ++ j.op.spelling ++ " ").toList := by cases j.op <;> decide
  have hmiddle : Bordered (Piece.words (" " ++ j.op.spelling ++ " ") :: Fragment.reference j.right) := by
    cases j.op <;> exact ⟨by decide, by decide⟩
  have hleft := A.append (A.reference j.left) (A.words hop (A.reference j.right)) hmiddle
  rw [Joined.fragment, List.append_assoc]
  exact A.words hkind (A.append (A.reference j.table) (A.words (by decide) hleft) (bordered_words (by decide)))

theorem joins (A : Assembled d R) (joins : List Joined) : R (joins.flatMap Joined.fragment) := by
  induction joins with
  | nil => exact A.nil
  | cons j joins ih => exact A.append (A.joined j) ih (Joined.bordered_flatMap joins)

theorem optional (A : Assembled d R) (keyword : String) (hkeyword : Scan.Tame (" " ++ keyword ++ " ").toList)
    {parts : List Fragment} (h : ∀ f ∈ parts, R f) : R (Selection.optional keyword parts) := by
  rw [Selection.optional]
  split
  · exact A.nil
  · exact A.words hkeyword (A.commas h)

theorem windowClause (A : Assembled d R) (s : Selection) : R (s.windowClause d) := by
  unfold Selection.windowClause
  dsimp only
  split
  · exact A.nil
  · have hclause : Scan.Tame (s.window.clause d (!s.orderBy.isEmpty)).toList := Scan.tame_joined (Window.tame_parts _ _)
    exact A.words (Scan.tame_append (by decide) hclause) A.nil

theorem projected (A : Assembled d R) {p : Projected} (h : ∀ text, p = .expression text → Admits R text) :
    R p.fragment := by
  cases p with
  | everything => exact A.words (by decide) A.nil
  | expression text => exact h text rfl [] trivial A.nil
  | column ref => exact A.reference ref
  | aliased ref label =>
      have hlabel := A.words (s := " AS ") (by decide) (A.name (f := []) label trivial A.nil)
      exact A.append (A.reference ref) hlabel (bordered_words (by decide))

theorem having (A : Assembled d R) {clauses : List Having} (h : ∀ clause ∈ clauses, Admits R clause.expression) :
    R (if clauses.isEmpty then [] else Piece.words " HAVING " :: Having.chain clauses) := by
  split
  · exact A.nil
  · refine A.words (by decide) (A.separated (by decide) (by decide) (List.forall_mem_map.2 fun clause hclause => ?_))
    have hop : Scan.Tame (" " ++ clause.op.spelling ++ " ").toList := by cases clause.op <;> decide
    refine h clause hclause _ ?_ (A.words hop (A.bind clause.value A.nil))
    cases clause.op <;> exact ⟨by decide, by decide⟩

theorem groups (A : Assembled d R) (refs : List String) :
    R (Selection.optional "GROUP BY" (refs.map Fragment.reference)) :=
  A.optional "GROUP BY" (by decide) (List.forall_mem_map.2 fun ref _ => A.reference ref)

theorem orders (A : Assembled d R) (terms : List (String × Direction)) : R (Selection.optional "ORDER BY"
    (terms.map fun term => Fragment.reference term.1 ++ Fragment.words (" " ++ term.2.spelling))) := by
  refine A.optional "ORDER BY" (by decide) (List.forall_mem_map.2 fun term _ => ?_)
  have hdirection : Scan.Tame (" " ++ term.2.spelling).toList := by cases term.2 <;> decide
  refine A.append (A.reference term.1) (A.words hdirection A.nil) ?_
  cases term.2 <;> exact ⟨by decide, by decide⟩

/-! ### Commands -/

theorem selection (A : Assembled d R) {s : Selection} (hwhere : R (whereClause s.condition))
    (hprojection : ∀ p ∈ s.projection, ∀ text, p = .expression text → Admits R text)
    (hhaving : ∀ clause ∈ s.having, Admits R clause.expression) : R (s.fragment d) := by
  have hcolumns := A.commas (List.forall_mem_map.2 fun p hp => A.projected (hprojection p hp))
  have hfront := A.append (A.words (s := "SELECT ") (by decide) hcolumns) (A.words (by decide) (A.reference s.table))
    (bordered_words (s := " FROM ") (by decide))
  have hfound := A.append (A.append hfront (A.joins s.joins) (Joined.bordered_flatMap _)) hwhere (bordered_whereClause _)
  have hgrouped := A.append (A.append hfound (A.groups s.groupBy) (Selection.bordered_optional _ (by decide)))
    (A.having hhaving) (Having.bordered_clause _)
  exact A.append (A.append hgrouped (A.orders s.orderBy) (Selection.bordered_optional _ (by decide))) (A.windowClause s)
    s.bordered_windowClause

theorem conflict (A : Assembled d R) (conflict : Conflict) : R (conflict.fragment d) := by
  have hassignment : ∀ column : String, R (Conflict.assignment d column) := by
    intro column
    have hname := A.name (f := []) column trivial A.nil
    cases d with
    | mysql =>
        have hvalue := A.name column (bordered_words (s := ")") (by decide)) (A.words (by decide) A.nil)
        exact A.name column (bordered_words (by decide)) (A.words (by decide) hvalue)
    | postgres | sqlite | sqlserver | ansi =>
        exact A.name column (bordered_words (by decide)) (A.words (by decide) hname)
  have hassignments := A.commas (List.forall_mem_map.2 fun column (_ : column ∈ conflict.update) => hassignment column)
  have hcolumns := A.append (A.nameList conflict.columns) (A.words (s := ") DO UPDATE SET ") (by decide) hassignments)
    (bordered_words (by decide))
  cases d with
  | mysql => exact A.words (by decide) hassignments
  | postgres | sqlite | sqlserver | ansi => exact A.words (by decide) hcolumns

theorem insertion (A : Assembled d R) (i : Insertion) : R (i.fragment d) := by
  have hrow : ∀ cells : List Value, R (.words "(" :: Fragment.bindList cells ++ Fragment.words ")") := fun cells =>
    A.words (by decide) (A.append (A.bindList cells) (A.words (by decide) A.nil) (bordered_words (by decide)))
  have hrows := A.commas (List.forall_mem_map.2 fun cells (_ : cells ∈ i.rows) => hrow cells)
  have hreturning : R (Insertion.returningFragment i.returning) :=
    A.words (by decide) (A.commas (List.forall_mem_map.2 fun ref _ => A.reference ref))
  have hfront := A.append (A.words (s := "INSERT INTO ") (by decide) (A.reference i.table))
    (A.words (s := " (") (by decide) (A.nameList i.columns)) (bordered_words (by decide))
  rw [Insertion.fragment]
  refine A.append (A.append (A.append hfront (A.words (by decide) hrows) (bordered_words (by decide))) ?_ ?_) ?_ ?_
  · split
    · exact A.nil
    · exact A.words (by decide) hreturning
  · split
    · trivial
    · exact bordered_words (by decide)
  · split
    · exact A.words (by decide) (A.conflict _)
    · exact A.nil
  · split
    · exact bordered_words (by decide)
    · trivial

theorem change (A : Assembled d R) {change : Change} (hwhere : R (whereClause change.condition))
    (hassigned : ∀ entry ∈ change.assignments, ∀ f, entry.2 = .expression f → R f) : R change.fragment := by
  have hassignment : ∀ entry ∈ change.assignments, R (Change.assignment entry) := by
    rintro ⟨column, assigned⟩ hmem
    cases assigned with
    | value value => exact A.name column (bordered_words (by decide)) (A.words (by decide) (A.bind value A.nil))
    | expression f => exact A.name column (bordered_words (by decide)) (A.words (by decide) (hassigned _ hmem f rfl))
  have hset := A.words (s := " SET ") (by decide) (A.commas (List.forall_mem_map.2 hassignment))
  have hfront := A.append (A.words (s := "UPDATE ") (by decide) (A.reference change.table)) hset (bordered_words (by decide))
  exact A.append hfront hwhere (bordered_whereClause _)

theorem removal (A : Assembled d R) {removal : Removal} (hwhere : R (whereClause removal.condition)) :
    R removal.fragment :=
  A.append (A.words (by decide) (A.reference removal.table)) hwhere (bordered_whereClause _)

end Assembled

/-! ### Requests -/

variable {c : Compiler} {R : Fragment → Prop}

/-- Whether a property is kept where the caller's own texts in a request are written: projection entries with a parenthesis,
and conditions on groups. -/
def Request.Admitted (R : Fragment → Prop) : Request → Prop
  | select q =>
    (∀ entry : String, .text entry ∈ q.columns → '(' ∈ entry.toList → Admits R entry) ∧
      ∀ clause ∈ q.having, Admits R clause.expression
  | _ => True

theorem expression_of_ofText {entry text : String} (h : Projected.ofText entry = .expression text) :
    text = entry ∧ '(' ∈ entry.toList := by
  rw [Projected.ofText] at h
  split at h
  case isTrue hparenthesis =>
    cases h
    exact ⟨rfl, List.contains_iff_mem.1 hparenthesis⟩
  case isFalse =>
    split at h <;> cases h

theorem expression_of_projection {columns : List Value} {projection : List Projected}
    (h : Compiler.projection columns = .ok projection) {text : String} (htext : .expression text ∈ projection) :
    .text text ∈ columns ∧ '(' ∈ text.toList := by
  rw [Compiler.projection] at h
  split at h
  case isTrue =>
    cases pure_eq_ok.1 h
    cases List.mem_singleton.1 htext
  case isFalse =>
    obtain ⟨v, hv, hentry⟩ := exists_of_mem_mapM h _ htext
    cases v with
    | text entry =>
        obtain ⟨rfl, hparenthesis⟩ := expression_of_ofText (Except.ok.inj hentry)
        exact ⟨hv, hparenthesis⟩
    | _ => cases hentry

namespace Assembled

theorem selects (A : Assembled c.dialect R) {q : Query} {s : Selection} (h : c.Selects q s)
    (hraw : (Request.select q).Admitted R) : R (s.fragment c.dialect) := by
  refine A.selection (A.composed.whereClause h.condition) ?_ ?_
  · rintro _ hp text rfl
    obtain ⟨hentry, hparenthesis⟩ := expression_of_projection h.projection hp
    exact hraw.1 text hentry hparenthesis
  · intro clause hclause
    obtain ⟨term, hterm, hok⟩ := exists_of_mem_mapM h.having clause hclause
    obtain ⟨op, -, hok⟩ := bind_eq_ok.1 hok
    cases pure_eq_ok.1 hok
    exact hraw.2 term hterm

theorem makes (A : Assembled c.dialect R) {r : Request} {command : Command} (h : c.Makes r command)
    (hraw : r.Admitted R) : R (command.fragment c.dialect) := by
  cases h with
  | selection h => exact A.selects h hraw
  | insertion _ insertion => exact A.insertion insertion
  | change r hcondition hassigned =>
      exact A.change (A.composed.whereClause hcondition) fun entry hmem f hf => A.document (hassigned entry hmem f hf)
  | removal r hcondition => exact A.removal (A.composed.whereClause hcondition)

/-- A property that is kept where statements are put together holds of the statement for a request. -/
theorem compile (A : Assembled c.dialect R) {r : Request} {s : Statement} (hraw : r.Admitted R)
    (h : c.compile r = .ok (some s)) : s.dialect = c.dialect ∧ R s.fragment := by
  obtain ⟨hdialect, hmade⟩ := made_of_compile h
  refine ⟨hdialect, ?_⟩
  rw [Statement.fragment, hdialect]
  exact A.makes hmade hraw

end Assembled

end Polyquery
