import Polyquery.Proofs.Pieces
import Polyquery.Proofs.Windows

/-! Pages of a query. The window clause of every dialect asks for the same rows, and where an offset stands only behind
an order, there is one order and the offset follows it. What the caller writes as it is may hold anything, so it is left
out of the text before the text is read. -/

namespace Polyquery

open Sql Fragment

namespace Sql

/-! ### Text without the caller's own -/

/-- A piece without the caller's own text. -/
def Piece.masked : Piece → Piece
  | .expression _ => .expression ""
  | p => p

/-- A fragment without the caller's own text. -/
def Fragment.masked (f : Fragment) : Fragment := f.map Piece.masked

def Projected.masked : Projected → Projected
  | .expression _ => .expression ""
  | p => p

def Having.masked (h : Having) : Having := { h with expression := "" }

/-- A selection without the caller's own text. -/
def Selection.masked (s : Selection) : Selection :=
  { s with projection := s.projection.map Projected.masked, having := s.having.map Having.masked }

theorem masked_append (f g : Fragment) : (f ++ g).masked = f.masked ++ g.masked := List.map_append

theorem masked_words_cons (s : String) (f : Fragment) : Fragment.masked (.words s :: f) = .words s :: f.masked := rfl

/-- What a compiler writes by itself is left as it is. -/
theorem masked_of_own {d : Dialect} {f : Fragment} (h : Own d f) : f.masked = f := by
  refine (List.map_congr_left fun p hp => ?_).trans (List.map_id f)
  cases h p hp <;> rfl

theorem masked_reference (ref : String) : (reference ref).masked = reference ref :=
  masked_of_own ((assembled_own .ansi).reference ref)

theorem params_masked (f : Fragment) : f.masked.params = f.params := by
  rw [Fragment.masked, params, params, List.filterMap_map]
  congr 1
  funext p
  cases p <;> rfl

theorem Projected.masked_fragment (p : Projected) : p.fragment.masked = p.masked.fragment := by
  cases p with
  | everything => rfl
  | expression text => rfl
  | column ref => exact masked_reference ref
  | aliased ref label =>
      rw [Projected.fragment, masked_append, masked_reference]
      rfl

/-- Left out of the parts of a selection, the caller's own text is left out of the whole. -/
theorem Selection.masked_fragment {d : Dialect} {s : Selection} (hwhere : Own d (whereClause s.condition)) :
    (s.fragment d).masked = s.masked.fragment d := by
  have hprojection : Fragment.masked (separated ", " (s.projection.map Projected.fragment)) =
      separated ", " (s.masked.projection.map Projected.fragment) := by
    rw [Selection.masked, List.map_map, Fragment.masked, map_separated rfl, List.map_map]
    exact congrArg _ (List.map_congr_left fun p _ => p.masked_fragment)
  have hhaving : Fragment.masked (if s.having.isEmpty then [] else .words " HAVING " :: Having.chain s.having) =
      if s.masked.having.isEmpty then [] else .words " HAVING " :: Having.chain s.masked.having := by
    cases hclauses : s.having with
    | nil => simp [Selection.masked, hclauses, Fragment.masked]
    | cons clause clauses =>
        rw [Selection.masked, hclauses]
        refine congrArg (Piece.words " HAVING " :: ·) ((map_separated rfl _).trans ?_)
        rw [Having.chain, List.map_map, List.map_map]
        rfl
  have A := assembled_own d
  rw [Selection.fragment, Selection.fragment]
  simp only [masked_append, masked_words_cons, hprojection, masked_reference, masked_of_own (A.joins s.joins),
    masked_of_own hwhere, masked_of_own (A.groups s.groupBy), hhaving, masked_of_own (A.windowClause s)]
  rw [masked_of_own (A.orders s.orderBy)]
  rfl

/-! ### Orders in a text -/

namespace Token

def isOrder : Token → Bool
  | word text => text = "ORDER".toList
  | _ => false

/-- Whether a token neither encloses nor begins an order. -/
def isFlat (t : Token) : Bool := !t.opens && !t.closes && !t.isOrder

/-- Whether a token begins what stands behind the rows of a query: its order, or its window. -/
def isTail : Token → Bool
  | word text => ["ORDER", "LIMIT", "OFFSET", "FETCH"].any fun keyword => text = keyword.toList
  | _ => false

/-- Whether a token neither encloses nor begins an order or a window. -/
def isInner (t : Token) : Bool := !t.opens && !t.closes && !t.isTail

/-- The tokens outside of parentheses, the outer parentheses themselves among them. -/
def outermost : Nat → List Token → List Token
  | _, [] => []
  | depth, t :: rest =>
    if t.opens then (if depth = 0 then [t] else []) ++ outermost (depth + 1) rest
    else if t.closes then (if depth ≤ 1 then [t] else []) ++ outermost (depth - 1) rest
    else (if depth = 0 then [t] else []) ++ outermost depth rest

theorem mem_of_mem_outermost {t : Token} {depth : Nat} {tokens : List Token} (h : t ∈ outermost depth tokens) :
    t ∈ tokens := by
  induction tokens generalizing depth with
  | nil => exact h
  | cons first rest ih =>
      have hstep : ∀ {kept : Prop} [Decidable kept] {depth : Nat},
          t ∈ (if kept then [first] else []) ++ outermost depth rest → t ∈ first :: rest := by
        intro kept _ depth h
        rcases List.mem_append.1 h with h | h
        · split at h
          · exact List.mem_cons.2 (.inl (List.mem_singleton.1 h))
          · cases h
        · exact List.mem_cons_of_mem _ (ih h)
      rw [outermost] at h
      split at h
      · exact hstep h
      · split at h
        · exact hstep h
        · exact hstep h

/-- Tokens that close their parentheses leave the depth as it was. -/
theorem outermost_append {tokens : List Token} {items : List Item} (h : Reading.Reads tokens items) (depth : Nat)
    (rest : List Token) : outermost depth (tokens ++ rest) = outermost depth tokens ++ outermost depth rest := by
  induction h generalizing depth rest with
  | nil => rfl
  | token hopens hcloses _ ih => simp [outermost, hopens, hcloses, ih]
  | @enclosed inside tokens _ _ _ _ hinside ih =>
      have hclose : ∀ rest, outermost (depth + 1) (Token.mark ')' :: rest) =
          (if depth + 1 ≤ 1 then [Token.mark ')'] else []) ++ outermost depth rest := fun _ => rfl
      have hopen : ∀ rest, outermost depth (Token.mark '(' :: rest) =
          (if depth = 0 then [Token.mark '('] else []) ++ outermost (depth + 1) rest := fun _ => rfl
      simp only [List.cons_append, List.append_assoc, hopen, hinside, hclose, ih]

theorem order_of_isFlat {t : Token} (h : t.isFlat) : t.isOrder = false := by
  simp only [isFlat, Bool.and_eq_true, Bool.not_eq_true'] at h
  exact h.2

theorem order_of_tail {t : Token} (h : t.isTail = false) : t.isOrder = false := by
  cases t with
  | word text =>
      rw [isTail, List.any_cons, Bool.or_eq_false_iff] at h
      exact h.1
  | _ => rfl

theorem flat_of_isInner {t : Token} (h : t.isInner) : t.isFlat := by
  simp only [isInner, Bool.and_eq_true, Bool.not_eq_true'] at h
  simp only [isFlat, h.1.1, h.1.2, order_of_tail h.2, Bool.not_false, Bool.and_true]

theorem outermost_of_isFlat {tokens : List Token} (h : ∀ t ∈ tokens, t.isFlat) : outermost 0 tokens = tokens := by
  induction tokens with
  | nil => rfl
  | cons t tokens ih =>
      obtain ⟨ht, hrest⟩ := List.forall_mem_cons.1 h
      simp only [isFlat, Bool.and_eq_true, Bool.not_eq_true'] at ht
      rw [outermost, ht.1.1, ht.1.2, ih hrest]
      rfl

/-- Tokens that close their parentheses and begin neither an order nor a window. -/
structure Untailed (tokens : List Token) : Prop where
  reads : ∃ items, Reading.Reads tokens items
  tail : ∀ t ∈ tokens, t.isTail = false

theorem Untailed.append {a b : List Token} (ha : Untailed a) (hb : Untailed b) : Untailed (a ++ b) := by
  obtain ⟨items, hitems⟩ := ha.reads
  obtain ⟨others, hothers⟩ := hb.reads
  exact ⟨⟨_, hitems.append hothers⟩, List.forall_mem_append.2 ⟨ha.tail, hb.tail⟩⟩

theorem untailed_of_isInner {tokens : List Token} (h : ∀ t ∈ tokens, t.isInner) : Untailed tokens := by
  induction tokens with
  | nil => exact ⟨⟨_, .nil⟩, nofun⟩
  | cons t tokens ih =>
      obtain ⟨ht, hrest⟩ := List.forall_mem_cons.1 h
      obtain ⟨⟨items, hitems⟩, htail⟩ := ih hrest
      simp only [isInner, Bool.and_eq_true, Bool.not_eq_true'] at ht
      exact ⟨⟨_, .token ht.1.1 ht.1.2 hitems⟩, List.forall_mem_cons.2 ⟨ht.2, htail⟩⟩

end Token

open Token

/-! ### Clauses in front of the order -/

variable {d : Dialect}

theorem ends_with_space (s : String) : ∃ c, (s ++ " ").toList.getLast? = some c ∧ isWordChar c = false :=
  ⟨' ', by simp [String.toList_append], by decide⟩

/-- Whether no token of a fragment encloses, or begins an order or a window. -/
def Fragment.Inner (d : Dialect) (f : Fragment) : Prop := ∀ t ∈ f.tokens d, t.isInner

theorem inner_reference (ref : String) : Inner d (reference ref) :=
  @forall_tokens_reference d (fun t => t.isInner) rfl rfl (fun _ => rfl) ref

theorem Fragment.Inner.append {f g : Fragment} (hf : Inner d f) (hg : Inner d g) (hborder : Bordered g) : Inner d (f ++ g) :=
  forall_tokens_append hf hg hborder

theorem Fragment.Inner.words_cons {s : String} {f : Fragment} (hf : Inner d f)
    (hs : ∃ c, s.toList.getLast? = some c ∧ isWordChar c = false) (hwords : ∀ t ∈ ofText s, t.isInner) :
    Inner d (.words s :: f) :=
  forall_tokens_words_cons hs hwords hf

theorem inner_commas {parts : List Fragment} (h : ∀ f ∈ parts, Inner d f) : Inner d (separated ", " parts) :=
  forall_tokens_commas rfl h

theorem Projected.inner_masked (p : Projected) : Inner d p.masked.fragment := by
  cases p with
  | everything =>
      rw [Fragment.Inner, show Projected.everything.masked.fragment = words "*" from rfl, tokens_words]
      decide
  | expression text => exact nofun
  | column ref => exact inner_reference ref
  | aliased ref label =>
      have hname : Inner d [.name label] := List.forall_mem_singleton.2 rfl
      exact (inner_reference ref).append (hname.words_cons ⟨' ', by decide⟩ (by decide)) (bordered_words (by decide))

theorem Joined.inner (j : Joined) : Inner d j.fragment := by
  have hkind : ∀ t ∈ ofText (" " ++ j.kind.spelling ++ " JOIN "), t.isInner := by cases j.kind <;> decide
  have hop : ∀ t ∈ ofText (" " ++ j.op.spelling ++ " "), t.isInner := by cases j.op <;> decide
  have hmiddle : Bordered (Piece.words (" " ++ j.op.spelling ++ " ") :: reference j.right) := by
    cases j.op <;> exact ⟨by decide, by decide⟩
  have hright := (inner_reference (d := d) j.right).words_cons (ends_with_space _) hop
  have hleft := ((inner_reference j.left).append hright hmiddle).words_cons (s := " ON ") ⟨' ', by decide⟩ (by decide)
  rw [Joined.fragment, List.append_assoc]
  exact ((inner_reference j.table).append hleft (bordered_words (by decide))).words_cons
    (by cases j.kind <;> exact ⟨' ', by decide⟩) hkind

theorem Joined.inner_flatMap (joins : List Joined) : Inner d (joins.flatMap Joined.fragment) := by
  induction joins with
  | nil => exact nofun
  | cons j joins ih =>
      rw [List.flatMap_cons]
      exact j.inner.append ih (Joined.bordered_flatMap joins)

theorem inner_nil (d : Dialect) : Inner d [] := fun _ ht => absurd ht List.not_mem_nil

theorem Selection.inner_groups (columns : List String) : Inner d (optional "GROUP BY" (columns.map reference)) := by
  rw [Selection.optional]
  split
  · exact inner_nil d
  · refine (inner_commas fun f hf => ?_).words_cons ⟨' ', by decide⟩ (by decide)
    obtain ⟨ref, -, rfl⟩ := List.mem_map.1 hf
    exact inner_reference ref

theorem Having.inner_clause (clauses : List Having) : Inner d (if (clauses.map Having.masked).isEmpty then []
    else .words " HAVING " :: Having.chain (clauses.map Having.masked)) := by
  split
  · exact inner_nil d
  · refine Inner.words_cons (forall_tokens_separated ?_ ⟨by decide, by decide⟩ ⟨' ', by decide⟩ (by decide))
      ⟨' ', by decide⟩ (by decide)
    intro f hf
    rw [List.map_map] at hf
    obtain ⟨clause, -, rfl⟩ := List.mem_map.1 hf
    have hop : ∀ t ∈ ofText (" " ++ clause.op.spelling ++ " "), t.isInner := by cases clause.op <;> decide
    have hvalue : Inner d [.bind clause.value] := List.forall_mem_singleton.2 rfl
    exact hvalue.words_cons (ends_with_space _) hop

theorem composed_untailed (d : Dialect) : Composed d fun f => ∀ t ∈ f.tokens d, t.isTail = false where
  nil := nofun
  append hf hg hborder := forall_tokens_append hf hg hborder
  opening {s f} hs hf := by
    have hlast : ∀ s ∈ Composed.openings, s.toList.getLast?.any fun c => !isWordChar c := by decide
    have hwords : ∀ s ∈ Composed.openings, ∀ t ∈ ofText s, t.isTail = false := by decide
    obtain ⟨c, hc, hmark⟩ := (Option.any_eq_true _ _).1 (hlast s hs)
    exact forall_tokens_words_cons ⟨c, hc, Bool.not_eq_true' _ ▸ hmark⟩ (hwords s hs) hf
  closing {s} hs := by
    have hwords : ∀ s ∈ Composed.closings, ∀ t ∈ ofText s, t.isTail = false := by decide
    rw [tokens_words]
    exact hwords s hs
  bind value _ hf := List.forall_mem_cons.2 ⟨rfl, hf⟩
  reference ref := @forall_tokens_reference d (fun t => t.isTail = false) rfl rfl (fun _ => rfl) ref
  path {ref segments f} h := by
    have hcolumn := @forall_tokens_reference d (fun t => t.isTail = false) rfl rfl (fun _ => rfl) ref
    have hliteral : ∀ (path : String) {g : Fragment}, (∀ t ∈ g.tokens d, t.isTail = false) →
        ∀ t ∈ tokens d (.literal path :: g), t.isTail = false := fun _ _ hg => List.forall_mem_cons.2 ⟨rfl, hg⟩
    have hcall : ∀ {opening closing : String} (path : String),
        (∃ c, opening.toList.getLast? = some c ∧ isWordChar c = false) → (∀ t ∈ ofText opening, t.isTail = false) →
        (∀ t ∈ ofText closing, t.isTail = false) → ∀ t ∈ tokens d (Piece.words opening :: reference ref ++
          [.words ", ", .literal path, .words closing]), t.isTail = false := by
      intro opening closing path hend hopening hclosing
      rw [← tokens_words d] at hclosing
      exact forall_tokens_words_cons hend hopening (forall_tokens_append hcolumn
        (forall_tokens_words_cons ⟨' ', by decide⟩ (by decide) (hliteral path hclosing)) (bordered_words (by decide)))
    cases d with
    | ansi => cases h
    | postgres =>
        obtain ⟨path, -, hf⟩ := bind_eq_ok.1 h
        cases pure_eq_ok.1 hf
        exact forall_tokens_append hcolumn
          (forall_tokens_words_cons ⟨' ', by decide⟩ (by decide) (hliteral _ nofun)) (bordered_words (by decide))
    | sqlite | sqlserver | mysql =>
        obtain ⟨path, -, hf⟩ := bind_eq_ok.1 h
        cases pure_eq_ok.1 hf
        exact hcall _ ⟨'(', by decide⟩ (by decide) (by decide)

/-! ### The parts of a query -/

namespace Selection

/-- A query up to its order. -/
def front (s : Selection) : Fragment :=
  .words "SELECT " :: separated ", " (s.projection.map Projected.fragment) ++
    .words " FROM " :: reference s.table ++
    s.joins.flatMap Joined.fragment ++
    whereClause s.condition ++
    optional "GROUP BY" (s.groupBy.map reference) ++
    (if s.having.isEmpty then [] else .words " HAVING " :: Having.chain s.having)

/-- A term of an order, as it is written. -/
def term (t : String × Direction) : Fragment := reference t.1 ++ words (" " ++ t.2.spelling)

/-- The terms of a query's order. -/
def terms (s : Selection) : List Fragment := s.orderBy.map term

theorem fragment_eq (s : Selection) : s.fragment d = s.front ++ optional "ORDER BY" s.terms ++ s.windowClause d := rfl

theorem tokens_term (d : Dialect) (t : String × Direction) :
    (term t).tokens d = (reference t.1).tokens d ++ ofText (" " ++ t.2.spelling) := by
  rw [term, tokens_append d _ (by cases t.2 <;> exact ⟨by decide, by decide⟩), tokens_words]

theorem inner_terms (d : Dialect) (terms : List (String × Direction)) : Inner d (separated ", " (terms.map term)) := by
  refine inner_commas (List.forall_mem_map.2 fun t _ => ?_)
  rw [Fragment.Inner, tokens_term]
  refine List.forall_mem_append.2 ⟨inner_reference t.1, ?_⟩
  cases t.2 <;> decide

/-- In front of the order, without the caller's own text, neither an order nor a window begins. -/
theorem untailed_front {s : Selection} (hwhere : Untailed ((whereClause s.condition).tokens d)) : Untailed (s.masked.front.tokens d) := by
  have hcolumns : Inner d (separated ", " (s.masked.projection.map Projected.fragment)) := by
    rw [Selection.masked, List.map_map]
    refine inner_commas fun f hf => ?_
    obtain ⟨p, -, rfl⟩ := List.mem_map.1 hf
    exact p.inner_masked
  have htable := (inner_reference (d := d) s.table).words_cons (s := " FROM ") ⟨' ', by decide⟩ (by decide)
  have hfront := (hcolumns.words_cons (s := "SELECT ") ⟨' ', by decide⟩ (by decide)).append htable
    (bordered_words (by decide))
  have hjoins := hfront.append (Joined.inner_flatMap s.joins) (Joined.bordered_flatMap s.joins)
  have hcondition := bordered_whereClause s.masked.condition
  have hgroups : Bordered (optional "GROUP BY" (s.masked.groupBy.map reference)) :=
    bordered_optional _ ⟨by decide, by decide⟩
  have hhaving := Having.bordered_clause s.masked.having
  rw [front, tokens_append d _ hhaving, tokens_append d _ hgroups, tokens_append d _ hcondition]
  exact (((untailed_of_isInner hjoins).append hwhere).append (untailed_of_isInner (inner_groups s.groupBy))).append
    (untailed_of_isInner (Having.inner_clause s.having))

end Selection

/-! ### The window behind the order -/

theorem flat_numeral (n : Nat) : (numeral n).isFlat := by
  have horder : Nat.toDigits 10 n ≠ "ORDER".toList := by
    intro heq
    have hdigit : 'O'.isDigit := isDigit_of_mem_toDigits (heq ▸ List.mem_cons_self : 'O' ∈ Nat.toDigits 10 n)
    exact absurd hdigit (by decide)
  have hname : (numeral n).isOrder = false := decide_eq_false horder
  rw [isFlat, hname]
  rfl

theorem flat_integer (n : Int) : ∀ t ∈ ofText (toString n), t.isFlat := by
  cases n with
  | ofNat n =>
      have hnumeral : ofText (toString (Int.ofNat n)) = [numeral n] := ofText_repr n
      rw [hnumeral]
      exact List.forall_mem_singleton.2 (flat_numeral n)
  | negSucc n =>
      have hsigned : ofText (toString (Int.negSucc n)) = Token.mark '-' :: [numeral (n + 1)] :=
        (ofText_append (a := "-") ⟨'-', by decide⟩).trans (congrArg _ (ofText_repr (n + 1)))
      rw [hsigned]
      exact List.forall_mem_cons.2 ⟨rfl, List.forall_mem_singleton.2 (flat_numeral (n + 1))⟩

/-- A number between words. -/
theorem flat_counted {keyword closing : String} (hkeyword : ∃ c, keyword.toList.getLast? = some c ∧ isWordChar c = false)
    (hclosing : closing.toList ≠ [] ∧ Scan.Bordered closing.toList) (hfirst : ∀ t ∈ ofText keyword, t.isFlat)
    (hlast : ∀ t ∈ ofText closing, t.isFlat) (n : Int) : ∀ t ∈ ofText (keyword ++ toString n ++ closing), t.isFlat := by
  rw [ofText_append_bordered hclosing, ofText_append hkeyword]
  exact List.forall_mem_append.2 ⟨List.forall_mem_append.2 ⟨hfirst, flat_integer n⟩, hlast⟩

/-- A bounded window begins with its offset, behind an order by nothing where there is no other. -/
theorem Window.parts_bounded {w : Window} (h : w.limit.isSome ∨ w.offset.isSome) (ordered : Bool) :
    ∃ rest, (w.parts .sqlserver ordered).flatMap ofText =
        (if ordered then [] else ofText "ORDER BY (SELECT NULL)") ++ .word "OFFSET".toList :: rest ∧
      ∀ t ∈ rest, t.isFlat := by
  have hbounded : (w.limit.isNone && w.offset.isNone) = false := by
    rw [Bool.and_eq_false_iff]
    rcases h with h | h
    · exact .inl (by rw [Option.isNone_eq_false_iff, h])
    · exact .inr (by rw [Option.isNone_eq_false_iff, h])
  have hoffset : ∃ rest, ofText ("OFFSET " ++ toString (w.offset.getD 0) ++ " ROWS") = .word "OFFSET".toList :: rest ∧
      ∀ t ∈ rest, t.isFlat := by
    refine ⟨ofText (toString (w.offset.getD 0)) ++ ofText " ROWS", ?_, ?_⟩
    · rw [ofText_append_bordered ⟨by decide, by decide⟩, ofText_append ⟨' ', by decide⟩]
      rfl
    · exact List.forall_mem_append.2 ⟨flat_integer _, by decide⟩
  have hfetch : ∀ t ∈ (w.limit.map fun l => "FETCH NEXT " ++ toString l ++ " ROWS ONLY").toList.flatMap ofText, t.isFlat := by
    cases w.limit with
    | none => exact nofun
    | some l =>
        simp only [Option.map_some, Option.toList_some, List.flatMap_singleton]
        exact flat_counted ⟨' ', by decide⟩ ⟨by decide, by decide⟩ (by decide) (by decide) l
  obtain ⟨rest, hrest, hflat⟩ := hoffset
  refine ⟨rest ++ (w.limit.map fun l => "FETCH NEXT " ++ toString l ++ " ROWS ONLY").toList.flatMap ofText, ?_,
    List.forall_mem_append.2 ⟨hflat, hfetch⟩⟩
  simp only [Window.parts, hbounded, Bool.false_eq_true, if_false, List.flatMap_append, List.flatMap_cons,
    List.flatMap_nil, hrest, List.append_assoc, List.cons_append]
  congr 1
  cases ordered <;> rfl

/-- What is written of a window has the tokens of its parts. -/
theorem Selection.tokens_windowClause (d : Dialect) (s : Selection) :
    (s.windowClause d).tokens d = (s.window.parts d (!s.orderBy.isEmpty)).flatMap ofText := by
  unfold Selection.windowClause
  rw [← ofText_joined, ← Window.clause]
  dsimp only
  split
  case isTrue hempty =>
    rw [hempty]
    rfl
  case isFalse =>
    rw [tokens_words, ofText_append ⟨' ', by decide⟩]
    rfl

end Sql

open Token

namespace QueryOf

variable {φ : Type} (q : QueryOf φ)

/-- The terms of a query's order, as they are written. -/
def orderTerms : List Fragment := q.orderBy.map fun term => reference term.column ++ words (" " ++ term.direction.spelling)

/-- What a query is ordered by, as tokens outside of parentheses; without a term it is a pair of parentheses. -/
def orderTokens : List Token :=
  if q.orderBy.isEmpty then [.mark '(', .mark ')'] else (separated ", " q.orderTerms).tokens .sqlserver

theorem orderTerms_eq : q.orderTerms = (q.orderBy.map fun term => (term.column, term.direction)).map Selection.term := by
  rw [List.map_map]
  rfl

theorem flat_orderTerms : ∀ t ∈ (separated ", " q.orderTerms).tokens .sqlserver, t.isFlat := by
  rw [orderTerms_eq]
  exact fun t ht => flat_of_isInner (Selection.inner_terms .sqlserver _ t ht)

theorem order_orderTokens : ∀ t ∈ q.orderTokens, t.isOrder = false := by
  rw [orderTokens]
  split
  · exact List.forall_mem_cons.2 ⟨rfl, List.forall_mem_singleton.2 rfl⟩
  · exact fun t ht => order_of_isFlat (q.flat_orderTerms t ht)

/-- An order in front of tokens, the query's own or one by nothing. -/
theorem outermost_order {rest : List Token} (hrest : ∀ t ∈ rest, t.isFlat) :
    outermost 0 ((Selection.optional "ORDER BY" q.orderTerms).tokens .sqlserver ++
      ((if !q.orderBy.isEmpty then [] else ofText "ORDER BY (SELECT NULL)") ++ rest)) =
        ofText "ORDER BY" ++ (q.orderTokens ++ rest) := by
  rw [Selection.optional, orderTerms, List.isEmpty_map, ← orderTerms, orderTokens]
  cases q.orderBy.isEmpty with
  | true =>
      have hread : outermost 0 (ofText "ORDER BY (SELECT NULL)" ++ rest) =
          ofText "ORDER BY" ++ ([.mark '(', .mark ')'] ++ outermost 0 rest) := rfl
      rw [outermost_of_isFlat hrest] at hread
      exact hread
  | false =>
      have hread : outermost 0 (ofText " ORDER BY " ++ ((separated ", " q.orderTerms).tokens .sqlserver ++ rest)) =
          ofText "ORDER BY" ++ outermost 0 ((separated ", " q.orderTerms).tokens .sqlserver ++ rest) := rfl
      rw [outermost_of_isFlat (List.forall_mem_append.2 ⟨q.flat_orderTerms, hrest⟩)] at hread
      have htokens := tokens_words_cons .sqlserver (separated ", " q.orderTerms) (s := " ORDER BY ") ⟨' ', by decide⟩
      have hwritten : (" " ++ "ORDER BY" ++ " " : String) = " ORDER BY " := rfl
      simp only [Bool.false_eq_true, if_false, hwritten, htokens, List.append_assoc]
      exact hread

end QueryOf

theorem untailed_whereClause {c : Compiler} {filters : List Filter} {visibility : Visibility} {scope : Row}
    {qualifier : String} {chain : Chain} (h : c.whereChain filters visibility scope qualifier = .ok chain) :
    Untailed ((whereClause chain).tokens c.dialect) := by
  refine ⟨?_, (composed_untailed c.dialect).whereClause h⟩
  cases chain with
  | nil => exact ⟨[], .nil⟩
  | cons member rest =>
      have hreadable := Condition.readableMembers_iff.2 (whereChain_readable h)
      obtain ⟨items, hitems, -⟩ := (Condition.ReadableMembers.sentence _ (List.cons_ne_nil member rest) hreadable).reads
      have htokens : (whereClause (member :: rest)).tokens c.dialect =
          .word "WHERE".toList :: (Condition.chainFragment (member :: rest)).tokens c.dialect :=
        tokens_words_cons c.dialect _ ⟨' ', by decide⟩
      rw [htokens]
      exact ⟨_, .token rfl rfl hitems⟩

/-- Without the caller's own text, a selection is legible. -/
theorem legible_masked {c : Compiler} {q : Query} {s : Selection} (h : c.Selects q s) :
    (s.fragment c.dialect).masked = s.masked.fragment c.dialect ∧ Legible c.dialect (s.masked.fragment c.dialect) := by
  have hclosed : Scan.Closed c.dialect "".toList := by cases c.dialect <;> decide
  have hlegible := assembled_legible c.dialect
  refine ⟨Selection.masked_fragment ((assembled_own c.dialect).composed.whereClause h.condition), ?_⟩
  refine hlegible.selection (s := s.masked) (hlegible.composed.whereClause h.condition) ?_ ?_
  · rintro _ hp text rfl
    obtain ⟨p, -, hmasked⟩ := List.mem_map.1 hp
    cases p with
    | expression text =>
        cases hmasked
        exact admits_legible hclosed
    | _ => cases hmasked
  · intro clause hclause
    obtain ⟨clause, -, rfl⟩ := List.mem_map.1 hclause
    exact admits_legible hclosed

/-- The rows of the span that a clause asks for; no result reaches the limit that stands for none. -/
theorem Window.rows_most {α : Type} (d : Dialect) (limit offset : Option Nat) {rows : List α}
    (h : rows.length ≤ 18446744073709551615) :
    Span.rows ⟨offset.getD 0, Window.most d limit offset⟩ rows = match limit with
      | none => rows.drop (offset.getD 0)
      | some limit => (rows.drop (offset.getD 0)).take limit := by
  cases limit with
  | some limit => cases d <;> rfl
  | none =>
      cases offset with
      | none => cases d <;> rfl
      | some offset =>
          cases d with
          | mysql =>
              refine List.take_of_length_le ?_
              rw [List.length_drop]
              exact (Nat.sub_le _ _).trans h
          | _ => rfl

/-- The tokens of a bounded query, without the caller's own text: what stands outside of parentheses is ordered once, by the
terms of the query, and the offset follows. -/
theorem outermost_of_select {c : Compiler} {q : Query} {s : Selection} (hdialect : c.dialect = .sqlserver)
    (hbounded : q.limit.isSome ∨ q.offset.isSome) (h : c.Selects q s) :
    ∃ front window, outermost 0 ((s.masked.fragment .sqlserver).tokens .sqlserver) =
        front ++ ofText "ORDER BY" ++ q.orderTokens ++ Token.word "OFFSET".toList :: window ∧
      ∀ t ∈ front ++ q.orderTokens ++ window, t.isOrder = false := by
  have hwhere := untailed_whereClause h.condition
  rw [hdialect] at hwhere
  have hfront := Selection.untailed_front hwhere
  obtain ⟨items, hitems⟩ := hfront.reads
  have hwindow : s.masked.window.limit.isSome ∨ s.masked.window.offset.isSome := by
    have hsame : s.masked.window = ⟨q.limit, q.offset⟩ := h.window
    rwa [hsame]
  obtain ⟨window, hparts, hflat⟩ := Window.parts_bounded hwindow (!s.masked.orderBy.isEmpty)
  have hoffset : ∀ t ∈ Token.word "OFFSET".toList :: window, t.isFlat := List.forall_mem_cons.2 ⟨rfl, hflat⟩
  have hterms : s.masked.terms = q.orderTerms := by
    rw [Selection.terms, show s.masked.orderBy = s.orderBy from rfl, h.orderBy, q.orderTerms_eq]
  have hempty : s.masked.orderBy.isEmpty = q.orderBy.isEmpty := by
    rw [show s.masked.orderBy = s.orderBy from rfl, h.orderBy, List.isEmpty_map]
  have hborder : Bordered (Selection.optional "ORDER BY" s.masked.terms) :=
    Selection.bordered_optional _ ⟨by decide, by decide⟩
  refine ⟨outermost 0 (s.masked.front.tokens .sqlserver), window, ?_, ?_⟩
  · rw [Selection.fragment_eq, tokens_append _ _ s.masked.bordered_windowClause,
      tokens_append _ _ hborder, List.append_assoc, Selection.tokens_windowClause, hparts, outermost_append hitems,
      hterms, hempty, q.outermost_order hoffset]
    simp only [List.append_assoc]
  · refine List.forall_mem_append.2 ⟨List.forall_mem_append.2 ⟨fun t ht => ?_, q.order_orderTokens⟩, fun t ht => ?_⟩
    · exact order_of_tail (hfront.tail t (mem_of_mem_outermost ht))
    · exact order_of_isFlat (hflat t ht)

/-- A page is the same on every dialect: the clause for a limit and an offset, each of which may be missing, is read by the
dialect's grammar as the window of them. And a query of the dialect whose offset needs an order has exactly one outside
of parentheses, and the offset right behind it. -/
theorem pages_alike :
    (∀ {α : Type} (d : Dialect) (ordered : Bool) (limit offset : Option Nat) (rows : List α),
      rows.length ≤ 18446744073709551615 →
        ∃ span, Span.read? d ordered ((Window.ofNat limit offset).clause d ordered) = some span ∧
          span.rows rows = match limit with
            | none => rows.drop (offset.getD 0)
            | some limit => (rows.drop (offset.getD 0)).take limit) ∧
    (∀ {c : Compiler} {q : Query} {s : Statement}, c.dialect = .sqlserver → (q.limit.isSome ∨ q.offset.isSome) →
      c.select q = .ok s → ∃ tokens front window,
        readTokens .sqlserver (s.fragment.masked.text .sqlserver) s.params = some tokens ∧
          outermost 0 tokens =
            front ++ ofText "ORDER BY" ++ q.orderTokens ++ Token.word "OFFSET".toList :: window ∧
          ∀ t ∈ front ++ q.orderTokens ++ window, t.isOrder = false) := by
  refine ⟨fun d ordered limit offset rows hrows => ?_, fun {c q s} hdialect hbounded h => ?_⟩
  · exact ⟨_, Span.read?_clause d ordered limit offset, Window.rows_most d limit offset hrows⟩
  · obtain ⟨selection, hselection, hs⟩ := bind_eq_ok.1 h
    cases pure_eq_ok.1 hs
    have hselects := selects_of_selection hselection
    obtain ⟨hmasked, hlegible⟩ := legible_masked hselects
    rw [hdialect] at hmasked hlegible
    obtain ⟨front, window, hread, horder⟩ := outermost_of_select hdialect hbounded hselects
    refine ⟨_, front, window, ?_, hread, horder⟩
    have hfragment : (Statement.fragment ⟨c.dialect, .select, .select selection⟩).masked =
        selection.masked.fragment .sqlserver := by
      rw [Statement.fragment, hdialect]
      exact hmasked
    rw [readTokens, Statement.params, ← params_masked, hfragment, hlegible.readLexemes]
    rfl

/-- A second page without a limit, and a page of a query without an order whose column the caller orders in an expression. -/
theorem pages_alike_unordered :
    ([10, 20, 30].length ≤ 18446744073709551615 ∧
      ∃ span, Span.read? .mysql false ((Window.ofNat none (some 1)).clause .mysql false) = some span ∧
        span.rows [10, 20, 30] = [20, 30]) ∧
    ∃ (q : Query) (s : Statement), q.limit.isSome ∧
      Compiler.select { dialect := .sqlserver } q = .ok s ∧
      s.sql = "SELECT (SELECT MAX(n) FROM u ORDER BY n) FROM [t] ORDER BY (SELECT NULL) OFFSET 0 ROWS FETCH NEXT 2 ROWS ONLY" ∧
      ∃ tokens front window, readTokens .sqlserver (s.fragment.masked.text .sqlserver) s.params = some tokens ∧
        outermost 0 tokens = front ++ ofText "ORDER BY" ++ q.orderTokens ++ Token.word "OFFSET".toList :: window ∧
        ∀ t ∈ front ++ q.orderTokens ++ window, t.isOrder = false := by
  refine ⟨⟨by decide, pages_alike.1 .mysql false none (some 1) [10, 20, 30] (by decide)⟩,
    { table := "t", columns := [.text "(SELECT MAX(n) FROM u ORDER BY n)"], limit := some 2 }, _, rfl, rfl, by decide +kernel, ?_⟩
  exact pages_alike.2 (c := { dialect := .sqlserver }) rfl (.inl rfl) rfl

end Polyquery
