import Polyquery.Proofs.PathLiteral
import Polyquery.Proofs.Reading
import Polyquery.Sql.JsonPath

/-! The tokens of fragments, and what conditions are about: references to columns and texts at paths of document
columns. Their names, literals and function calls are tokens of one operand, whatever characters a name holds. -/

namespace Polyquery.Sql

namespace Token

/-- Lexemes behind which no word goes on. -/
def Ended (lexemes : List (Lexeme Value)) : Prop :=
  lexemes ≠ [] ∧ ∀ c, lexemes.getLast? = some (.char c) → isWordChar c = false

theorem split_append_of_apart (letters : List Char) (a : List (Lexeme Value)) {b : List (Lexeme Value)}
    (hb : Apart b) : split letters (a ++ b) = split letters a ++ split [] b := by
  induction a generalizing letters with
  | nil => exact split_of_apart hb
  | cons lexeme a ih =>
      cases lexeme with
      | char c =>
          simp only [List.cons_append, split]
          split
          · exact ih _
          · rw [ih, List.append_assoc, List.append_assoc, List.append_assoc]
      | _ => simp only [List.cons_append, split, ih, List.append_assoc]

theorem split_append_of_ended (letters : List Char) {a : List (Lexeme Value)} (ha : Ended a)
    (b : List (Lexeme Value)) : split letters (a ++ b) = split letters a ++ split [] b := by
  obtain ⟨front, last, rfl⟩ := List.eq_nil_or_concat a |>.resolve_left ha.1
  have hlast : Apart [last] := by
    intro c hc
    exact ha.2 c (by simpa using hc)
  have hone : ∀ c, last = .char c → isWordChar c = false := fun c hc => hlast c (by simp [hc])
  have hstep : split [] (last :: b) = split [] [last] ++ split [] b := by
    cases last with
    | char c => simp [split, hone c rfl, flush]
    | _ => simp [split, flush]
  have happart : Apart (last :: b) := fun c hc => hlast c (by simpa using hc)
  rw [List.concat_eq_append, List.append_assoc, List.singleton_append, split_append_of_apart _ _ happart, hstep,
    split_append_of_apart _ _ hlast, List.append_assoc]

/-- Whether a token stays within an operand: it neither joins conditions nor encloses. -/
def isPlain (t : Token) : Bool := !t.opens && !t.closes && (Item.token t).isOperand

/-- The tokens of a text without names, literals and parameters. -/
def ofText (s : String) : List Token := split [] (s.toList.map .char)

end Token

namespace Fragment

open Token

/-- The tokens of a fragment. -/
def tokens (d : Dialect) (f : Fragment) : List Token := split [] (f.lexemes d)

theorem lexemes_append (d : Dialect) (f g : Fragment) : (f ++ g).lexemes d = f.lexemes d ++ g.lexemes d :=
  List.flatMap_append

theorem lexemes_cons (d : Dialect) (p : Piece) (f : Fragment) :
    Fragment.lexemes d (p :: f) = p.lexemes d ++ f.lexemes d := List.flatMap_cons

/-- A border ends every word. -/
theorem Bordered.apart {d : Dialect} {f : Fragment} (h : Bordered f) : Apart (f.lexemes d) := by
  match f with
  | [] => exact fun c hc => absurd hc (by simp [lexemes])
  | .words s :: rest =>
      obtain ⟨hne, hs⟩ := h
      obtain ⟨first, text, hcs⟩ := List.exists_cons_of_ne_nil hne
      have hmem : first ∈ Scan.separators := hs first (by rw [hcs]; rfl)
      intro c hc
      have heq : first = c := by simpa [lexemes, Piece.lexemes, hcs] using hc
      have hnone : Scan.separators.all fun c => !isWordChar c := by decide
      simpa [heq] using List.all_eq_true.1 hnone first hmem

theorem tokens_append (d : Dialect) (f : Fragment) {g : Fragment} (hg : Bordered g) :
    (f ++ g).tokens d = f.tokens d ++ g.tokens d := by
  rw [tokens, lexemes_append, split_append_of_apart _ _ hg.apart]
  rfl

@[simp] theorem tokens_nil (d : Dialect) : tokens d [] = [] := rfl

@[simp] theorem tokens_name_cons (d : Dialect) (name : String) (f : Fragment) :
    tokens d (.name name :: f) = .name name.toList :: f.tokens d := rfl

@[simp] theorem tokens_literal_cons (d : Dialect) (text : String) (f : Fragment) :
    tokens d (.literal text :: f) = .literal text.toList :: f.tokens d := rfl

@[simp] theorem tokens_bind_cons (d : Dialect) (value : Value) (f : Fragment) :
    tokens d (Piece.bind value :: f) = .param value :: f.tokens d := rfl

theorem tokens_words (d : Dialect) (s : String) : tokens d (words s) = ofText s := by
  rw [tokens, words, lexemes, List.flatMap_singleton]
  rfl

/-- Words that end with a mark or a space have their tokens to themselves. -/
theorem tokens_words_cons (d : Dialect) {s : String} (f : Fragment)
    (hs : ∃ c, s.toList.getLast? = some c ∧ isWordChar c = false) :
    tokens d (Piece.words s :: f) = ofText s ++ f.tokens d := by
  obtain ⟨last, hlast, hmark⟩ := hs
  have hended : Ended (s.toList.map (Lexeme.char (α := Value))) := by
    refine ⟨?_, fun c hc => ?_⟩
    · intro hnil
      rw [List.map_eq_nil_iff] at hnil
      rw [hnil] at hlast
      cases hlast
    · rw [List.getLast?_map, hlast] at hc
      cases hc
      exact hmark
  exact split_append_of_ended [] hended (f.lexemes d)

/-- A change of pieces that leaves separators alone. -/
theorem map_separated {change : Piece → Piece} {separator : String} (h : change (.words separator) = .words separator)
    (fs : List Fragment) : (separated separator fs).map change = separated separator (fs.map (List.map change)) := by
  fun_induction Fragment.separated separator fs with
  | case1 => rfl
  | case2 f => rfl
  | case3 f rest hne ih =>
      have hmapped : rest.map (List.map change) ≠ [] := fun hnil => hne (List.map_eq_nil_iff.1 hnil)
      rw [List.map_append, List.map_cons, ih, h, List.map_cons, separated]
      exact hmapped

/-! ### Properties of all tokens -/

theorem forall_tokens_append {d : Dialect} {P : Token → Prop} {f g : Fragment} (hf : ∀ t ∈ f.tokens d, P t)
    (hg : ∀ t ∈ g.tokens d, P t) (hborder : Bordered g) : ∀ t ∈ (f ++ g).tokens d, P t := by
  rw [tokens_append d f hborder]
  exact List.forall_mem_append.2 ⟨hf, hg⟩

theorem forall_tokens_words_cons {d : Dialect} {P : Token → Prop} {s : String} {f : Fragment}
    (hs : ∃ c, s.toList.getLast? = some c ∧ isWordChar c = false) (hwords : ∀ t ∈ ofText s, P t)
    (hf : ∀ t ∈ f.tokens d, P t) : ∀ t ∈ tokens d (Piece.words s :: f), P t := by
  rw [tokens_words_cons d f hs]
  exact List.forall_mem_append.2 ⟨hwords, hf⟩

theorem forall_tokens_separated {d : Dialect} {P : Token → Prop} {separator : String} {fs : List Fragment}
    (hfs : ∀ f ∈ fs, ∀ t ∈ f.tokens d, P t) (hborder : separator.toList ≠ [] ∧ Scan.Bordered separator.toList)
    (hend : ∃ c, separator.toList.getLast? = some c ∧ isWordChar c = false) (hwords : ∀ t ∈ ofText separator, P t) :
    ∀ t ∈ (separated separator fs).tokens d, P t := by
  fun_induction Fragment.separated separator fs with
  | case1 => exact fun t ht => absurd ht List.not_mem_nil
  | case2 f => exact hfs f List.mem_cons_self
  | case3 f rest hne ih =>
      have hrest := ih fun g hg => hfs g (List.mem_cons_of_mem _ hg)
      exact forall_tokens_append (hfs f List.mem_cons_self) (forall_tokens_words_cons hend hwords hrest) hborder

/-- A property of the members of a list and of the comma. -/
theorem forall_tokens_commas {d : Dialect} {P : Token → Prop} {fs : List Fragment} (hcomma : P (.mark ','))
    (hfs : ∀ f ∈ fs, ∀ t ∈ f.tokens d, P t) : ∀ t ∈ (separated ", " fs).tokens d, P t :=
  forall_tokens_separated hfs ⟨by decide, by decide⟩ ⟨' ', by decide⟩ (List.forall_mem_singleton.2 hcomma)

theorem forall_tokens_reference {d : Dialect} {P : Token → Prop} (hdot : P (.mark '.')) (hstar : P (.mark '*'))
    (hname : ∀ name, P (.name name)) (ref : String) : ∀ t ∈ (reference ref).tokens d, P t := by
  refine forall_tokens_separated ?_ ⟨by decide, by decide⟩ ⟨'.', by decide⟩ (List.forall_mem_singleton.2 hdot)
  intro f hf
  obtain ⟨part, -, rfl⟩ := List.mem_map.1 hf
  split
  · subst part
    rw [tokens_words]
    exact List.forall_mem_singleton.2 hstar
  · exact List.forall_mem_singleton.2 (hname part.toList)

/-! ### Plain tokens -/

/-- Whether all tokens of a fragment stay within an operand. -/
def Plain (d : Dialect) (f : Fragment) : Prop := ∀ t ∈ f.tokens d, t.isPlain

theorem plain_reference (d : Dialect) (ref : String) : Plain d (reference ref) :=
  @forall_tokens_reference d (fun t => t.isPlain) rfl rfl (fun _ => rfl) ref

theorem plain_bindList (d : Dialect) (values : List Value) : Plain d (bindList values) := by
  refine forall_tokens_commas rfl ?_
  intro f hf
  obtain ⟨value, -, rfl⟩ := List.mem_map.1 hf
  exact List.forall_mem_singleton.2 rfl

/-! ### Parameters -/

@[simp] theorem params_nil : params [] = [] := rfl

@[simp] theorem params_words_cons (s : String) (f : Fragment) : params (Piece.words s :: f) = f.params := rfl

@[simp] theorem params_name_cons (s : String) (f : Fragment) : params (.name s :: f) = f.params := rfl

@[simp] theorem params_literal_cons (s : String) (f : Fragment) : params (.literal s :: f) = f.params := rfl

@[simp] theorem params_expression_cons (s : String) (f : Fragment) : params (.expression s :: f) = f.params := rfl

@[simp] theorem params_bind_cons (value : Value) (f : Fragment) : params (Piece.bind value :: f) = value :: f.params := rfl

@[simp] theorem params_append (f g : Fragment) : params (f ++ g) = f.params ++ g.params := List.filterMap_append

@[simp] theorem params_words (s : String) : params (words s) = [] := rfl

theorem params_separated {separator : String} {fs : List Fragment} (h : ∀ f ∈ fs, f.params = []) :
    (separated separator fs).params = [] := by
  fun_induction Fragment.separated separator fs with
  | case1 => rfl
  | case2 f => exact h f List.mem_cons_self
  | case3 f rest hne ih =>
      rw [params_append, h f List.mem_cons_self, List.nil_append]
      exact ih fun g hg => h g (List.mem_cons_of_mem _ hg)

/-- The parameters of fragments with words between them. -/
theorem params_separated_eq_flatMap (separator : String) (fs : List Fragment) :
    (separated separator fs).params = fs.flatMap params := by
  fun_induction Fragment.separated separator fs with
  | case1 => rfl
  | case2 f => simp
  | case3 f rest hne ih => rw [params_append, params_words_cons, ih, List.flatMap_cons]

theorem params_bindList (values : List Value) : (bindList values).params = values := by
  have hone : ∀ value : Value, Fragment.params [.bind value] = [value] := fun _ => rfl
  rw [bindList, params_separated_eq_flatMap, List.flatMap_map]
  simp only [hone, List.flatMap_singleton']

@[simp] theorem params_reference (ref : String) : (reference ref).params = [] := by
  refine params_separated fun f hf => ?_
  obtain ⟨part, -, rfl⟩ := List.mem_map.1 hf
  split <;> rfl

@[simp] theorem params_nameList (names : List String) : (nameList names).params = [] := by
  refine params_separated fun f hf => ?_
  obtain ⟨name, -, rfl⟩ := List.mem_map.1 hf
  rfl

end Fragment

/-! ### Paths -/

namespace JsonPath

/-- A word has no quotes in it. -/
theorem quote_not_mem_of_isSegment {segment : String} (h : isSegment segment) : '\'' ∉ segment.toList := by
  intro hmem
  simp only [isSegment, Bool.and_eq_true, List.all_eq_true] at h
  have hword := h.2 '\''
  split at hword
  case isTrue hlast =>
    obtain ⟨front, hfront⟩ : ∃ front, segment.toList = front ++ ['\n'] := List.getLast?_eq_some_iff.1 hlast
    rw [hfront, List.dropLast_concat] at hword
    rw [hfront] at hmem
    rcases List.mem_append.1 hmem with hmem | hmem
    · exact absurd (hword hmem) (by decide)
    · exact absurd (List.mem_singleton.1 hmem) (by decide)
  case isFalse => exact absurd (hword hmem) (by decide)

/-- The segments of a path have no quotes in them. -/
theorem quote_not_mem_of_validate {segments path : List String} (h : validate segments = .ok path) :
    ∀ s ∈ path, '\'' ∉ s.toList := by
  obtain ⟨rfl, -, hsegments⟩ := validate_eq_ok.1 h
  exact fun s hs => quote_not_mem_of_isSegment (hsegments s hs)

theorem quote_not_mem_brace {segments : List String} (h : ∀ s ∈ segments, '\'' ∉ s.toList) :
    '\'' ∉ (brace segments).toList := quote_not_mem_written .postgres (by simp) h

theorem quote_not_mem_dollar {segments : List String} (h : ∀ s ∈ segments, '\'' ∉ s.toList) :
    '\'' ∉ (dollar segments).toList := quote_not_mem_written .sqlite (by simp) h

end JsonPath

/-! ### Subjects -/

namespace Reading

/-- Plain tokens are operands, each an item of its own. -/
theorem reads_of_isPlain {tokens : List Token} (h : ∀ t ∈ tokens, t.isPlain) :
    Reads tokens (tokens.map Item.token) ∧ ∀ i ∈ tokens.map Item.token, i.isOperand := by
  induction tokens with
  | nil => exact ⟨.nil, fun i hi => absurd hi List.not_mem_nil⟩
  | cons t tokens ih =>
      obtain ⟨ht, hrest⟩ := List.forall_mem_cons.1 h
      obtain ⟨hreads, hitems⟩ := ih hrest
      simp only [Token.isPlain, Bool.and_eq_true, Bool.not_eq_true'] at ht
      obtain ⟨⟨hopens, hcloses⟩, hoperand⟩ := ht
      exact ⟨.token hopens hcloses hreads, List.forall_mem_cons.2 ⟨hoperand, hitems⟩⟩

/-- What a word and parentheses make of plain tokens is an operand. -/
theorem Reads.call (name : List Char) {inside : List Token} {members : List Item} (h : Reads inside members)
    (hname : (Token.word name).isPlain) :
    ∃ items, Reads (Token.word name :: Token.mark '(' :: inside ++ [Token.mark ')']) items ∧
      ∀ i ∈ items, i.isOperand := by
  simp only [Token.isPlain, Bool.and_eq_true] at hname
  refine ⟨[.token (.word name), enclose members], .token rfl rfl (.enclosed h .nil), ?_⟩
  exact List.forall_mem_cons.2 ⟨hname.2, List.forall_mem_singleton.2 rfl⟩

end Reading

open Fragment Reading

/-- A fragment that conditions are about: it is read as what it is, and as part of an operand. -/
structure Subject (d : Dialect) (f : Fragment) : Prop where
  legible : Legible d f
  bare : f.params = []
  reads : ∃ items, Reads (f.tokens d) items ∧ ∀ i ∈ items, i.isOperand

theorem subject_reference (d : Dialect) (ref : String) : Subject d (reference ref) :=
  ⟨legible_reference d ref, params_reference ref, _, reads_of_isPlain (plain_reference d ref)⟩

/-- A call on a column and a path is a subject, if it is an operand whatever stands in its parentheses. -/
theorem subject_call {d : Dialect} {ref opening closing : String} {segments : List String} {f : Fragment}
    (h : jsonExtract.call (reference ref) (JsonPath.validate segments) opening closing = .ok f)
    (htame : Scan.Tame (opening.toList ++ closing.toList))
    (hclosing : closing.toList ≠ [] ∧ Scan.Bordered closing.toList)
    (hopening : ∃ c, opening.toList.getLast? = some c ∧ Token.isWordChar c = false)
    (hreads : ∀ {inside members}, Reads inside members →
      ∃ items, Reads (Token.ofText opening ++ inside ++ Token.ofText closing) items ∧ ∀ i ∈ items, i.isOperand) :
    Subject d f := by
  obtain ⟨path, hpath, hf⟩ := bind_eq_ok.1 h
  cases pure_eq_ok.1 hf
  constructor
  · have hend : Legible d [.words ", ", .literal (JsonPath.dollar path), .words closing] :=
      (((legible_nil d).words_cons fun c hc => htame c (List.mem_append_right _ hc)).literal_cons
        (JsonPath.quote_not_mem_dollar (JsonPath.quote_not_mem_of_validate hpath)) hclosing).words_cons (by decide)
    exact ((legible_reference d ref).append hend (bordered_words (by decide))).words_cons fun c hc =>
      htame c (List.mem_append_left _ hc)
  · exact (params_append _ _).trans (List.append_eq_nil_iff.2 ⟨params_reference ref, rfl⟩)
  · have hinside : ∀ t ∈ (reference ref).tokens d ++ [Token.mark ',', Token.literal (JsonPath.dollar path).toList],
        t.isPlain := by
      refine List.forall_mem_append.2 ⟨plain_reference d ref, fun t ht => ?_⟩
      rcases List.mem_pair.1 ht with rfl | rfl <;> rfl
    obtain ⟨items, hitems, hoperand⟩ := hreads (reads_of_isPlain hinside).1
    refine ⟨items, ?_, hoperand⟩
    rw [List.append_assoc, List.append_assoc] at hitems
    rwa [List.cons_append, tokens_words_cons d _ hopening, tokens_append d _ (bordered_words (by decide)),
      tokens_words_cons d _ ⟨' ', by decide⟩, tokens_literal_cons, show [Piece.words closing] = words closing from rfl,
      tokens_words]

/-- The text at a path inside a document column. -/
theorem subject_jsonExtract {d : Dialect} {ref : String} {segments : List String} {f : Fragment}
    (h : jsonExtract d (reference ref) (JsonPath.validate segments) = .ok f) : Subject d f := by
  cases d with
  | ansi => cases h
  | postgres =>
      obtain ⟨path, hpath, hf⟩ := bind_eq_ok.1 h
      cases pure_eq_ok.1 hf
      have hquote := JsonPath.quote_not_mem_brace (JsonPath.quote_not_mem_of_validate hpath)
      have hpath : Legible .postgres (.words " #>> " :: [.literal (JsonPath.brace path)]) :=
        ((legible_nil _).literal_cons hquote trivial).words_cons (by decide)
      refine ⟨(legible_reference _ ref).append hpath (bordered_words (by decide)),
        (params_append _ _).trans (List.append_eq_nil_iff.2 ⟨params_reference ref, rfl⟩), ?_⟩
      have harrow : ∀ t ∈ Token.ofText " #>> ", t.isPlain := by decide
      refine ⟨_, reads_of_isPlain ?_⟩
      rw [tokens_append _ _ (bordered_words (by decide)), tokens_words_cons _ _ ⟨' ', by decide⟩]
      exact List.forall_mem_append.2 ⟨plain_reference _ ref, List.forall_mem_append.2 ⟨harrow,
        List.forall_mem_singleton.2 rfl⟩⟩
  | sqlite =>
      refine subject_call h (by decide) ⟨by decide, by decide⟩ ⟨'(', by decide⟩ fun hinside => ?_
      rw [show Token.ofText "json_extract(" = [.word "json_extract".toList, .mark '('] from rfl,
        show Token.ofText ")" = [.mark ')'] from rfl]
      exact hinside.call "json_extract".toList rfl
  | sqlserver =>
      refine subject_call h (by decide) ⟨by decide, by decide⟩ ⟨'(', by decide⟩ fun hinside => ?_
      rw [show Token.ofText "JSON_VALUE(" = [.word "JSON_VALUE".toList, .mark '('] from rfl,
        show Token.ofText ")" = [.mark ')'] from rfl]
      exact hinside.call "JSON_VALUE".toList rfl
  | mysql =>
      refine subject_call h (by decide) ⟨by decide, by decide⟩ ⟨'(', by decide⟩ fun hinside => ?_
      rw [show Token.ofText "JSON_UNQUOTE(JSON_EXTRACT(" =
          [.word "JSON_UNQUOTE".toList, .mark '(', .word "JSON_EXTRACT".toList, .mark '('] from rfl,
        show Token.ofText "))" = [.mark ')', .mark ')'] from rfl]
      obtain ⟨inner, hinner, -⟩ := hinside.call "JSON_EXTRACT".toList rfl
      have hcall := hinner.call "JSON_UNQUOTE".toList rfl
      rwa [List.cons_append, List.cons_append, List.append_assoc] at hcall

end Polyquery.Sql
