import Polyquery.Proofs.Subject

/-! Conditions as they are read in statements. A comparison, a test or a constant is one atom; a group is read as its
chain, and is one operand of the chain that it stands in. Main statement: the text of a chain over subjects, its
placeholders filled with its parameters, is read as its members joined by their connectives. -/

namespace Polyquery.Sql

open Fragment Reading

/-! ### Atoms -/

/-- The tokens of an operator. -/
def Operator.tokens (op : Operator) : List Token := Token.ofText op.spelling

namespace Atom

/-- A comparison of a subject with a value. -/
def comparison (d : Dialect) (subject : Fragment) (op : Operator) (value : Value) : List Token :=
  subject.tokens d ++ (op.tokens ++ [Token.param value])

/-- A test of a subject for null, or for any value. -/
def nullTest (d : Dialect) (subject : Fragment) (negated : Bool) : List Token :=
  subject.tokens d ++ Token.ofText (if negated then "IS NOT NULL" else "IS NULL")

/-- A search for a subject among values. -/
def membership (d : Dialect) (subject : Fragment) (values : List Value) (negated : Bool) : List Token :=
  subject.tokens d ++ (Token.ofText (if negated then "NOT IN (" else "IN (") ++ (bindList values).tokens d ++
    [Token.mark ')'])

/-- A comparison of a subject with two bounds. -/
def range (d : Dialect) (subject : Fragment) (low high : Value) (negated : Bool) : List Token :=
  subject.tokens d ++ (Token.ofText (if negated then "NOT BETWEEN" else "BETWEEN") ++
    [Token.param low, Token.word "AND".toList, Token.param high])

/-- A condition without a subject. -/
def constant (truth : Bool) : List Token := Token.ofText (if truth then "1 = 1" else "1 = 0")

end Atom

namespace Condition

mutual

/-- What a condition says. -/
def expr (d : Dialect) : Condition → Expr (List Token)
  | compare subject op value => .atom (Atom.comparison d subject op value)
  | isNull subject negated => .atom (Atom.nullTest d subject negated)
  | isIn subject values negated => .atom (Atom.membership d subject values negated)
  | between subject low high negated => .atom (Atom.range d subject low high negated)
  | constant truth => .atom (Atom.constant truth)
  | group chain => chainExpr d chain

/-- What a chain says that has a member. -/
def chainExpr (d : Dialect) : List (Connective × Condition) → Expr (List Token)
  | [] => .atom []
  | (_, condition) :: rest => (condition.expr d).join (restExpr d rest)

/-- What conditions behind connectives say. -/
def restExpr (d : Dialect) : List (Connective × Condition) → List (Connective × Expr (List Token))
  | [] => []
  | (connective, condition) :: rest => (connective, condition.expr d) :: restExpr d rest

end

mutual

/-- Whether a condition is about subjects only, and has no group without members. -/
def Readable (d : Dialect) : Condition → Prop
  | compare subject _ _ | isNull subject _ | isIn subject _ _ | between subject _ _ _ => Subject d subject
  | constant _ => True
  | group chain => chain ≠ [] ∧ ReadableMembers d chain

/-- Whether all members of a chain are about subjects only. -/
def ReadableMembers (d : Dialect) : List (Connective × Condition) → Prop
  | [] => True
  | (_, condition) :: rest => condition.Readable d ∧ ReadableMembers d rest

end

theorem readableMembers_iff {d : Dialect} {chain : List (Connective × Condition)} :
    ReadableMembers d chain ↔ ∀ member ∈ chain, member.2.Readable d := by
  induction chain with
  | nil => simp [ReadableMembers]
  | cons member chain ih => rw [ReadableMembers, ih, List.forall_mem_cons]

end Condition

namespace Reading

/-! ### Operands -/

theorem Reads.flatMap_tokens {tokens : List Token} {items : List Item} (h : Reads tokens items) :
    items.flatMap Item.tokens = tokens := by
  induction h with
  | nil => rfl
  | token _ _ _ ih => rw [List.flatMap_cons, ih]; rfl
  | enclosed _ _ hinner ih =>
      rw [List.flatMap_cons, ih, enclose, Item.tokens, hinner, List.append_assoc, List.singleton_append]

/-- A fragment that is read as one operand, and as what this operand says. -/
structure Operand (d : Dialect) (f : Fragment) (e : Expr (List Token)) : Prop where
  legible : Legible d f
  reads : ∃ items, Reads (f.tokens d) items ∧ Whole items ∧ operand? items = some e

/-- Items that are more than a pair of parentheses are an atom. -/
theorem Reads.operand?_eq_atom {tokens : List Token} {items : List Item} (h : Reads tokens items)
    (hlength : 2 ≤ items.length) : operand? items = some (.atom tokens) := by
  match items with
  | first :: second :: rest =>
      have hatom : operand? (first :: second :: rest) =
          some (.atom ((first :: second :: rest).flatMap Item.tokens)) := by
        cases first <;> rfl
      rw [hatom, h.flatMap_tokens]

/-- A subject and what is said of it are an atom. -/
theorem operand_of_subject {d : Dialect} {subject f : Fragment} {items : List Item} (hsubject : Subject d subject)
    (hlegible : Legible d f) (hborder : Bordered f) (hreads : Reads (f.tokens d) items) (hwhole : Whole items)
    (hlength : 2 ≤ items.length) : Operand d (subject ++ f) (.atom (subject.tokens d ++ f.tokens d)) := by
  obtain ⟨before, hbefore, hoperands⟩ := hsubject.reads
  refine ⟨hsubject.legible.append hlegible hborder, before ++ items, ?_⟩
  have hall := hbefore.append hreads
  rw [tokens_append d subject hborder]
  refine ⟨hall, (whole_of_isOperand hoperands).append hwhole, hall.operand?_eq_atom ?_⟩
  rw [List.length_append]
  omega

theorem operand_compare {d : Dialect} {subject : Fragment} (h : Subject d subject) (op : Operator) (value : Value) :
    Operand d (Condition.compare subject op value).fragment (.atom (Atom.comparison d subject op value)) := by
  have htame : Scan.Tame (" " ++ op.spelling ++ " ").toList := by cases op <;> decide
  have hborder : Bordered [Piece.words (" " ++ op.spelling ++ " "), Piece.bind value] := by
    cases op <;> exact ⟨by decide, by decide⟩
  have htokens : tokens d [Piece.words (" " ++ op.spelling ++ " "), Piece.bind value] =
      op.tokens ++ [Token.param value] := by
    cases op <;> rfl
  have hplain : ∀ t ∈ op.tokens ++ [Token.param value], t.isPlain := by
    cases op <;> exact List.all_eq_true.1 rfl
  have hlength : 2 ≤ ((op.tokens ++ [Token.param value]).map Item.token).length := by
    cases op <;> exact Nat.le_of_ble_eq_true rfl
  obtain ⟨hreads, hoperands⟩ := reads_of_isPlain hplain
  rw [Condition.fragment, Atom.comparison, ← htokens]
  rw [← htokens] at hreads hoperands hlength
  exact operand_of_subject h ((legible_nil d).bind_cons.words_cons htame) hborder hreads
    (whole_of_isOperand hoperands) hlength

theorem operand_isNull {d : Dialect} {subject : Fragment} (h : Subject d subject) (negated : Bool) :
    Operand d (Condition.isNull subject negated).fragment (.atom (Atom.nullTest d subject negated)) := by
  have hplain : ∀ t ∈ Token.ofText (if negated then "IS NOT NULL" else "IS NULL"), t.isPlain := by
    cases negated <;> decide
  have htokens : tokens d (words (if negated then " IS NOT NULL" else " IS NULL")) =
      Token.ofText (if negated then "IS NOT NULL" else "IS NULL") := by
    rw [tokens_words]
    cases negated <;> rfl
  obtain ⟨hreads, hoperands⟩ := reads_of_isPlain hplain
  rw [Condition.fragment, Atom.nullTest, ← htokens]
  rw [← htokens] at hreads hoperands
  refine operand_of_subject h ((legible_nil d).words_cons ?_) ?_ hreads (whole_of_isOperand hoperands) ?_
  · cases negated <;> decide
  · cases negated <;> exact ⟨by decide, by decide⟩
  · rw [htokens]
    cases negated <;> decide

theorem operand_isIn {d : Dialect} {subject : Fragment} (h : Subject d subject) (values : List Value)
    (negated : Bool) :
    Operand d (Condition.isIn subject values negated).fragment
      (.atom (Atom.membership d subject values negated)) := by
  have hplain : ∀ t ∈ Token.ofText (if negated then "NOT IN" else "IN"), t.isPlain := by
    cases negated <;> decide
  have hopening : Token.ofText (if negated then " NOT IN (" else " IN (") =
      Token.ofText (if negated then "NOT IN" else "IN") ++ [Token.mark '('] := by
    cases negated <;> rfl
  have hkeyword : Token.ofText (if negated then "NOT IN (" else "IN (") =
      Token.ofText (if negated then "NOT IN" else "IN") ++ [Token.mark '('] := by
    cases negated <;> rfl
  have htokens : tokens d (Piece.words (if negated then " NOT IN (" else " IN (") :: bindList values ++ words ")") =
      Token.ofText (if negated then "NOT IN (" else "IN (") ++ (bindList values).tokens d ++ [Token.mark ')'] := by
    have hclosing : Bordered (words ")") := ⟨by decide, by decide⟩
    rw [tokens_append d _ hclosing, tokens_words_cons d _ (by cases negated <;> exact ⟨'(', by decide⟩), hopening,
      hkeyword, tokens_words]
    rfl
  obtain ⟨hbefore, hoperands⟩ := reads_of_isPlain hplain
  have hmembers := (reads_of_isPlain (plain_bindList d values)).1
  have hreads : Reads
      (Token.ofText (if negated then "NOT IN (" else "IN (") ++ (bindList values).tokens d ++ [Token.mark ')'])
      ((Token.ofText (if negated then "NOT IN" else "IN")).map Item.token ++
        [enclose (((bindList values).tokens d).map Item.token)]) := by
    rw [hkeyword, List.append_assoc, List.append_assoc]
    exact hbefore.append (.enclosed hmembers .nil)
  rw [Condition.fragment, Atom.membership, ← htokens, List.append_assoc]
  rw [← htokens] at hreads
  refine operand_of_subject h ?_ ?_ hreads ((whole_of_isOperand hoperands).append ?_) ?_
  · have hclose : Legible d (words ")") := (legible_nil d).words_cons (by decide)
    refine ((legible_bindList d values).append hclose (bordered_words (by decide))).words_cons ?_
    cases negated <;> decide
  · cases negated <;> exact ⟨by decide, by decide⟩
  · exact whole_of_isOperand (List.forall_mem_singleton.2 rfl)
  · rw [List.length_append]
    cases negated <;> exact Nat.le_of_ble_eq_true rfl

theorem operand_between {d : Dialect} {subject : Fragment} (h : Subject d subject) (low high : Value)
    (negated : Bool) :
    Operand d (Condition.between subject low high negated).fragment
      (.atom (Atom.range d subject low high negated)) := by
  have htokens : tokens d [Piece.words (if negated then " NOT BETWEEN " else " BETWEEN "), Piece.bind low,
      Piece.words " AND ", Piece.bind high] = Token.ofText (if negated then "NOT BETWEEN" else "BETWEEN") ++
        [Token.param low, Token.word "AND".toList, Token.param high] := by
    cases negated <;> rfl
  have hreads : Reads (Token.ofText (if negated then "NOT BETWEEN" else "BETWEEN") ++
      [Token.param low, Token.word "AND".toList, Token.param high])
      ((Token.ofText (if negated then "NOT BETWEEN" else "BETWEEN") ++
        [Token.param low, Token.word "AND".toList, Token.param high]).map Item.token) := by
    cases negated <;> repeat' constructor
  rw [Condition.fragment, Atom.range, ← htokens]
  rw [← htokens] at hreads
  refine operand_of_subject h ?_ ?_ hreads ?_ ?_
  · refine ((legible_nil d).bind_cons.words_cons (by decide)).bind_cons.words_cons ?_
    cases negated <;> decide
  · cases negated <;> exact ⟨by decide, by decide⟩
  · -- The `AND` between the bounds is owed to the `BETWEEN` before it, so it is no connective.
    intro rest
    rw [htokens]
    cases negated <;> rfl
  · rw [htokens]
    cases negated <;> exact Nat.le_of_ble_eq_true rfl

theorem operand_constant (d : Dialect) (truth : Bool) :
    Operand d (Condition.constant truth).fragment (.atom (Atom.constant truth)) := by
  have hplain : ∀ t ∈ Atom.constant truth, t.isPlain := by cases truth <;> decide
  obtain ⟨hreads, hoperands⟩ := reads_of_isPlain hplain
  refine ⟨(legible_nil d).words_cons (by cases truth <;> decide), _, ?_, whole_of_isOperand hoperands, ?_⟩
  · rwa [Condition.fragment, tokens_words]
  · exact hreads.operand?_eq_atom (by cases truth <;> decide)

/-! ### Chains -/

/-- A fragment that is read as a condition of its own. -/
structure Sentence (d : Dialect) (f : Fragment) (e : Expr (List Token)) : Prop where
  legible : Legible d f
  reads : ∃ items, Reads (f.tokens d) items ∧ assemble items = some e

/-- A fragment that goes on with operands behind connectives. -/
structure Continuation (d : Dialect) (f : Fragment) (others : List (Connective × Expr (List Token))) : Prop where
  legible : Legible d f
  bordered : Bordered f
  reads : ∃ members, Reads (f.tokens d) (row members) ∧ (∀ member ∈ members, Whole member.2) ∧
    others? members = some others

/-- What parentheses enclose is one operand. -/
theorem Sentence.enclosed {d : Dialect} {f : Fragment} {e : Expr (List Token)} (h : Sentence d f e) :
    Operand d (Piece.words "(" :: f ++ words ")") e := by
  obtain ⟨items, hreads, hitems⟩ := h.reads
  have hclose : Legible d (words ")") := (legible_nil d).words_cons (by decide)
  refine ⟨(h.legible.append hclose (bordered_words (by decide))).words_cons (by decide), [enclose items], ?_,
    whole_of_isOperand (List.forall_mem_singleton.2 rfl), hitems⟩
  have hclosing : Bordered (words ")") := ⟨by decide, by decide⟩
  rw [List.cons_append, tokens_words_cons d _ ⟨'(', by decide⟩, tokens_append d f hclosing, tokens_words]
  exact .enclosed hreads .nil

theorem continuation_nil (d : Dialect) : Continuation d [] [] :=
  ⟨legible_nil d, trivial, [], .nil, nofun, rfl⟩

theorem Operand.continuation {d : Dialect} {f g : Fragment} {e : Expr (List Token)}
    {others : List (Connective × Expr (List Token))} (hf : Operand d f e) (hg : Continuation d g others)
    (connective : Connective) :
    Continuation d (Piece.words (" " ++ connective.spelling ++ " ") :: f ++ g) ((connective, e) :: others) := by
  obtain ⟨items, hitems, hwhole, hoperand⟩ := hf.reads
  obtain ⟨members, hmembers, hall, hothers⟩ := hg.reads
  refine ⟨(hf.legible.append hg.legible hg.bordered).words_cons ?_, ?_, (connective, items) :: members, ?_,
    List.forall_mem_cons.2 ⟨hwhole, hall⟩, ?_⟩
  · cases connective <;> decide
  · cases connective <;> exact ⟨by decide, by decide⟩
  · have hword : Token.ofText (" " ++ connective.spelling ++ " ") = [connectiveToken connective] := by
      cases connective <;> rfl
    rw [List.cons_append, tokens_words_cons d _ (by cases connective <;> exact ⟨' ', by decide⟩), hword,
      tokens_append d _ hg.bordered]
    refine .token (by cases connective <;> rfl) (by cases connective <;> rfl) ?_
    exact hitems.append hmembers
  · rw [others?, hoperand, hothers]

theorem Operand.sentence {d : Dialect} {f g : Fragment} {e : Expr (List Token)}
    {others : List (Connective × Expr (List Token))} (hf : Operand d f e) (hg : Continuation d g others) :
    Sentence d (f ++ g) (e.join others) := by
  obtain ⟨items, hitems, hwhole, hoperand⟩ := hf.reads
  obtain ⟨members, hmembers, hall, hothers⟩ := hg.reads
  refine ⟨hf.legible.append hg.legible hg.bordered, items ++ row members, ?_, ?_⟩
  · rw [tokens_append d _ hg.bordered]
    exact hitems.append hmembers
  · rw [assemble, operands_row hwhole hall, hoperand, hothers]

end Reading

namespace Condition

open Reading

mutual

theorem Readable.operand {d : Dialect} : (condition : Condition) → condition.Readable d →
    Operand d condition.fragment (condition.expr d)
  | compare _ op value, h => by
      rw [expr]
      exact operand_compare h op value
  | isNull _ negated, h => by
      rw [expr]
      exact operand_isNull h negated
  | isIn _ values negated, h => by
      rw [expr]
      exact operand_isIn h values negated
  | between _ low high negated, h => by
      rw [expr]
      exact operand_between h low high negated
  | constant truth, _ => by
      rw [expr]
      exact operand_constant d truth
  | group chain, h => by
      rw [fragment, expr]
      exact (ReadableMembers.sentence chain h.1 h.2).enclosed

theorem ReadableMembers.sentence {d : Dialect} : (chain : List (Connective × Condition)) → chain ≠ [] →
    ReadableMembers d chain → Sentence d (chainFragment chain) (chainExpr d chain)
  | [], hne, _ => absurd rfl hne
  | (_, condition) :: rest, _, ⟨hcondition, hrest⟩ => by
      rw [chainFragment, chainExpr]
      exact (Readable.operand condition hcondition).sentence (ReadableMembers.continuation rest hrest)

theorem ReadableMembers.continuation {d : Dialect} : (rest : List (Connective × Condition)) →
    ReadableMembers d rest → Continuation d (restFragment rest) (restExpr d rest)
  | [], _ => continuation_nil d
  | (connective, condition) :: rest, ⟨hcondition, hrest⟩ => by
      rw [restFragment, restExpr]
      exact (Readable.operand condition hcondition).continuation (ReadableMembers.continuation rest hrest) connective

end

end Condition

end Polyquery.Sql
