import Polyquery.Proofs.Legible
import Polyquery.Proofs.Truth

/-! Conditions as SQL reads them. The lexemes of a text become words, marks, names, literals and parameters;
parentheses enclose, `AND` binds closer than `OR`, and the first `AND` behind a `BETWEEN` belongs to it. What stands
between these connectives is an atom, or a condition of its own where it is nothing but parentheses. Main statement:
a row of operands with connectives between them is read as the chain of the operands' readings. -/

namespace Polyquery.Sql

/-- A token of a statement; letters, digits and underscores in a row are one word. -/
inductive Token where
  | word (text : List Char)
  | mark (c : Char)
  | name (text : List Char)
  | literal (text : List Char)
  | param (value : Value)

namespace Token

/-- Whether a character belongs to words. -/
def isWordChar (c : Char) : Bool := c.isAlphanum || c = '_'

/-- A word that is complete, if it has begun at all. -/
def flush (letters : List Char) : List Token := if letters.isEmpty then [] else [word letters]

/-- The tokens of lexemes, with the letters of the word that has begun. White space only ends words. -/
def split : List Char → List (Lexeme Value) → List Token
  | letters, [] => flush letters
  | letters, .char c :: rest =>
    if isWordChar c then split (letters ++ [c]) rest
    else flush letters ++ (if c.isWhitespace then [] else [mark c]) ++ split [] rest
  | letters, .name text :: rest => flush letters ++ name text :: split [] rest
  | letters, .literal text :: rest => flush letters ++ literal text :: split [] rest
  | letters, .hole value :: rest => flush letters ++ param value :: split [] rest
  | letters, .unclosed :: rest => flush letters ++ split [] rest

def isAnd : Token → Bool
  | word text => text = "AND".toList
  | _ => false

def isOr : Token → Bool
  | word text => text = "OR".toList
  | _ => false

def isBetween : Token → Bool
  | word text => text = "BETWEEN".toList
  | _ => false

def opens : Token → Bool
  | mark c => c = '('
  | _ => false

def closes : Token → Bool
  | mark c => c = ')'
  | _ => false

end Token

/-- A part of a condition: a token, or all that a pair of parentheses encloses, with the condition that it is, if it is
one. -/
inductive Item where
  | token (t : Token)
  | enclosed (tokens : List Token) (reading : Option (Expr (List Token)))

namespace Item

def tokens : Item → List Token
  | token t => [t]
  | enclosed tokens _ => tokens

/-- Whether an item neither joins conditions nor is about to take an `AND`. -/
def isOperand : Item → Bool
  | token t => !t.isAnd && !t.isOr && !t.isBetween
  | enclosed _ _ => true

end Item

namespace Reading

/-- The operands of a row of items and the connectives between them; an `AND` that is owed to a `BETWEEN` is no
connective. -/
def operands : Bool → List Item → List Item × List (Connective × List Item)
  | _, [] => ([], [])
  | owed, .enclosed tokens reading :: rest =>
    ((.enclosed tokens reading :: (operands owed rest).1), (operands owed rest).2)
  | owed, .token t :: rest =>
    if t.isAnd && !owed then ([], (.and, (operands false rest).1) :: (operands false rest).2)
    else if t.isOr then ([], (.or, (operands false rest).1) :: (operands false rest).2)
    else
      let still := (owed || t.isBetween) && !t.isAnd
      (.token t :: (operands still rest).1, (operands still rest).2)

/-- The condition that an operand is. -/
def operand? : List Item → Option (Expr (List Token))
  | [] => none
  | [.enclosed _ reading] => reading
  | items => some (.atom (items.flatMap Item.tokens))

/-- The conditions that operands behind connectives are. -/
def others? : List (Connective × List Item) → Option (List (Connective × Expr (List Token)))
  | [] => some []
  | (connective, items) :: rest =>
    match operand? items, others? rest with
    | some e, some others => some ((connective, e) :: others)
    | _, _ => none

/-- The condition that a row of items is. -/
def assemble (items : List Item) : Option (Expr (List Token)) :=
  match operand? (operands false items).1, others? (operands false items).2 with
  | some e, some others => some (e.join others)
  | _, _ => none

/-- Items between parentheses as one item. -/
def enclose (items : List Item) : Item :=
  .enclosed (.mark '(' :: items.flatMap Item.tokens ++ [.mark ')']) (assemble items)

/-- The items of tokens. The items read so far belong to the innermost open parenthesis, those before it to the ones
around it. -/
def nest : List Item → List (List Item) → List Token → Option (List Item)
  | items, around, [] => if around.isEmpty then some items else none
  | items, around, t :: rest =>
    if t.opens then nest [] (items :: around) rest
    else if t.closes then
      match around with
      | [] => none
      | before :: around => nest (before ++ [enclose items]) around rest
    else nest (items ++ [.token t]) around rest

/-- The condition that tokens are. -/
def condition? (tokens : List Token) : Option (Expr (List Token)) := (nest [] [] tokens).bind assemble

end Reading

/-- The condition that a text with its parameters is, none for the empty text. A text that is no condition has no
reading. -/
def readCondition (d : Dialect) (text : String) (params : List Value) : Option (Option (Expr (List Token))) :=
  match readLexemes d text params with
  | none => none
  | some [] => some none
  | some lexemes => (Reading.condition? (Token.split [] lexemes)).map some

/-- The truth of a condition that may be missing; a missing one is true. -/
def Expr.truth {α : Type} (ρ : α → Truth) : Option (Expr α) → Truth
  | none => .yes
  | some e => e.value ρ

namespace Token

/-- Whether lexemes do not continue a word. -/
def Apart (lexemes : List (Lexeme Value)) : Prop :=
  ∀ c, lexemes.head? = some (.char c) → isWordChar c = false

/-- What does not continue a word ends it. -/
theorem split_of_apart {letters : List Char} {lexemes : List (Lexeme Value)} (h : Apart lexemes) :
    split letters lexemes = flush letters ++ split [] lexemes := by
  match lexemes with
  | [] => simp [split, flush]
  | .char c :: rest => simp [split, flush, h c rfl]
  | .name text :: rest => simp [split, flush]
  | .literal text :: rest => simp [split, flush]
  | .hole value :: rest => simp [split, flush]
  | .unclosed :: rest => simp [split, flush]

end Token

namespace Reading

/-- Tokens that close all their parentheses, and the items that they are. -/
inductive Reads : List Token → List Item → Prop
  | nil : Reads [] []
  | token {t : Token} {tokens : List Token} {items : List Item} (hopens : t.opens = false)
      (hcloses : t.closes = false) (rest : Reads tokens items) : Reads (t :: tokens) (.token t :: items)
  | enclosed {inside tokens : List Token} {members items : List Item} (inner : Reads inside members)
      (rest : Reads tokens items) :
      Reads (.mark '(' :: inside ++ .mark ')' :: tokens) (enclose members :: items)

theorem Reads.append {a b : List Token} {as bs : List Item} (ha : Reads a as) (hb : Reads b bs) :
    Reads (a ++ b) (as ++ bs) := by
  induction ha with
  | nil => exact hb
  | token hopens hcloses _ ih => exact .token hopens hcloses ih
  | enclosed inner _ _ ih =>
      rw [List.append_assoc, List.cons_append]
      exact .enclosed inner ih

theorem nest_token {t : Token} (hopens : t.opens = false) (hcloses : t.closes = false) (items : List Item)
    (around : List (List Item)) (rest : List Token) :
    nest items around (t :: rest) = nest (items ++ [.token t]) around rest := by
  rw [nest.eq_def]
  simp only [hopens, hcloses, Bool.false_eq_true, if_false]

theorem nest_open (items : List Item) (around : List (List Item)) (rest : List Token) :
    nest items around (.mark '(' :: rest) = nest [] (items :: around) rest := by
  rw [nest.eq_def]
  rfl

theorem nest_close (items before : List Item) (around : List (List Item)) (rest : List Token) :
    nest items (before :: around) (.mark ')' :: rest) = nest (before ++ [enclose items]) around rest := by
  rw [nest.eq_def]
  rfl

/-- Wherever they stand, such tokens are read as their items. -/
theorem Reads.nest_append {tokens : List Token} {read : List Item} (h : Reads tokens read) (items : List Item)
    (around : List (List Item)) (rest : List Token) :
    nest items around (tokens ++ rest) = nest (items ++ read) around rest := by
  induction h generalizing items around rest with
  | nil => rw [List.nil_append, List.append_nil]
  | token hopens hcloses _ ih =>
      rw [List.cons_append, nest_token hopens hcloses, ih, List.append_assoc]
      rfl
  | @enclosed inside tokens members read inner _ hinner ih =>
      calc
        _ = nest [] (items :: around) (inside ++ .mark ')' :: (tokens ++ rest)) := by
            rw [List.append_assoc, List.cons_append, List.cons_append, nest_open]
        _ = nest members (items :: around) (.mark ')' :: (tokens ++ rest)) := hinner _ _ _
        _ = nest (items ++ [enclose members]) around (tokens ++ rest) := nest_close ..
        _ = _ := by
            rw [ih, List.append_assoc]
            rfl

/-- What tokens are read as on their own. -/
theorem Reads.condition? {tokens : List Token} {items : List Item} (h : Reads tokens items) :
    condition? tokens = assemble items := by
  have hnest := h.nest_append [] [] []
  rw [List.append_nil, List.nil_append] at hnest
  rw [Reading.condition?, hnest, nest.eq_def]
  rfl

/-! ### Operands -/

/-- Items that stay together as one operand, or within one. -/
def Whole (items : List Item) : Prop :=
  ∀ rest, operands false (items ++ rest) = (items ++ (operands false rest).1, (operands false rest).2)

theorem Whole.append {a b : List Item} (ha : Whole a) (hb : Whole b) : Whole (a ++ b) := by
  intro rest
  rw [List.append_assoc, ha, hb, List.append_assoc]

theorem whole_of_isOperand {items : List Item} (h : ∀ i ∈ items, i.isOperand) : Whole items := by
  induction items with
  | nil => exact fun rest => rfl
  | cons i items ih =>
      intro rest
      have hrest := ih (fun j hj => h j (List.mem_cons_of_mem _ hj)) rest
      have hi := h i List.mem_cons_self
      cases i with
      | token t =>
          simp only [Item.isOperand, Bool.and_eq_true, Bool.not_eq_true'] at hi
          obtain ⟨⟨hand, hor⟩, hbetween⟩ := hi
          simp [operands, hand, hor, hbetween, hrest]
      | enclosed tokens reading => simp [operands, hrest]

/-- An operand of its own is cut off behind it. -/
theorem Whole.operands_self {items : List Item} (h : Whole items) : operands false items = (items, []) := by
  have hself := h []
  rwa [List.append_nil, operands, List.append_nil] at hself

/-- A connective as a token. -/
def connectiveToken : Connective → Token
  | .and => .word "AND".toList
  | .or => .word "OR".toList

theorem Whole.operands_connective {items : List Item} (h : Whole items) (connective : Connective)
    (rest : List Item) :
    operands false (items ++ .token (connectiveToken connective) :: rest) =
      (items, (connective, (operands false rest).1) :: (operands false rest).2) := by
  rw [h]
  cases connective <;> simp [operands, connectiveToken, Token.isAnd, Token.isOr]

/-- Operands behind connectives in a row. -/
def row (members : List (Connective × List Item)) : List Item :=
  members.flatMap fun (connective, items) => .token (connectiveToken connective) :: items

theorem operands_row {items : List Item} (h : Whole items) {members : List (Connective × List Item)}
    (hmembers : ∀ member ∈ members, Whole member.2) : operands false (items ++ row members) = (items, members) := by
  induction members generalizing items with
  | nil => rw [row, List.flatMap_nil, List.append_nil, h.operands_self]
  | cons member members ih =>
      obtain ⟨connective, others⟩ := member
      have hrest := ih (hmembers _ List.mem_cons_self) fun m hm => hmembers m (List.mem_cons_of_mem _ hm)
      rw [row, List.flatMap_cons, List.cons_append, h.operands_connective, ← row, hrest]

end Reading

end Polyquery.Sql
