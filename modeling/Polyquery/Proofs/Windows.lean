import Polyquery.Proofs.Assembled
import Polyquery.Proofs.Subject

/-! Window clauses, read back. Each dialect has a grammar for the clause that bounds a query's rows, and what a clause
asks for is how many rows to pass over and how many to return at most. Main statement: the clause that is written for a
window of natural numbers is read as that window, in every dialect; where a dialect knows no offset without a limit, the
limit that is written is one that no result reaches. -/

namespace Polyquery.Sql

/-- The tokens of a statement's text with its parameters. -/
def readTokens (d : Dialect) (text : String) (params : List Value) : Option (List Token) :=
  (readLexemes d text params).map (Token.split [])

/-- How many rows to pass over, and how many of the others to return, if not all of them. -/
structure Span where
  skipped : Nat
  most : Option Nat
deriving DecidableEq, Repr

namespace Span

/-- The rows of a span. -/
def rows {α : Type} (span : Span) (all : List α) : List α :=
  match span.most with
  | none => all.drop span.skipped
  | some most => (all.drop span.skipped).take most

/-! ### The grammars of window clauses -/

/-- The count that a token spells in decimal digits. -/
def count? : Token → Option Nat
  | .word text => if !text.isEmpty && text.all Char.isDigit then some (Nat.ofDigitChars 10 text 0) else none
  | _ => none

/-- What follows keywords. -/
def behind? : List String → List Token → Option (List Token)
  | [], tokens => some tokens
  | keyword :: keywords, .word text :: tokens => if text = keyword.toList then behind? keywords tokens else none
  | _ :: _, _ => none

/-- The count between keywords, and what follows. -/
def counted? (before after : List String) (tokens : List Token) : Option (Nat × List Token) :=
  match behind? before tokens with
  | some (t :: rest) => (count? t).bind fun n => (behind? after rest).map (n, ·)
  | _ => none

/-- The count between keywords, and what follows; without the first keywords there is no count. -/
def clause (before after : List String) (tokens : List Token) : Option Nat × List Token :=
  match counted? before after tokens with
  | some (n, rest) => (some n, rest)
  | none => (none, tokens)

/-- A limit in `LIMIT n`. -/
def limit : List Token → Option Nat × List Token := clause ["LIMIT"] []

/-- An offset in `OFFSET n`. -/
def offset : List Token → Option Nat × List Token := clause ["OFFSET"] []

/-- An offset in `OFFSET n ROWS`. -/
def offsetRows : List Token → Option Nat × List Token := clause ["OFFSET"] ["ROWS"]

/-- A limit in `FETCH NEXT n ROWS ONLY` or `FETCH FIRST n ROWS ONLY`. -/
def fetch (tokens : List Token) : Option Nat × List Token :=
  match clause ["FETCH", "NEXT"] ["ROWS", "ONLY"] tokens with
  | (some n, rest) => (some n, rest)
  | (none, _) => clause ["FETCH", "FIRST"] ["ROWS", "ONLY"] tokens

/-- What follows `LIMIT -1`, the limit of all rows. -/
def unlimited? (tokens : List Token) : Option (List Token) :=
  match behind? ["LIMIT"] tokens with
  | some (.mark c :: rest) => if c = '-' then behind? ["1"] rest else none
  | _ => none

/-- What follows an order by nothing, in `ORDER BY (SELECT NULL)`. -/
def unordered? (tokens : List Token) : Option (List Token) :=
  match behind? ["ORDER", "BY"] tokens with
  | some (opening :: rest) =>
    match behind? ["SELECT", "NULL"] rest with
    | some (closing :: rest) => if opening.opens && closing.closes then some rest else none
    | _ => none
  | _ => none

/-- The span of a limit and an offset behind which nothing is left. -/
def made? (most : Option Nat) (skipped : Option Nat × List Token) : Option Span :=
  if skipped.2.isEmpty then some ⟨skipped.1.getD 0, most⟩ else none

/-- A limit, and behind it an offset; there is no offset without a limit. -/
def limitThenOffset? (tokens : List Token) : Option Span :=
  match limit tokens with
  | (some n, rest) => made? (some n) (offset rest)
  | (none, rest) => made? none (none, rest)

/-- The span that the clause of a dialect asks for, behind a query that has an order or none. -/
def ofTokens? (d : Dialect) (ordered : Bool) (tokens : List Token) : Option Span :=
  match d with
  | .sqlite =>
    match unlimited? tokens with
    | some rest => made? none (offset rest)
    | none => limitThenOffset? tokens
  | .mysql => limitThenOffset? tokens
  | .postgres => made? (limit tokens).1 (offset (limit tokens).2)
  | .sqlserver =>
    if tokens.isEmpty then some ⟨0, none⟩
    else
      match if ordered then some tokens else unordered? tokens with
      | some tokens =>
        match offsetRows tokens with
        | (some n, rest) => made? (fetch rest).1 (some n, (fetch rest).2)
        | (none, _) => none
      | none => none
  | .ansi =>
    let (skipped, rest) := offsetRows tokens
    made? (fetch rest).1 (skipped, (fetch rest).2)

/-- The span that the text of a clause asks for. -/
def read? (d : Dialect) (ordered : Bool) (text : String) : Option Span :=
  (readTokens d text []).bind (ofTokens? d ordered)

end Span

/-! ### Numerals -/

namespace Token

/-- The word that a number is written as. -/
def numeral (n : Nat) : Token := .word (Nat.toDigits 10 n)

theorem split_letters (letters : List Char) {text : List Char} (h : ∀ c ∈ text, isWordChar c) :
    split letters (text.map .char) = flush (letters ++ text) := by
  induction text generalizing letters with
  | nil => rw [List.append_nil]; rfl
  | cons c text ih =>
      obtain ⟨hc, hrest⟩ := List.forall_mem_cons.1 h
      rw [List.map_cons, split, if_pos hc, ih _ hrest, List.append_assoc]
      rfl

theorem isWordChar_of_isDigit {c : Char} (h : c.isDigit) : isWordChar c := by
  simp [isWordChar, Char.isAlphanum, h]

theorem isDigit_of_mem_toDigits {n : Nat} {c : Char} (h : c ∈ Nat.toDigits 10 n) : c.isDigit :=
  Nat.isDigit_of_mem_toDigits (by decide) (by decide) h

theorem ofText_repr (n : Nat) : ofText n.repr = [numeral n] := by
  have hdigits : ∀ c ∈ Nat.toDigits 10 n, isWordChar c := fun c hc => isWordChar_of_isDigit (isDigit_of_mem_toDigits hc)
  have hne : (Nat.toDigits 10 n).isEmpty = false := List.isEmpty_eq_false_iff.2 Nat.toDigits_ne_nil
  rw [ofText, Nat.toList_repr, split_letters [] hdigits, List.nil_append, flush, hne]
  rfl

theorem count?_numeral (n : Nat) : Span.count? (numeral n) = some n := by
  have hdigits : (Nat.toDigits 10 n).all Char.isDigit := List.all_eq_true.2 fun c hc => isDigit_of_mem_toDigits hc
  have hne : (Nat.toDigits 10 n).isEmpty = false := List.isEmpty_eq_false_iff.2 Nat.toDigits_ne_nil
  rw [numeral, Span.count?, hdigits, hne, Nat.ofDigitChars_toDigits (by decide) (by decide)]
  rfl

/-! ### The tokens of a clause -/

theorem tokens_pair (d : Dialect) (a b : String) :
    Fragment.tokens d (.words a :: Fragment.words b) = ofText (a ++ b) := by
  rw [Fragment.tokens, ofText, String.toList_append, List.map_append, Fragment.lexemes_cons, Fragment.words,
    Fragment.lexemes, List.flatMap_singleton]
  rfl

/-- Words behind a space or a mark have their tokens to themselves. -/
theorem ofText_append {a b : String} (ha : ∃ c, a.toList.getLast? = some c ∧ isWordChar c = false) :
    ofText (a ++ b) = ofText a ++ ofText b := by
  have hcons := Fragment.tokens_words_cons .ansi (Fragment.words b) ha
  rwa [tokens_pair, Fragment.tokens_words] at hcons

/-- So have words before a border. -/
theorem ofText_append_bordered {a b : String} (hb : b.toList ≠ [] ∧ Scan.Bordered b.toList) :
    ofText (a ++ b) = ofText a ++ ofText b := by
  have happend := Fragment.tokens_append .ansi (Fragment.words a) (Fragment.bordered_words (f := []) hb)
  rwa [← Fragment.words, Fragment.tokens_words, Fragment.tokens_words, Fragment.words, List.singleton_append,
    tokens_pair] at happend

/-- Texts with spaces between them have their tokens in a row. -/
theorem ofText_joined (texts : List String) : ofText (Text.joined " " texts) = texts.flatMap ofText := by
  induction texts with
  | nil => rfl
  | cons s texts ih =>
      cases texts with
      | nil => simp [Text.joined]
      | cons next texts =>
          have hjoined : Text.joined " " (s :: next :: texts) = s ++ (" " ++ Text.joined " " (next :: texts)) := by
            simp [Text.joined, String.append_assoc]
          have hspace : (" " ++ Text.joined " " (next :: texts)).toList ≠ [] ∧
              Scan.Bordered (" " ++ Text.joined " " (next :: texts)).toList := by
            simp [String.toList_append, Scan.Bordered, Scan.separators]
          rw [hjoined, ofText_append_bordered hspace, ofText_append ⟨' ', by decide⟩, ih]
          rfl

/-- Keywords as tokens. -/
def keywords (texts : List String) : List Token := texts.map fun text => .word text.toList

/-- A number between keywords. -/
def phrase (before after : List String) (n : Nat) : List Token := keywords before ++ numeral n :: keywords after

theorem ofText_counted {keyword closing : String}
    (hkeyword : ∃ c, keyword.toList.getLast? = some c ∧ isWordChar c = false)
    (hclosing : closing.toList ≠ [] ∧ Scan.Bordered closing.toList) (n : Nat) :
    ofText (keyword ++ toString (n : Int) ++ closing) = ofText keyword ++ numeral n :: ofText closing := by
  have hnumeral : ofText (toString (n : Int)) = [numeral n] := ofText_repr n
  rw [ofText_append_bordered hclosing, ofText_append hkeyword, hnumeral, List.append_assoc, List.singleton_append]

theorem ofText_limit (n : Nat) : ofText ("LIMIT " ++ toString (n : Int)) = phrase ["LIMIT"] [] n := by
  rw [ofText_append ⟨' ', by decide⟩]
  exact congrArg _ (ofText_repr n)

theorem ofText_offset (n : Nat) : ofText ("OFFSET " ++ toString (n : Int)) = phrase ["OFFSET"] [] n := by
  rw [ofText_append ⟨' ', by decide⟩]
  exact congrArg _ (ofText_repr n)

theorem ofText_offsetRows (n : Nat) :
    ofText ("OFFSET " ++ toString (n : Int) ++ " ROWS") = phrase ["OFFSET"] ["ROWS"] n :=
  ofText_counted ⟨' ', by decide⟩ ⟨by decide, by decide⟩ n

theorem ofText_fetchNext (n : Nat) :
    ofText ("FETCH NEXT " ++ toString (n : Int) ++ " ROWS ONLY") = phrase ["FETCH", "NEXT"] ["ROWS", "ONLY"] n :=
  ofText_counted ⟨' ', by decide⟩ ⟨by decide, by decide⟩ n

theorem ofText_fetchFirst (n : Nat) :
    ofText ("FETCH FIRST " ++ toString (n : Int) ++ " ROWS ONLY") = phrase ["FETCH", "FIRST"] ["ROWS", "ONLY"] n :=
  ofText_counted ⟨' ', by decide⟩ ⟨by decide, by decide⟩ n

end Token

open Token

namespace Window

/-- A window of natural numbers. -/
def ofNat (limit offset : Option Nat) : Window := ⟨limit.map fun n : Nat => (n : Int), offset.map fun n : Nat => (n : Int)⟩

/-- The clause of a window is read as the tokens of its parts. -/
theorem readTokens_clause (d : Dialect) (w : Window) (ordered : Bool) :
    readTokens d (w.clause d ordered) [] = some ((w.parts d ordered).flatMap ofText) := by
  have htame : Scan.Tame (w.clause d ordered).toList := Scan.tame_joined (w.tame_parts ordered)
  have hlegible : Fragment.Legible d (Fragment.words (w.clause d ordered)) := (Fragment.legible_nil d).words_cons htame
  have htext : (Fragment.words (w.clause d ordered)).text d = w.clause d ordered := by
    simp [Fragment.text, Fragment.write, Fragment.words, Piece.write]
  have hread := hlegible.readLexemes
  rw [htext, Fragment.params_words] at hread
  rw [readTokens, hread, Option.map_some, ← Fragment.tokens, Fragment.tokens_words, clause, ofText_joined]

end Window

/-- The most rows that a clause for a limit and an offset asks for. -/
def Window.most (d : Dialect) (limit offset : Option Nat) : Option Nat :=
  match d, limit, offset with
  | .mysql, none, some _ => some 18446744073709551615
  | _, limit, _ => limit

namespace Span

theorem behind?_keywords (before : List String) (rest : List Token) : behind? before (keywords before ++ rest) = some rest := by
  induction before with
  | nil => rfl
  | cons keyword before ih => exact (if_pos rfl).trans ih

theorem clause_phrase (before after : List String) (n : Nat) (rest : List Token) :
    clause before after (phrase before after n ++ rest) = (some n, rest) := by
  rw [clause, counted?, phrase, List.append_assoc, List.cons_append, behind?_keywords]
  simp only [count?_numeral, behind?_keywords, Option.bind_some, Option.map_some]

theorem limit_phrase (n : Nat) (rest : List Token) : limit (phrase ["LIMIT"] [] n ++ rest) = (some n, rest) :=
  clause_phrase ["LIMIT"] [] n rest

theorem offset_phrase (n : Nat) (rest : List Token) : offset (phrase ["OFFSET"] [] n ++ rest) = (some n, rest) :=
  clause_phrase ["OFFSET"] [] n rest

theorem offsetRows_phrase (n : Nat) (rest : List Token) :
    offsetRows (phrase ["OFFSET"] ["ROWS"] n ++ rest) = (some n, rest) := clause_phrase ["OFFSET"] ["ROWS"] n rest

theorem fetch_next (n : Nat) (rest : List Token) :
    fetch (phrase ["FETCH", "NEXT"] ["ROWS", "ONLY"] n ++ rest) = (some n, rest) := by
  rw [fetch, clause_phrase]

theorem fetch_first (n : Nat) (rest : List Token) :
    fetch (phrase ["FETCH", "FIRST"] ["ROWS", "ONLY"] n ++ rest) = (some n, rest) := by
  have hnext : (clause ["FETCH", "NEXT"] ["ROWS", "ONLY"]
      (phrase ["FETCH", "FIRST"] ["ROWS", "ONLY"] n ++ rest)).1 = none := rfl
  rw [fetch]
  split
  · simp_all
  · exact clause_phrase ["FETCH", "FIRST"] ["ROWS", "ONLY"] n rest

/-! ### Clauses by dialect -/

theorem ofText_everything :
    ofText ("LIMIT " ++ toString Window.mysqlEverything) = phrase ["LIMIT"] [] 18446744073709551615 :=
  ofText_limit 18446744073709551615

/-- A phrase for a count that may be missing. -/
def optional (before after : List String) (n : Option Nat) : List Token := n.elim [] (phrase before after)

/-- A limit and an offset behind it, as three of the dialects write them. -/
theorem tokens_limited {d : Dialect} (hd : d = .sqlite ∨ d = .mysql ∨ d = .postgres) (ordered : Bool) (l : Nat)
    (offset : Option Nat) : ((Window.ofNat (some l) offset).parts d ordered).flatMap ofText =
      phrase ["LIMIT"] [] l ++ optional ["OFFSET"] [] offset := by
  rcases hd with rfl | rfl | rfl <;> cases offset <;> simp only [Window.ofNat, Window.parts, Option.map_none,
    Option.map_some, Option.toList_none, Option.toList_some, List.nil_append, List.cons_append, List.flatMap_cons,
    List.flatMap_nil, List.append_nil, ofText_limit, ofText_offset, optional, Option.elim_some, Option.elim_none]

theorem made?_offset (most n : Option Nat) :
    made? most (offset (optional ["OFFSET"] [] n)) = some ⟨n.getD 0, most⟩ := by
  cases n with
  | none => rfl
  | some n =>
      rw [optional, Option.elim_some, ← List.append_nil (phrase ["OFFSET"] [] n), offset_phrase]
      rfl

theorem fetch_optional_next (n : Option Nat) : fetch (optional ["FETCH", "NEXT"] ["ROWS", "ONLY"] n) = (n, []) := by
  cases n with
  | none => rfl
  | some n => exact (congrArg fetch (List.append_nil _).symm).trans (fetch_next n [])

theorem fetch_optional_first (n : Option Nat) : fetch (optional ["FETCH", "FIRST"] ["ROWS", "ONLY"] n) = (n, []) := by
  cases n with
  | none => rfl
  | some n => exact (congrArg fetch (List.append_nil _).symm).trans (fetch_first n [])

theorem limitThenOffset?_phrase (l : Nat) (offset : Option Nat) :
    limitThenOffset? (phrase ["LIMIT"] [] l ++ optional ["OFFSET"] [] offset) = some ⟨offset.getD 0, some l⟩ := by
  rw [limitThenOffset?, limit_phrase]
  exact made?_offset (some l) offset

theorem sqlite_clause (ordered : Bool) (limit offset : Option Nat) :
    ofTokens? .sqlite ordered (((Window.ofNat limit offset).parts .sqlite ordered).flatMap ofText) =
      some ⟨offset.getD 0, limit⟩ := by
  cases limit with
  | none =>
      cases offset with
      | none => rfl
      | some o =>
          have htokens : ((Window.ofNat none (some o)).parts .sqlite ordered).flatMap ofText =
              ofText "LIMIT -1" ++ optional ["OFFSET"] [] (some o) := by
            simp only [Window.ofNat, Window.parts, Option.map_none, Option.map_some, List.flatMap_cons, List.flatMap_nil,
              List.append_nil, ofText_offset, optional, Option.elim_some]
          have hunlimited : unlimited? (ofText "LIMIT -1" ++ optional ["OFFSET"] [] (some o)) =
              some (optional ["OFFSET"] [] (some o)) := rfl
          rw [htokens, ofTokens?, hunlimited]
          exact made?_offset none (some o)
  | some l =>
      have hlimited : unlimited? (phrase ["LIMIT"] [] l ++ optional ["OFFSET"] [] offset) = none := rfl
      rw [tokens_limited (.inl rfl), ofTokens?, hlimited]
      exact limitThenOffset?_phrase l offset

theorem mysql_clause (ordered : Bool) (limit offset : Option Nat) :
    ofTokens? .mysql ordered (((Window.ofNat limit offset).parts .mysql ordered).flatMap ofText) =
      some ⟨offset.getD 0, Window.most .mysql limit offset⟩ := by
  cases limit with
  | none =>
      cases offset with
      | none => rfl
      | some o =>
          have htokens : ((Window.ofNat none (some o)).parts .mysql ordered).flatMap ofText =
              phrase ["LIMIT"] [] 18446744073709551615 ++ optional ["OFFSET"] [] (some o) := by
            simp only [Window.ofNat, Window.parts, Option.map_none, Option.map_some, List.flatMap_cons, List.flatMap_nil,
              List.append_nil, ofText_everything, ofText_offset, optional, Option.elim_some]
          rw [htokens]
          exact limitThenOffset?_phrase 18446744073709551615 (some o)
  | some l =>
      rw [tokens_limited (.inr (.inl rfl))]
      exact limitThenOffset?_phrase l offset

theorem postgres_clause (ordered : Bool) (limit offset : Option Nat) :
    ofTokens? .postgres ordered (((Window.ofNat limit offset).parts .postgres ordered).flatMap ofText) =
      some ⟨offset.getD 0, limit⟩ := by
  have hlimit : Span.limit (((Window.ofNat limit offset).parts .postgres ordered).flatMap ofText) =
      (limit, optional ["OFFSET"] [] offset) := by
    cases limit with
    | none =>
        cases offset with
        | none => rfl
        | some o =>
            have htokens : ((Window.ofNat none (some o)).parts .postgres ordered).flatMap ofText =
                phrase ["OFFSET"] [] o := (List.append_nil _).trans (ofText_offset o)
            rw [htokens]
            rfl
    | some l =>
        rw [tokens_limited (.inr (.inr rfl))]
        exact limit_phrase l _
  rw [ofTokens?, hlimit]
  exact made?_offset limit offset

theorem ansi_clause (ordered : Bool) (limit offset : Option Nat) :
    ofTokens? .ansi ordered (((Window.ofNat limit offset).parts .ansi ordered).flatMap ofText) =
      some ⟨offset.getD 0, limit⟩ := by
  have htokens : ((Window.ofNat limit offset).parts .ansi ordered).flatMap ofText =
      optional ["OFFSET"] ["ROWS"] offset ++ optional ["FETCH", "FIRST"] ["ROWS", "ONLY"] limit := by
    cases limit <;> cases offset <;> simp only [Window.ofNat, Window.parts, Option.map_none, Option.map_some,
      Option.toList_none, Option.toList_some, List.nil_append, List.cons_append, List.flatMap_cons, List.flatMap_nil,
      List.append_nil, ofText_offsetRows, ofText_fetchFirst, optional, Option.elim_some, Option.elim_none]
  have hoffset : offsetRows (optional ["OFFSET"] ["ROWS"] offset ++ optional ["FETCH", "FIRST"] ["ROWS", "ONLY"] limit) =
      (offset, optional ["FETCH", "FIRST"] ["ROWS", "ONLY"] limit) := by
    cases offset with
    | none => cases limit <;> rfl
    | some o => exact offsetRows_phrase o _
  rw [htokens, ofTokens?, hoffset]
  dsimp only
  rw [fetch_optional_first]
  rfl

theorem sqlserver_clause (ordered : Bool) (limit offset : Option Nat) :
    ofTokens? .sqlserver ordered (((Window.ofNat limit offset).parts .sqlserver ordered).flatMap ofText) =
      some ⟨offset.getD 0, limit⟩ := by
  by_cases hempty : limit = none ∧ offset = none
  · obtain ⟨rfl, rfl⟩ := hempty
    rfl
  · have hbounded : ((limit.map fun n : Nat => (n : Int)).isNone && (offset.map fun n : Nat => (n : Int)).isNone) = false := by
      cases limit <;> cases offset <;> simp_all
    have hskipped : (offset.map fun n : Nat => (n : Int)).getD 0 = ((offset.getD 0 : Nat) : Int) := by
      cases offset <;> rfl
    have htokens : ((Window.ofNat limit offset).parts .sqlserver ordered).flatMap ofText =
        (if ordered then [] else ofText "ORDER BY (SELECT NULL)") ++
          (phrase ["OFFSET"] ["ROWS"] (offset.getD 0) ++ optional ["FETCH", "NEXT"] ["ROWS", "ONLY"] limit) := by
      simp only [Window.ofNat, Window.parts, hbounded, hskipped, Bool.false_eq_true, if_false, List.flatMap_append,
        List.flatMap_cons, List.flatMap_nil, List.append_nil, ofText_offsetRows, List.append_assoc]
      congr 1
      · cases ordered <;> rfl
      · cases limit with
        | none => rfl
        | some l => exact congrArg _ ((List.append_nil _).trans (ofText_fetchNext l))
    have horder : (if ordered then some (((Window.ofNat limit offset).parts .sqlserver ordered).flatMap ofText)
        else unordered? (((Window.ofNat limit offset).parts .sqlserver ordered).flatMap ofText)) =
        some (phrase ["OFFSET"] ["ROWS"] (offset.getD 0) ++ optional ["FETCH", "NEXT"] ["ROWS", "ONLY"] limit) := by
      rw [htokens]
      cases ordered <;> rfl
    have hne : (((Window.ofNat limit offset).parts .sqlserver ordered).flatMap ofText).isEmpty = false := by
      rw [htokens]
      cases ordered <;> rfl
    rw [ofTokens?, hne, horder]
    dsimp only
    rw [offsetRows_phrase]
    dsimp only
    rw [fetch_optional_next]
    rfl

/-- The parts of a window's clause are read as the window. -/
theorem ofTokens?_parts (d : Dialect) (ordered : Bool) (limit offset : Option Nat) :
    ofTokens? d ordered (((Window.ofNat limit offset).parts d ordered).flatMap ofText) =
      some ⟨offset.getD 0, Window.most d limit offset⟩ := by
  cases d with
  | sqlite => exact sqlite_clause ordered limit offset
  | mysql => exact mysql_clause ordered limit offset
  | postgres => exact postgres_clause ordered limit offset
  | sqlserver => exact sqlserver_clause ordered limit offset
  | ansi => exact ansi_clause ordered limit offset

/-- The clause of a window is read as the window. -/
theorem read?_clause (d : Dialect) (ordered : Bool) (limit offset : Option Nat) :
    read? d ordered ((Window.ofNat limit offset).clause d ordered) =
      some ⟨offset.getD 0, Window.most d limit offset⟩ := by
  rw [read?, Window.readTokens_clause, Option.bind_some, ofTokens?_parts]

/-- The limit of all rows in one dialect is a number below zero in the next, and not read there. -/
example : Span.read? .sqlite true "LIMIT -1 OFFSET 3" = some ⟨3, none⟩ ∧
    Span.read? .postgres true "LIMIT -1 OFFSET 3" = none :=
  ⟨rfl, rfl⟩

end Span

end Polyquery.Sql
