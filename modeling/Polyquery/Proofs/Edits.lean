import Polyquery.Proofs.Engine
import Polyquery.Proofs.Insertions
import Polyquery.Proofs.LegibleCommand

/-! What statements write, read back: rows that are added, columns that get new values where a condition holds, and rows that
are removed where one does. Main statements: what is compiled to write values is read off its text and its parameters, and so
what an engine makes of it is decided by them. -/

namespace Polyquery

open Sql Fragment

/-- Whether a request writes values; one for documents writes expressions. -/
def Request.writesValues : Request → Bool
  | insert .. | upsert .. | update .. | delete .. | restore .. => true
  | select .. | jsonUpdate .. => false

namespace Sql

/-- What a text does to one table. A condition may be missing. -/
inductive Edit where
  | insertion (i : Insertion)
  | change (table : String) (cells : List (String × Value)) (condition : Option (Expr (List Token)))
  | removal (table : String) (condition : Option (Expr (List Token)))

/-- Columns that are set to values. -/
def Change.setting (cells : List (String × Value)) : List (String × Assigned) :=
  cells.map fun (column, value) => (column, .value value)

namespace Edit

open Token

/-! ### The grammar -/

/-- A column, and the value that it is set to. -/
def cell? : List Token → Option (String × Value)
  | [.name column, .mark '=', .param value] => some (String.ofList column, value)
  | _ => none

/-- The condition behind its keyword; none where nothing follows. -/
def where? (tokens : List Token) : Option (Option (Expr (List Token))) :=
  if tokens.isEmpty then some none
  else (Span.behind? ["WHERE"] tokens).bind fun tokens => (Reading.condition? tokens).map some

def change? (tokens : List Token) : Option Edit := do
  let tokens ← Span.behind? ["UPDATE"] tokens
  let table ← reference? (tokens.takeWhile (!·.isWord))
  let tokens ← Span.behind? ["SET"] (tokens.dropWhile (!·.isWord))
  let cells ← members? cell? (tokens.takeWhile (!·.isWord))
  pure (.change table cells (← where? (tokens.dropWhile (!·.isWord))))

def removal? (tokens : List Token) : Option Edit := do
  let tokens ← Span.behind? ["DELETE", "FROM"] tokens
  let table ← reference? (tokens.takeWhile (!·.isWord))
  pure (.removal table (← where? (tokens.dropWhile (!·.isWord))))

/-- What tokens write. -/
def ofTokens? (d : Dialect) (tokens : List Token) : Option Edit :=
  (((Insertion.ofTokens? d tokens).map insertion).or (change? tokens)).or (removal? tokens)

/-- What a text writes with its parameters. -/
def read? (d : Dialect) (text : String) (params : List Value) : Option Edit :=
  (readTokens d text params).bind (ofTokens? d)

/-- The edit that a command is, with its condition as it is read. -/
inductive IsOf (d : Dialect) : Edit → Command → Prop
  | insertion (i : Insertion) : IsOf d (.insertion i) (.insert i)
  | change (table : String) (cells : List (String × Value)) {chain : Chain} {condition : Option (Expr (List Token))}
      (h : readCondition d (chain.fragment.text d) chain.fragment.params = some condition) :
      IsOf d (.change table cells condition) (.update ⟨table, Change.setting cells, chain⟩)
  | removal (table : String) {chain : Chain} {condition : Option (Expr (List Token))}
      (h : readCondition d (chain.fragment.text d) chain.fragment.params = some condition) :
      IsOf d (.removal table condition) (.delete ⟨table, chain⟩)

/-! ### Conditions behind their keyword -/

variable {d : Dialect} {chain : Chain}

/-- A condition in a statement is read as it is by itself. -/
theorem where?_tokens (h : ∀ member ∈ chain, member.2.Readable d) :
    where? ((whereClause chain).tokens d) = readCondition d (chain.fragment.text d) chain.fragment.params := by
  by_cases hne : chain = []
  · subst hne
    have hempty : Fragment.Legible d (Chain.fragment []) := Fragment.legible_nil d
    rw [readCondition, hempty.readLexemes]
    rfl
  · have hsentence := Condition.ReadableMembers.sentence chain hne (Condition.readableMembers_iff.2 h)
    obtain ⟨items, hreads, hitems⟩ := hsentence.reads
    have htokens : (whereClause chain).tokens d = keywords ["WHERE"] ++ chain.fragment.tokens d := by
      rw [whereClause, List.isEmpty_eq_false_iff.2 hne, if_neg Bool.false_ne_true]
      exact tokens_words_cons d _ ⟨' ', by decide⟩
    have hread : Reading.condition? (chain.fragment.tokens d) = some (Condition.chainExpr d chain) := by
      rw [Chain.fragment, hreads.condition?, hitems]
    calc where? ((whereClause chain).tokens d)
        = (Span.behind? ["WHERE"] (keywords ["WHERE"] ++ chain.fragment.tokens d)).bind fun tokens =>
            (Reading.condition? tokens).map some := by
          rw [htokens]
          rfl
      _ = some (some (Condition.chainExpr d chain)) := by
          rw [Span.behind?_keywords, Option.bind_some, hread, Option.map_some]
      _ = _ := hsentence.readCondition.symm

theorem word_whereClause (d : Dialect) (chain : Chain) : ∀ t ∈ ((whereClause chain).tokens d).head?, t.isWord = true := by
  rw [whereClause]
  split
  · exact fun t ht => absurd ht (Option.not_mem_none t)
  · rw [tokens_words_cons d _ ⟨' ', by decide⟩]
    rintro _ ⟨⟩
    rfl

/-! ### Changes and removals -/

variable {condition : Option (Expr (List Token))}

theorem ofTokens?_insertion {i : Insertion} (h : i.Filled d) : ofTokens? d ((i.fragment d).tokens d) = some (.insertion i) := by
  rw [ofTokens?, Insertion.ofTokens?_tokens h]
  rfl

theorem tokens_removal (d : Dialect) (r : Removal) :
    r.fragment.tokens d =
      keywords ["DELETE", "FROM"] ++ ((reference r.table).tokens d ++ (whereClause r.condition).tokens d) := by
  rw [Removal.fragment, tokens_append d _ (bordered_whereClause r.condition), tokens_words_cons d _ ⟨' ', by decide⟩,
    List.append_assoc]
  rfl

/-- A removal is read as it is. -/
theorem ofTokens?_removal {table : String} (h : ∀ member ∈ chain, member.2.Readable d)
    (hread : readCondition d (chain.fragment.text d) chain.fragment.params = some condition) :
    ofTokens? d ((Removal.fragment ⟨table, chain⟩).tokens d) = some (.removal table condition) := by
  have hother : ∀ rest, ((Insertion.ofTokens? d (keywords ["DELETE", "FROM"] ++ rest)).map insertion).or
      (change? (keywords ["DELETE", "FROM"] ++ rest)) = none := fun _ => rfl
  have htable := Insertion.word_reference d table
  have hwhere := word_whereClause d chain
  rw [ofTokens?, tokens_removal, hother, Option.none_or, removal?]
  simp only [Option.bind_eq_bind, Option.bind_some, Span.behind?_keywords]
  rw [takeWhile_front htable hwhere, dropWhile_front htable hwhere, reference?_tokens, where?_tokens h, hread]
  rfl

theorem tokens_change (d : Dialect) (c : Change) :
    c.fragment.tokens d = keywords ["UPDATE"] ++ ((reference c.table).tokens d ++ (keywords ["SET"] ++
      ((separated ", " (c.assignments.map Change.assignment)).tokens d ++ (whereClause c.condition).tokens d))) := by
  have hset : Bordered (.words " SET " :: separated ", " (c.assignments.map Change.assignment)) := bordered_words (by decide)
  rw [Change.fragment, tokens_append d _ (bordered_whereClause c.condition), tokens_append d _ hset,
    tokens_words_cons d _ ⟨' ', by decide⟩, tokens_words_cons d _ ⟨' ', by decide⟩]
  simp only [List.append_assoc]
  rfl

/-- Columns that are set to values, as they are written. -/
theorem map_assignment_setting (cells : List (String × Value)) :
    (Change.setting cells).map Change.assignment = cells.map fun cell => [.name cell.1, .words " = ", .bind cell.2] := by
  rw [Change.setting, List.map_map]
  rfl

theorem tokens_cell (d : Dialect) (cell : String × Value) :
    tokens d [.name cell.1, .words " = ", .bind cell.2] = [.name cell.1.toList, .mark '=', .param cell.2] := rfl

theorem members?_setting (d : Dialect) {cells : List (String × Value)} (hne : cells ≠ []) :
    members? cell? ((separated ", " ((Change.setting cells).map Change.assignment)).tokens d) = some cells := by
  rw [map_assignment_setting]
  refine members?_commas hne (fun cell _ => ?_) fun cell _ => ?_
  · rw [tokens_cell, cell?, String.ofList_toList]
  · rw [tokens_cell]
    exact List.forall_mem_cons.2 ⟨rfl, List.forall_mem_cons.2 ⟨by decide, List.forall_mem_singleton.2 rfl⟩⟩

theorem word_setting (d : Dialect) (cells : List (String × Value)) :
    ∀ t ∈ (separated ", " ((Change.setting cells).map Change.assignment)).tokens d, t.isWord = false := by
  rw [map_assignment_setting]
  refine forall_tokens_commas rfl (List.forall_mem_map.2 fun cell _ => ?_)
  rw [tokens_cell]
  exact List.forall_mem_cons.2 ⟨rfl, List.forall_mem_cons.2 ⟨rfl, List.forall_mem_singleton.2 rfl⟩⟩

/-- A change that sets columns to values is read as it is. -/
theorem ofTokens?_change {table : String} {cells : List (String × Value)} (hne : cells ≠ [])
    (h : ∀ member ∈ chain, member.2.Readable d)
    (hread : readCondition d (chain.fragment.text d) chain.fragment.params = some condition) :
    ofTokens? d ((Change.fragment ⟨table, Change.setting cells, chain⟩).tokens d) = some (.change table cells condition) := by
  have hother : ∀ rest, Insertion.ofTokens? d (keywords ["UPDATE"] ++ rest) = none := fun _ => rfl
  have hset : ∀ {rest : List Token}, ∀ t ∈ (keywords ["SET"] ++ rest).head?, t.isWord = true := by
    rintro rest _ ⟨⟩
    rfl
  have htable := Insertion.word_reference d table
  have hcells := word_setting d cells
  have hwhere := word_whereClause d chain
  rw [ofTokens?, tokens_change, hother, Option.map_none, Option.none_or, change?]
  simp only [Option.bind_eq_bind, Option.bind_some, Span.behind?_keywords]
  rw [takeWhile_front htable hset, dropWhile_front htable hset]
  simp only [reference?_tokens, Option.bind_some, Span.behind?_keywords]
  rw [takeWhile_front hcells hwhere, dropWhile_front hcells hwhere, members?_setting d hne, where?_tokens h, hread]
  rfl

end Edit

end Sql

/-! ### Requests that write values -/

variable {c : Compiler} {s : Statement}

namespace Compiler

/-- A statement is an edit, and its tokens are read as this edit. -/
def Edits (c : Compiler) (s : Statement) : Prop :=
  ∃ edit : Edit, edit.IsOf c.dialect s.command ∧
    Edit.ofTokens? c.dialect ((s.command.fragment c.dialect).tokens c.dialect) = some edit

theorem setting_of_assigns {values : Row} {assignments : List (String × Assigned)}
    (h : List.Forall₂ Assigns values assignments) :
    ∃ cells, assignments = Change.setting cells ∧ cells.length = values.length := by
  induction h with
  | nil => exact ⟨[], rfl, rfl⟩
  | @cons entry assignment _ _ hentry _ ih =>
      obtain ⟨name, -, rfl⟩ := hentry
      obtain ⟨cells, rfl, hlength⟩ := ih
      exact ⟨(name, entry.2) :: cells, rfl, congrArg (· + 1) hlength⟩

theorem update_edits {q : Query} {values : Row} {operation : Operation} (h : c.update q values operation = .ok s) :
    c.Edits s := by
  obtain ⟨hvalues, assignments, condition, hassignments, hcondition, rfl⟩ := update_parts h
  obtain ⟨cells, rfl, hlength⟩ := setting_of_assigns hassignments
  have hreadable := whereChain_readable hcondition
  obtain ⟨e, hread, -⟩ := Chain.readCondition hreadable
  have hne : cells ≠ [] := by
    rintro rfl
    exact hvalues (List.isEmpty_iff_length_eq_zero.2 hlength.symm)
  exact ⟨_, .change _ cells hread, Edit.ofTokens?_change hne hreadable hread⟩

theorem remove_edits {q : Query} {visibility : Visibility} (h : c.remove q visibility = .ok s) : c.Edits s := by
  obtain ⟨condition, hcondition, rfl⟩ := remove_parts h
  have hreadable := whereChain_readable hcondition
  obtain ⟨e, hread, -⟩ := Chain.readCondition hreadable
  exact ⟨_, .removal _ hread, Edit.ofTokens?_removal hreadable hread⟩

theorem edits_of_compile {r : Request} (h : c.compile r = .ok (some s)) (hvalues : r.writesValues) : c.Edits s := by
  have hinsertion : ∀ {i : Insertion}, s.command = .insert i → c.Edits s := by
    intro i hi
    have hfilled := filled_of_compile h hi
    rw [Edits, hi]
    exact ⟨_, .insertion i, Edit.ofTokens?_insertion hfilled⟩
  cases r with
  | insert name rows returning =>
      obtain ⟨i, -, rfl⟩ := insert_parts (eq_ok_of_map_some h)
      exact hinsertion rfl
  | upsert name row conflict update =>
      obtain ⟨-, columns, i, clause, -, -, -, rfl⟩ := upsert_parts (eq_ok_of_map_some h)
      exact hinsertion rfl
  | update q values operation => exact update_edits (eq_ok_of_map_some h)
  | delete q force =>
      rcases delete_cases (eq_ok_of_map_some h) with ⟨_, -, -, hmark⟩ | ⟨-, -, hremove⟩ | ⟨-, hremove⟩
      · exact update_edits hmark
      · exact remove_edits hremove
      · exact remove_edits hremove
  | restore q =>
      obtain ⟨_, -, hmark⟩ := restore_parts h
      exact update_edits hmark
  | select | jsonUpdate => cases hvalues

end Compiler

/-- The tokens of a compiled statement are read off its text and its parameters. -/
theorem readTokens_compiled {r : Request} (hraw : r.RawClosed c.dialect) (h : c.compile r = .ok (some s)) :
    readTokens c.dialect s.sql s.params = some ((s.command.fragment c.dialect).tokens c.dialect) := by
  obtain ⟨hdialect, hlegible⟩ := compile_legible hraw h
  rw [readTokens, Statement.sql, Statement.params, hdialect, hlegible.readLexemes, Option.map_some, Statement.fragment, hdialect]
  rfl

/-- What a compiled request writes is read off its text and its parameters. -/
theorem edit_read {r : Request} (h : c.compile r = .ok (some s)) (hvalues : r.writesValues) :
    ∃ edit : Edit, edit.IsOf c.dialect s.command ∧ Edit.read? c.dialect s.sql s.params = some edit := by
  obtain ⟨edit, hof, hread⟩ := Compiler.edits_of_compile h hvalues
  have hraw : r.RawClosed c.dialect := by
    cases r with
    | select => cases hvalues
    | _ => trivial
  refine ⟨edit, hof, ?_⟩
  rw [Edit.read?, readTokens_compiled hraw h, Option.bind_some, hread]

/-- A removal without a condition takes all rows of its table away. -/
example : Edit.read? .mysql "DELETE FROM `shop`.`orders`" [] = some (.removal "shop.orders" none) := rfl

namespace Engine

variable (E : Engine)

theorem meets_of_read {d : Dialect} {chain : Chain} {condition : Option (Expr (List Token))}
    (h : readCondition d (chain.fragment.text d) chain.fragment.params = some condition) (row : Row) :
    E.meets d chain row = decide (Expr.truth (E.truth row) condition = .yes) := by
  rw [meets, h]

/-- Commands that are the same edit have the same effect. -/
theorem effect_eq_of_isOf {d : Dialect} {edit : Edit} {s s' : Statement} (hs : s.dialect = d) (hs' : s'.dialect = d)
    (h : edit.IsOf d s.command) (h' : edit.IsOf d s'.command) (store : Store) : E.effect s store = E.effect s' store := by
  obtain ⟨dialect, operation, command⟩ := s
  obtain ⟨dialect', operation', command'⟩ := s'
  subst hs hs'
  cases h with
  | insertion i =>
      cases h'
      rfl
  | change table cells hread =>
      cases h' with
      | change _ _ hread' => simp only [effect, E.meets_of_read hread, E.meets_of_read hread']
  | removal table hread =>
      cases h' with
      | removal _ hread' => simp only [effect, E.meets_of_read hread, E.meets_of_read hread']

/-- What an engine makes of a compiled request that writes values is decided by its text and its parameters. -/
theorem effect_text {c' : Compiler} {r r' : Request} {s' : Statement} (h : c.compile r = .ok (some s))
    (h' : c'.compile r' = .ok (some s')) (hvalues : r.writesValues) (hvalues' : r'.writesValues)
    (hdialect : c.dialect = c'.dialect) (htext : s.sql = s'.sql) (hparams : s.params = s'.params) (store : Store) :
    E.effect s store = E.effect s' store := by
  obtain ⟨edit, hof, hread⟩ := edit_read h hvalues
  obtain ⟨edit', hof', hread'⟩ := edit_read h' hvalues'
  rw [htext, hparams, hdialect, hread'] at hread
  cases hread
  rw [hdialect] at hof
  exact E.effect_eq_of_isOf ((made_of_compile h).dialect.trans hdialect) (made_of_compile h').dialect hof hof' store

end Engine

end Polyquery
