import Polyquery.Proofs.Made
import Polyquery.Proofs.Members

/-! Insertions, read back: the table, the columns, the rows of values, the columns that are returned, and what becomes of rows
that are there already. Main statements: an insertion whose lists have members is read off its tokens, and one that is
compiled has members in all of them. -/

namespace Polyquery

open Sql Fragment

namespace Sql

namespace Token

def isWord : Token → Bool
  | word _ => true
  | _ => false

/-- What a pair of parentheses encloses, and what stands behind it. -/
def enclosed? : List Token → Option (List Token × List Token)
  | [] => none
  | opening :: rest =>
    match rest.dropWhile (!·.closes) with
    | [] => none
    | _ :: behind => if opening.opens then some (rest.takeWhile (!·.closes), behind) else none

end Token

open Token

namespace Insertion

/-! ### The grammar -/

/-- Rows of values, the first of which has begun. -/
def rowsFrom? (begun : List Value) : List Token → Option (List (List Value))
  | .param value :: .mark ',' :: rest => rowsFrom? (begun ++ [value]) rest
  | .param value :: .mark ')' :: .mark ',' :: .mark '(' :: rest => (rowsFrom? [] rest).map ((begun ++ [value]) :: ·)
  | [.param value, .mark ')'] => some [begun ++ [value]]
  | _ => none

/-- Rows of values, each between parentheses. -/
def rows? : List Token → Option (List (List Value))
  | .mark '(' :: rest => rowsFrom? [] rest
  | _ => none

/-- The columns that are returned, and what stands behind them. -/
def returning? (tokens : List Token) : Option (List String × List Token) :=
  match Span.behind? ["RETURNING"] tokens with
  | none => some ([], tokens)
  | some tokens => (members? reference? (tokens.takeWhile (!·.isWord))).map (·, tokens.dropWhile (!·.isWord))

/-- The column that is set to the value which the new row has for it. -/
def proposed? (d : Dialect) (tokens : List Token) : Option String :=
  match d, tokens with
  | .mysql, [.name column, .mark '=', .word function, .mark '(', .name proposed, .mark ')'] =>
    if column = proposed ∧ function = "VALUES".toList then some (String.ofList column) else none
  | .mysql, _ => none
  | _, [.name column, .mark '=', .word row, .mark '.', .name proposed] =>
    if column = proposed ∧ (row = "excluded".toList ∨ row = "EXCLUDED".toList) then some (String.ofList column) else none
  | _, _ => none

/-- The clause for conflicts that tokens are. -/
def clause? (d : Dialect) (tokens : List Token) : Option Conflict :=
  if d = .mysql then do
    let assignments ← Span.behind? ["ON", "DUPLICATE", "KEY", "UPDATE"] tokens
    pure ⟨[], ← members? (proposed? d) assignments⟩
  else do
    let (names, tokens) ← enclosed? (← Span.behind? ["ON", "CONFLICT"] tokens)
    let assignments ← Span.behind? ["DO", "UPDATE", "SET"] tokens
    pure ⟨← members? name? names, ← members? (proposed? d) assignments⟩

/-- What becomes of rows that are there already; without a clause nothing does. -/
def conflict? (d : Dialect) (tokens : List Token) : Option (Option Conflict) :=
  if tokens.isEmpty then some none else (clause? d tokens).map some

/-- The insertion that tokens are. -/
def ofTokens? (d : Dialect) (tokens : List Token) : Option Insertion := do
  let tokens ← Span.behind? ["INSERT", "INTO"] tokens
  let table ← reference? (tokens.takeWhile (!·.opens))
  let (names, tokens) ← enclosed? (tokens.dropWhile (!·.opens))
  let columns ← members? name? names
  let tokens ← Span.behind? ["VALUES"] tokens
  let rows ← rows? (tokens.takeWhile (!·.isWord))
  let (returning, tokens) ← returning? (tokens.dropWhile (!·.isWord))
  let conflict ← conflict? d tokens
  pure { table, columns, rows, returning, conflict }

end Insertion

/-- A clause for conflicts whose lists have members; the columns are named where the dialect names them. -/
structure Conflict.Filled (d : Dialect) (c : Conflict) : Prop where
  columns : c.columns = [] ↔ d = .mysql
  update : c.update ≠ []

/-- An insertion whose lists have members. -/
structure Insertion.Filled (d : Dialect) (i : Insertion) : Prop where
  columns : i.columns ≠ []
  rows : i.rows ≠ []
  cells : ∀ cells ∈ i.rows, cells ≠ []
  conflict : ∀ clause ∈ i.conflict, clause.Filled d

variable {d : Dialect}

theorem Token.enclosed?_parentheses {inside : List Token} (h : ∀ t ∈ inside, t.closes = false) (behind : List Token) :
    enclosed? (.mark '(' :: (inside ++ .mark ')' :: behind)) = some (inside, behind) := by
  have hclosing : ∀ t ∈ (Token.mark ')' :: behind).head?, t.closes = true := by
    rintro _ ⟨⟩
    rfl
  rw [enclosed?, dropWhile_front h hclosing, takeWhile_front h hclosing]
  rfl

theorem Fragment.closes_nameList (d : Dialect) (names : List String) : ∀ t ∈ (nameList names).tokens d, t.closes = false :=
  forall_tokens_commas rfl (List.forall_mem_map.2 fun _ _ => List.forall_mem_singleton.2 rfl)

namespace Insertion

/-! ### Rows -/

theorem tokens_bindList_cons (d : Dialect) (value : Value) {values : List Value} (h : values ≠ []) :
    (bindList (value :: values)).tokens d = .param value :: .mark ',' :: (bindList values).tokens d :=
  tokens_commas_cons d [.bind value] (mt List.map_eq_nil_iff.1 h)

/-- All values of a row but the last have a comma behind them. -/
theorem rowsFrom?_bindList (d : Dialect) (begun values : List Value) (last : Value) (rest : List Token) :
    rowsFrom? begun ((bindList (values ++ [last])).tokens d ++ rest) = rowsFrom? (begun ++ values) (.param last :: rest) := by
  induction values generalizing begun with
  | nil => rw [List.append_nil]; rfl
  | cons value values ih =>
      have hne : values ++ [last] ≠ [] := List.append_ne_nil_of_right_ne_nil _ (List.cons_ne_nil _ _)
      rw [List.cons_append, tokens_bindList_cons d value hne, List.cons_append, List.cons_append, rowsFrom?, ih,
        List.append_assoc, List.singleton_append]

theorem tokens_row (d : Dialect) (cells : List Value) :
    (row cells).tokens d = .mark '(' :: ((bindList cells).tokens d ++ [.mark ')']) := by
  have hclosing : Bordered (words ")") := bordered_words (f := []) (by decide)
  rw [row, tokens_append d _ hclosing, tokens_words_cons d _ ⟨'(', by decide⟩, tokens_words]
  rfl

theorem tokens_rows_cons (d : Dialect) (cells : List Value) {rows : List (List Value)} (h : rows ≠ []) :
    (separated ", " ((cells :: rows).map row)).tokens d =
      .mark '(' :: ((bindList cells).tokens d ++ .mark ')' :: .mark ',' :: (separated ", " (rows.map row)).tokens d) := by
  rw [List.map_cons, tokens_commas_cons d _ (mt List.map_eq_nil_iff.1 h), tokens_row, List.cons_append, List.append_assoc]
  rfl

theorem exists_tokens_rows (d : Dialect) {rows : List (List Value)} (h : rows ≠ []) :
    ∃ rest, (separated ", " (rows.map row)).tokens d = .mark '(' :: rest := by
  match rows with
  | [cells] => exact ⟨_, tokens_row d cells⟩
  | cells :: next :: rows => exact ⟨_, tokens_rows_cons d cells (List.cons_ne_nil next rows)⟩

/-- Rows are read as they are. -/
theorem rows?_tokens (d : Dialect) {rows : List (List Value)} (hne : rows ≠ []) (hcells : ∀ cells ∈ rows, cells ≠ []) :
    rows? ((separated ", " (rows.map row)).tokens d) = some rows := by
  induction rows with
  | nil => exact absurd rfl hne
  | cons cells rows ih =>
      obtain ⟨hfirst, hothers⟩ := List.forall_mem_cons.1 hcells
      obtain ⟨values, last, rfl⟩ : ∃ values last, cells = values ++ [last] :=
        ⟨_, _, (List.dropLast_append_getLast hfirst).symm⟩
      by_cases hrows : rows = []
      · subst hrows
        rw [List.map_singleton, Fragment.separated, tokens_row, rows?, rowsFrom?_bindList]
        rfl
      · have hread := ih hrows hothers
        obtain ⟨rest, hrest⟩ := exists_tokens_rows d hrows
        rw [hrest, rows?] at hread
        have hclosed : rowsFrom? ([] ++ values) (.param last :: .mark ')' :: .mark ',' :: .mark '(' :: rest) =
            (rowsFrom? [] rest).map ((values ++ [last]) :: ·) := rfl
        rw [tokens_rows_cons d _ hrows, hrest, rows?, rowsFrom?_bindList, hclosed, hread]
        rfl

/-! ### Clauses behind the rows -/

theorem proposed?_assignment (d : Dialect) (column : String) :
    proposed? d ((Conflict.assignment d column).tokens d) = some column := by
  have hread : ∀ {P : Prop} [Decidable P], P → (if P then some (String.ofList column.toList) else none) = some column := by
    intro P _ h
    rw [if_pos h, String.ofList_toList]
  cases d with
  | mysql => exact hread ⟨rfl, rfl⟩
  | postgres => exact hread ⟨rfl, .inr rfl⟩
  | sqlite | sqlserver | ansi => exact hread ⟨rfl, .inl rfl⟩

/-- The new value of another column makes no assignment. -/
example : proposed? .sqlite [.name ['n'], .mark '=', .word "excluded".toList, .mark '.', .name ['m']] = none := rfl

theorem comma_assignment (d : Dialect) (column : String) :
    ∀ t ∈ (Conflict.assignment d column).tokens d, t.isMark ',' = false := by
  have hall : ((Conflict.assignment d column).tokens d).all (!·.isMark ',') = true := by cases d <;> rfl
  intro t ht
  rw [← Bool.not_eq_true']
  exact List.all_eq_true.1 hall t ht

theorem members?_assignments (d : Dialect) {update : List String} (h : update ≠ []) :
    members? (proposed? d) ((separated ", " (update.map (Conflict.assignment d))).tokens d) = some update :=
  members?_commas h (fun column _ => proposed?_assignment d column) fun column _ => comma_assignment d column

theorem tokens_clause_mysql (c : Conflict) :
    (c.fragment .mysql).tokens .mysql = keywords ["ON", "DUPLICATE", "KEY", "UPDATE"] ++
      (separated ", " (c.update.map (Conflict.assignment .mysql))).tokens .mysql :=
  tokens_words_cons _ _ ⟨' ', by decide⟩

theorem tokens_clause (c : Conflict) (hd : d ≠ .mysql) :
    (c.fragment d).tokens d = keywords ["ON", "CONFLICT"] ++ .mark '(' :: ((nameList c.columns).tokens d ++
      .mark ')' :: (keywords ["DO", "UPDATE", "SET"] ++ (separated ", " (c.update.map (Conflict.assignment d))).tokens d)) := by
  have hset : Bordered (.words ") DO UPDATE SET " :: separated ", " (c.update.map (Conflict.assignment d))) :=
    bordered_words (by decide)
  have hfragment : c.fragment d = .words "ON CONFLICT (" :: nameList c.columns ++
      .words ") DO UPDATE SET " :: separated ", " (c.update.map (Conflict.assignment d)) := by
    cases d with
    | mysql => exact absurd rfl hd
    | _ => rfl
  rw [hfragment, tokens_append d _ hset, tokens_words_cons d _ ⟨'(', by decide⟩, tokens_words_cons d _ ⟨' ', by decide⟩]
  rfl

/-- A clause for conflicts is read as it is. -/
theorem clause?_tokens {c : Conflict} (h : c.Filled d) : clause? d ((c.fragment d).tokens d) = some c := by
  have hupdate := members?_assignments d h.update
  rw [clause?]
  split
  case isTrue hd =>
    subst hd
    have hcolumns : c.columns = [] := h.columns.2 rfl
    rw [tokens_clause_mysql, Span.behind?_keywords]
    simp only [Option.bind_eq_bind, Option.bind_some, hupdate]
    rw [← hcolumns]
    rfl
  case isFalse hd =>
    have hne : c.columns ≠ [] := mt h.columns.1 hd
    rw [tokens_clause c hd, Span.behind?_keywords]
    simp only [Option.bind_eq_bind, Option.bind_some, enclosed?_parentheses (closes_nameList d c.columns),
      Span.behind?_keywords, members?_nameList hne, hupdate]
    rfl

theorem tokens_conflictClause (d : Dialect) (i : Insertion) :
    (i.conflictClause d).tokens d = (i.conflict.map fun conflict => (conflict.fragment d).tokens d).getD [] := by
  rw [conflictClause]
  cases i.conflict with
  | none => rfl
  | some conflict => exact tokens_words_cons d _ ⟨' ', by decide⟩

/-- A clause for conflicts begins with a word of its own. -/
theorem conflictClause_cases (d : Dialect) (i : Insertion) :
    i.conflict = none ∧ (i.conflictClause d).tokens d = [] ∨
      ∃ conflict rest, i.conflict = some conflict ∧ (conflict.fragment d).tokens d = .word "ON".toList :: rest ∧
        (i.conflictClause d).tokens d = .word "ON".toList :: rest := by
  rw [tokens_conflictClause]
  cases i.conflict with
  | none => exact .inl ⟨rfl, rfl⟩
  | some conflict =>
      obtain ⟨rest, hrest⟩ : ∃ rest, (conflict.fragment d).tokens d = .word "ON".toList :: rest := by
        by_cases hd : d = .mysql
        · subst hd
          exact ⟨_, tokens_clause_mysql conflict⟩
        · exact ⟨_, tokens_clause conflict hd⟩
      exact .inr ⟨conflict, rest, rfl, hrest, hrest⟩

theorem conflict?_tokens {i : Insertion} (h : i.Filled d) : conflict? d ((i.conflictClause d).tokens d) = some i.conflict := by
  rcases i.conflictClause_cases d with ⟨hnone, htokens⟩ | ⟨conflict, rest, hsome, hconflict, htokens⟩
  · rw [htokens, hnone]
    rfl
  · have hclause := clause?_tokens (h.conflict conflict hsome)
    rw [hconflict] at hclause
    rw [htokens, hsome, conflict?, hclause]
    rfl

theorem tokens_returningClause (d : Dialect) {i : Insertion} (h : i.returning ≠ []) :
    i.returningClause.tokens d = keywords ["RETURNING"] ++ (separated ", " (i.returning.map reference)).tokens d := by
  rw [returningClause, List.isEmpty_eq_false_iff.2 h, if_neg Bool.false_ne_true, tokens_words_cons d _ ⟨' ', by decide⟩,
    returningFragment, tokens_words_cons d _ ⟨' ', by decide⟩]
  rfl

theorem word_reference (d : Dialect) (ref : String) : ∀ t ∈ (reference ref).tokens d, t.isWord = false :=
  @forall_tokens_reference d (fun t => t.isWord = false) rfl rfl (fun _ => rfl) ref

theorem word_references (d : Dialect) (refs : List String) :
    ∀ t ∈ (separated ", " (refs.map reference)).tokens d, t.isWord = false :=
  forall_tokens_commas rfl (List.forall_mem_map.2 fun ref _ => word_reference d ref)

theorem word_rows (d : Dialect) (rows : List (List Value)) :
    ∀ t ∈ (separated ", " (rows.map row)).tokens d, t.isWord = false := by
  refine forall_tokens_commas rfl (List.forall_mem_map.2 fun cells _ => ?_)
  have hcells : ∀ t ∈ (bindList cells).tokens d, t.isWord = false :=
    forall_tokens_commas rfl (List.forall_mem_map.2 fun _ _ => List.forall_mem_singleton.2 rfl)
  rw [tokens_row]
  exact List.forall_mem_cons.2 ⟨rfl, List.forall_mem_append.2 ⟨hcells, List.forall_mem_singleton.2 rfl⟩⟩

/-- A clause behind the rows begins with a word. -/
theorem word_clauses (d : Dialect) (i : Insertion) :
    (∀ t ∈ ((i.conflictClause d).tokens d).head?, t.isWord = true) ∧
      ∀ t ∈ (i.returningClause.tokens d ++ (i.conflictClause d).tokens d).head?, t.isWord = true := by
  have hconflict : ∀ t ∈ ((i.conflictClause d).tokens d).head?, t.isWord = true := by
    rcases i.conflictClause_cases d with ⟨-, htokens⟩ | ⟨-, rest, -, -, htokens⟩ <;> rw [htokens] <;> rintro _ ⟨⟩
    rfl
  refine ⟨hconflict, ?_⟩
  by_cases hreturning : i.returning = []
  · rw [returningClause, hreturning]
    exact hconflict
  · rw [tokens_returningClause d hreturning]
    rintro _ ⟨⟩
    rfl

/-- The columns that are returned are read as they are. -/
theorem returning?_tokens (d : Dialect) (i : Insertion) :
    returning? (i.returningClause.tokens d ++ (i.conflictClause d).tokens d) =
      some (i.returning, (i.conflictClause d).tokens d) := by
  by_cases hreturning : i.returning = []
  · rw [returningClause, hreturning]
    rcases i.conflictClause_cases d with ⟨-, htokens⟩ | ⟨-, rest, -, -, htokens⟩ <;> rw [htokens] <;> rfl
  · have hwords := word_references d i.returning
    rw [tokens_returningClause d hreturning, List.append_assoc, returning?, Span.behind?_keywords]
    dsimp only
    rw [takeWhile_front hwords (i.word_clauses d).1, dropWhile_front hwords (i.word_clauses d).1, members?_references hreturning]
    rfl

/-! ### Insertions -/

theorem tokens_eq (d : Dialect) (i : Insertion) :
    (i.fragment d).tokens d = keywords ["INSERT", "INTO"] ++ ((reference i.table).tokens d ++
      .mark '(' :: ((nameList i.columns).tokens d ++ .mark ')' :: (keywords ["VALUES"] ++
        ((separated ", " (i.rows.map row)).tokens d ++ (i.returningClause.tokens d ++ (i.conflictClause d).tokens d))))) := by
  have hconflict : Bordered (i.conflictClause d) := by
    rw [conflictClause]
    split
    · exact bordered_words (by decide)
    · trivial
  have hreturning : Bordered i.returningClause := by
    rw [returningClause]
    split
    · trivial
    · exact bordered_words (by decide)
  have hrows : Bordered (.words ") VALUES " :: separated ", " (i.rows.map row)) := bordered_words (by decide)
  have hcolumns : Bordered (.words " (" :: nameList i.columns) := bordered_words (by decide)
  rw [fragment_eq, tokens_append d _ hconflict, tokens_append d _ hreturning, tokens_append d _ hrows,
    tokens_append d _ hcolumns, tokens_words_cons d _ ⟨' ', by decide⟩, tokens_words_cons d _ ⟨'(', by decide⟩,
    tokens_words_cons d _ ⟨' ', by decide⟩]
  simp only [List.append_assoc]
  rfl

/-- An insertion whose lists have members is read as it is. -/
theorem ofTokens?_tokens {i : Insertion} (h : i.Filled d) : ofTokens? d ((i.fragment d).tokens d) = some i := by
  have hopens : ∀ t ∈ (reference i.table).tokens d, t.opens = false :=
    @forall_tokens_reference d (fun t => t.opens = false) rfl rfl (fun _ => rfl) i.table
  have hwords := word_rows d i.rows
  rw [ofTokens?, tokens_eq]
  simp only [Option.bind_eq_bind, Option.bind_some, Span.behind?_keywords]
  rw [takeWhile_front hopens (by rintro _ ⟨⟩; rfl), dropWhile_front hopens (by rintro _ ⟨⟩; rfl)]
  simp only [reference?_tokens, Option.bind_some, enclosed?_parentheses (closes_nameList d i.columns),
    members?_nameList h.columns, Span.behind?_keywords]
  rw [takeWhile_front hwords (i.word_clauses d).2, dropWhile_front hwords (i.word_clauses d).2]
  simp only [rows?_tokens d h.rows h.cells, Option.bind_some, returning?_tokens, conflict?_tokens h]
  rfl

end Insertion

end Sql

/-! ### Insertions that are compiled -/

variable {c : Compiler}

namespace Compiler

theorem filled_insertion {name : String} {rows : List Row} {returning : Value} {insertion : Insertion}
    (h : c.insertion name rows returning = .ok insertion) {conflict : Option Conflict}
    (hconflict : ∀ clause ∈ conflict, clause.Filled c.dialect) :
    ({ insertion with conflict } : Insertion).Filled c.dialect := by
  obtain ⟨columns, names, answered, hcolumns, hnames, -, rfl⟩ := insertion_parts h
  obtain ⟨first, rest, rfl, hfirst, rfl⟩ := insertColumns_parts hcolumns
  have hne : first.columns ≠ [] := mt List.map_eq_nil_iff.1 hfirst
  exact {
    columns := fun hnil => hne ((eq_nil_iff_of_mapM hnames).1 hnil)
    rows := List.cons_ne_nil _ _
    cells := List.forall_mem_map.2 fun row _ => mt List.map_eq_nil_iff.1 hne
    conflict := hconflict }

theorem filled_conflict {d : Dialect} {row : Row} {conflict update : Value} {columns : List Value} {clause : Conflict}
    (hcolumns : upsertColumns row conflict update = .ok columns)
    (h : Conflict.ofValues d conflict (.list columns) = .ok clause) : clause.Filled d := by
  obtain ⟨htruthy, hne⟩ := upsertColumns_parts hcolumns
  have hset : ∀ {names : List String}, (do
      let update ← (← (Value.list columns).members).mapM Value.name
      pure ⟨names, update⟩) = Except.ok clause → clause.columns = names ∧ clause.update ≠ [] := by
    intro names h
    obtain ⟨members, hmembers, h⟩ := bind_eq_ok.1 h
    obtain ⟨update, hupdate, hclause⟩ := bind_eq_ok.1 h
    cases hmembers
    cases pure_eq_ok.1 hclause
    exact ⟨rfl, fun hnil => hne ((eq_nil_iff_of_mapM hupdate).1 hnil)⟩
  rw [Conflict.ofValues] at h
  split at h
  case isTrue hd =>
    obtain ⟨hnames, hupdate⟩ := hset h
    exact ⟨⟨fun _ => hd, fun _ => hnames⟩, hupdate⟩
  case isFalse hd =>
    obtain ⟨keys, hkeys, h⟩ := bind_eq_ok.1 h
    obtain ⟨names, hnamed, h⟩ := bind_eq_ok.1 h
    obtain ⟨hnames, hupdate⟩ := hset h
    refine ⟨⟨fun hnil => ?_, fun hmysql => absurd hmysql hd⟩, hupdate⟩
    rw [hnames, eq_nil_iff_of_mapM hnamed, Value.members_eq_nil_iff hkeys, htruthy] at hnil
    cases hnil

/-- The lists of an insertion that is compiled have members. -/
theorem filled_of_compile {r : Request} {s : Statement} (h : c.compile r = .ok (some s)) {i : Insertion}
    (hinsertion : s.command = .insert i) : i.Filled c.dialect := by
  cases r with
  | insert name rows returning =>
      obtain ⟨insertion, hmade, rfl⟩ := insert_parts (eq_ok_of_map_some h)
      cases hinsertion
      obtain ⟨columns, names, answered, -, -, -, rfl⟩ := insertion_parts hmade
      exact filled_insertion hmade nofun
  | upsert name row conflict update =>
      obtain ⟨-, columns, insertion, clause, hcolumns, hmade, hclause, rfl⟩ := upsert_parts (eq_ok_of_map_some h)
      cases hinsertion
      exact filled_insertion hmade fun _ hmem => Option.some.inj hmem ▸ filled_conflict hcolumns hclause
  | select q =>
      obtain ⟨selection, -, rfl⟩ := select_parts (eq_ok_of_map_some h)
      cases hinsertion
  | _ =>
      -- what finds rows changes or removes them
      have hmade := (made_of_compile h).command
      rw [hinsertion] at hmade
      cases hmade with
      | insertion hnew => cases hnew

end Compiler

end Polyquery
