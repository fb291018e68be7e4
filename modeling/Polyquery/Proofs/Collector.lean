import Polyquery.Proofs.Made

/-! Statements whose parameters are collected while the text is put together. A value is kept behind those before it, and its
placeholder goes into the text; the values of a list and of a range are kept before their column is written. Main statement:
what is put together so is the text of the statement, and what has been kept are its parameters. -/

namespace Polyquery

open Sql Fragment

/-- A text that is put together while parameters are kept. -/
abbrev Collected := StateM (List Value) String

namespace Collected

/-- Keeps a value, and answers its placeholder. -/
def add (d : Dialect) (value : Value) : Collected := do
  modify (· ++ [value])
  pure d.placeholder

/-- Texts that are put together one after the other, with a separator between them. -/
def joined {α : Type} (separator : String) (part : α → Collected) (parts : List α) : Collected :=
  return Text.joined separator (← parts.mapM part)

/-- Whether the text and the parameters of a fragment are what is put together and kept. -/
def Writes (d : Dialect) (collected : Collected) (f : Fragment) : Prop :=
  ∀ kept, collected.run kept = pure (f.text d, kept ++ f.params)

end Collected

namespace Sql

open Collected

/-! ### Statements in the order in which their values are kept -/

namespace Condition

mutual

/-- A condition. -/
def collected (d : Dialect) : Condition → Collected
  | compare subject op value => return subject.text d ++ (" " ++ op.spelling ++ " ") ++ (← add d value)
  | isNull subject negated => return subject.text d ++ (if negated then " IS NOT NULL" else " IS NULL")
  | isIn subject values negated => do
    let placeholders ← joined ", " (add d) values
    return subject.text d ++ (if negated then " NOT IN (" else " IN (") ++ placeholders ++ ")"
  | between subject low high negated => do
    let low ← add d low
    let high ← add d high
    return subject.text d ++ (if negated then " NOT BETWEEN " else " BETWEEN ") ++ low ++ " AND " ++ high
  | constant truth => return if truth then "1 = 1" else "1 = 0"
  | group chain => return "(" ++ (← collectedChain d chain) ++ ")"

/-- A chain, without its first connective. -/
def collectedChain (d : Dialect) : List (Connective × Condition) → Collected
  | [] => return ""
  | (_, condition) :: rest => return (← condition.collected d) ++ (← collectedRest d rest)

/-- The rest of a chain. -/
def collectedRest (d : Dialect) : List (Connective × Condition) → Collected
  | [] => return ""
  | (connective, condition) :: rest =>
    return " " ++ connective.spelling ++ " " ++ (← condition.collected d) ++ (← collectedRest d rest)

end

end Condition

/-- A condition behind its keyword; nothing for the empty chain. -/
def whereCollected (d : Dialect) (condition : Chain) : Collected :=
  if condition.isEmpty then return "" else return " WHERE " ++ (← Condition.collectedChain d condition)

def Having.collected (d : Dialect) (h : Having) : Collected :=
  return h.expression ++ (" " ++ h.op.spelling ++ " ") ++ (← add d h.value)

namespace Selection

def havingCollected (d : Dialect) (s : Selection) : Collected :=
  if s.having.isEmpty then return "" else return " HAVING " ++ (← joined " AND " (Having.collected d) s.having)

/-- A query: its condition before the conditions on groups. -/
def collected (d : Dialect) (s : Selection) : Collected := do
  let condition ← whereCollected d s.condition
  let having ← s.havingCollected d
  return s.head.text d ++ condition ++ (optional "GROUP BY" (s.groupBy.map reference)).text d ++ having ++
    (optional "ORDER BY" (s.orderBy.map fun (c, direction) => reference c ++ words (" " ++ direction.spelling))).text d ++
    (s.windowClause d).text d

end Selection

/-- A row of an insertion. -/
def Insertion.rowCollected (d : Dialect) (cells : List Value) : Collected :=
  return "(" ++ (← joined ", " (add d) cells) ++ ")"

/-- An insertion: its rows one after the other. -/
def Insertion.collected (d : Dialect) (i : Insertion) : Collected := do
  let rows ← joined ", " (rowCollected d) i.rows
  return Fragment.text d (.words "INSERT INTO " :: reference i.table ++ .words " (" :: nameList i.columns) ++
    ") VALUES " ++ rows ++
    i.returningClause.text d ++ (i.conflictClause d).text d

/-- A fragment piece by piece, from the left. -/
def Fragment.collected (d : Dialect) : Fragment → Collected
  | [] => return ""
  | .bind value :: f => return (← add d value) ++ (← Fragment.collected d f)
  | p :: f => return String.ofList (p.write d) ++ (← Fragment.collected d f)

/-- What a column is set to. -/
def Change.assignmentCollected (d : Dialect) : String × Assigned → Collected
  | (column, .value value) => return Fragment.text d [.name column, .words " = "] ++ (← add d value)
  | (column, .expression f) => return Fragment.text d [.name column, .words " = "] ++ (← Fragment.collected d f)

/-- A change: what is assigned before its condition. -/
def Change.collected (d : Dialect) (c : Change) : Collected := do
  let assignments ← joined ", " (assignmentCollected d) c.assignments
  let condition ← whereCollected d c.condition
  return Fragment.text d (.words "UPDATE " :: reference c.table) ++ " SET " ++ assignments ++ condition

def Removal.collected (d : Dialect) (r : Removal) : Collected :=
  return Fragment.text d (.words "DELETE FROM " :: reference r.table) ++ (← whereCollected d r.condition)

def Command.collected (d : Dialect) : Command → Collected
  | select selection => selection.collected d
  | insert insertion => insertion.collected d
  | update change => change.collected d
  | delete removal => removal.collected d

end Sql

/-! ### Their texts and parameters -/

namespace Collected

variable {d : Dialect}

theorem writes_plain {text : String} {f : Fragment} (htext : f.text d = text) (hparams : f.params = []) :
    Writes d (pure text) f := by
  intro kept
  rw [htext, hparams, List.append_nil]
  rfl

@[simp] theorem run_add (d : Dialect) (value : Value) (kept : List Value) :
    (add d value).run kept = pure (d.placeholder, kept ++ [value]) := rfl

theorem writes_add (d : Dialect) (value : Value) : Writes d (add d value) [.bind value] := by
  intro kept
  rw [run_add, text_bind]
  rfl

theorem writes_joined {α : Type} {part : α → Collected} {written : α → Fragment} {parts : List α}
    (h : ∀ a ∈ parts, Writes d (part a) (written a)) (separator : String) :
    Writes d (joined separator part parts) (separated separator (parts.map written)) := by
  have hall : ∀ kept, (parts.mapM part).run kept =
      pure (parts.map fun a => (written a).text d, kept ++ parts.flatMap fun a => (written a).params) := by
    induction parts with
    | nil =>
        intro kept
        rw [List.flatMap_nil, List.append_nil]
        rfl
    | cons a parts ih =>
        obtain ⟨ha, hparts⟩ := List.forall_mem_cons.1 h
        intro kept
        simp only [List.mapM_cons, StateT.run_bind, StateT.run_pure, ha kept, ih hparts, pure_bind, List.flatMap_cons,
          List.append_assoc]
        rfl
  intro kept
  rw [joined, StateT.run_bind, hall, text_separated, params_separated_eq_flatMap, List.map_map, List.flatMap_map]
  rfl

theorem writes_bindList (d : Dialect) (values : List Value) : Writes d (joined ", " (add d) values) (bindList values) :=
  writes_joined (fun value _ => writes_add d value) ", "

end Collected

namespace Sql

open Collected

namespace Condition

mutual

theorem Readable.collected {d : Dialect} : (condition : Condition) → condition.Readable d →
    Writes d (condition.collected d) condition.fragment
  | compare subject op value, h => by
      intro kept
      simp [Condition.collected, fragment, h.bare, text_append, text_words_cons, text_bind, String.append_assoc]
  | isNull subject negated, h => by
      intro kept
      simp [Condition.collected, fragment, h.bare, text_append, text_words]
  | isIn subject values negated, h => by
      intro kept
      simp [Condition.collected, fragment, h.bare, text_append, text_words_cons, text_words, writes_bindList d values kept,
        String.append_assoc]
  | between subject low high negated, h => by
      intro kept
      simp [Condition.collected, fragment, h.bare, text_append, text_words_cons, text_bind_cons, text_nil, String.append_assoc]
  | constant truth, _ => by
      intro kept
      simp [Condition.collected, fragment, text_words]
  | group chain, h => by
      intro kept
      simp [Condition.collected, fragment, text_append, text_words_cons, text_words, ReadableMembers.collected chain h.2 kept,
        String.append_assoc]

theorem ReadableMembers.collected {d : Dialect} : (chain : List (Connective × Condition)) → ReadableMembers d chain →
    Writes d (collectedChain d chain) (chainFragment chain)
  | [], _ => writes_plain rfl rfl
  | (_, condition) :: rest, ⟨hcondition, hrest⟩ => by
      intro kept
      simp [collectedChain, chainFragment, text_append, Readable.collected condition hcondition _,
        ReadableMembers.collected_rest rest hrest _]

theorem ReadableMembers.collected_rest {d : Dialect} : (rest : List (Connective × Condition)) → ReadableMembers d rest →
    Writes d (collectedRest d rest) (restFragment rest)
  | [], _ => writes_plain rfl rfl
  | (connective, condition) :: rest, ⟨hcondition, hrest⟩ => by
      intro kept
      simp [collectedRest, restFragment, text_append, text_words_cons, Readable.collected condition hcondition _,
        ReadableMembers.collected_rest rest hrest _, String.append_assoc]

end

end Condition

variable {d : Dialect}

theorem whereCollected_writes {chain : Chain} (h : ∀ member ∈ chain, member.2.Readable d) :
    Writes d (whereCollected d chain) (whereClause chain) := by
  cases chain with
  | nil => exact writes_plain rfl rfl
  | cons member rest =>
      intro kept
      simp [whereCollected, whereClause, Chain.fragment, text_words_cons,
        Condition.ReadableMembers.collected _ (Condition.readableMembers_iff.2 h) kept]

theorem Having.writes (h : Having) : Writes d (h.collected d) h.fragment := by
  intro kept
  simp [Having.collected, Having.fragment, text_expression_cons, text_words_cons, text_bind, String.append_assoc]

namespace Selection

theorem writes_having (s : Selection) :
    Writes d (s.havingCollected d) (if s.having.isEmpty then [] else .words " HAVING " :: Having.chain s.having) := by
  rw [havingCollected]
  split
  · exact writes_plain rfl rfl
  · intro kept
    simp [Having.chain, text_words_cons, writes_joined (fun h (_ : h ∈ s.having) => h.writes) " AND " kept]

/-- A query keeps the values of its condition, and then those of its conditions on groups. -/
theorem writes {s : Selection} (h : ∀ member ∈ s.condition, member.2.Readable d) :
    Writes d (s.collected d) (s.fragment d) := by
  intro kept
  have hfragment : s.fragment d = s.head ++ whereClause s.condition ++ optional "GROUP BY" (s.groupBy.map reference) ++
      (if s.having.isEmpty then [] else .words " HAVING " :: Having.chain s.having) ++
      optional "ORDER BY" (s.orderBy.map fun (c, direction) => reference c ++ words (" " ++ direction.spelling)) ++
      s.windowClause d := rfl
  rw [Selection.collected, StateT.run_bind, whereCollected_writes h kept, pure_bind, StateT.run_bind, s.writes_having _, pure_bind,
    StateT.run_pure, hfragment]
  refine congrArg pure (Prod.ext ?_ ?_)
  · simp only [text_append]
  · simp only [params_append, s.params_head, s.params_groups, s.params_orders, s.params_windowClause d, List.nil_append,
      List.append_nil, List.append_assoc]

end Selection

theorem Insertion.writes_row (cells : List Value) : Writes d (rowCollected d cells) (row cells) := by
  intro kept
  simp [rowCollected, row, writes_bindList d cells kept, text_append, text_words_cons, text_words, String.append_assoc]

/-- An insertion keeps its cells, row by row. -/
theorem Insertion.writes (i : Insertion) : Writes d (i.collected d) (i.fragment d) := by
  have hrows := writes_joined (fun cells (_ : cells ∈ i.rows) => writes_row (d := d) cells) ", "
  intro kept
  rw [Insertion.collected, StateT.run_bind, hrows kept, pure_bind, StateT.run_pure]
  refine congrArg pure (Prod.ext ?_ ?_)
  · simp only [fragment_eq, text_append, text_words_cons, List.cons_append, String.append_assoc]
  · simp only [fragment_eq, params_append, params_words_cons, params_reference, params_nameList, i.params_returningClause,
      i.params_conflictClause d, List.nil_append, List.append_nil, List.cons_append]

theorem Fragment.writes (f : Fragment) : Writes d (f.collected d) f := by
  induction f with
  | nil => exact writes_plain rfl rfl
  | cons p f ih =>
      intro kept
      cases p with
      | bind value => simp [Fragment.collected, ih _, text_bind_cons]
      | words s | name s | literal s | expression s => simp [Fragment.collected, ih _, text, write]

theorem Change.writes_assignment (assignment : String × Assigned) :
    Writes d (assignmentCollected d assignment) (Change.assignment assignment) := by
  intro kept
  obtain ⟨column, value | f⟩ := assignment
  · have htext : Fragment.text d [.name column, .words " = ", .bind value] =
        Fragment.text d [.name column, .words " = "] ++ d.placeholder := by
      rw [← text_bind d value, ← text_append]
      rfl
    simp [assignmentCollected, Change.assignment, htext]
  · have htext : Fragment.text d (.name column :: .words " = " :: f) = Fragment.text d [.name column, .words " = "] ++ f.text d := by
      rw [← text_append]
      rfl
    simp [assignmentCollected, Change.assignment, htext, f.writes _]

theorem Change.writes {c : Change} (h : ∀ member ∈ c.condition, member.2.Readable d) :
    Writes d (c.collected d) c.fragment := by
  intro kept
  simp [Change.collected, Change.fragment, text_append, text_words_cons, String.append_assoc,
    writes_joined (fun a (_ : a ∈ c.assignments) => Change.writes_assignment a) ", " kept, whereCollected_writes h _]

theorem Removal.writes {r : Removal} (h : ∀ member ∈ r.condition, member.2.Readable d) :
    Writes d (r.collected d) r.fragment := by
  intro kept
  simp [Removal.collected, Removal.fragment, text_append, text_words_cons, String.append_assoc, whereCollected_writes h _]

end Sql

/-- What is put together for a compiled request is the text of its statement, and what has been kept are its parameters. -/
theorem compile_collected {c : Compiler} {r : Request} {s : Statement} (h : c.compile r = .ok (some s)) :
    (s.command.collected c.dialect).run [] = pure (s.sql, s.params) := by
  obtain ⟨hdialect, hmade⟩ := made_of_compile h
  have hwrites : Collected.Writes c.dialect (s.command.collected c.dialect) (s.command.fragment c.dialect) := by
    generalize s.command = command at hmade
    cases hmade with
    | selection hselects => exact Selection.writes (whereChain_readable hselects.condition)
    | insertion _ insertion => exact insertion.writes
    | change _ hcondition => exact Change.writes (whereChain_readable hcondition)
    | removal _ hcondition => exact Removal.writes (whereChain_readable hcondition)
  rw [hwrites [], List.nil_append, Statement.sql, Statement.params, Statement.fragment, hdialect]

end Polyquery
