import Polyquery.Proofs.Request

/-! What compilers make of requests. A command is a selection with the parts of its query, an insertion, or a change or a
removal of the rows that a compiler's condition finds; the expression for a document is a call around another. Main statement:
every compiled request is made so, in the compiler's dialect. -/

namespace Polyquery

open Sql

namespace Request

/-- Whether a request writes rows that a condition finds. -/
def findsRows : Request → Bool
  | update .. | delete .. | restore .. | jsonUpdate .. => true
  | select .. | insert .. | upsert .. => false

end Request

/-- The expression for a document: its column, or a call that sets one path of it. -/
inductive Sql.Document (d : Dialect) : Fragment → Prop
  | column (name : String) : Document d [.name name]
  | set {target f : Fragment} {segments : List String} {value : Value} (inner : Document d target)
      (h : jsonSet d target (JsonPath.validate segments) [.bind value] = .ok f) : Document d f

/-- How a compiler makes the command for a request. -/
inductive Compiler.Makes (c : Compiler) : Request → Command → Prop
  | selection {q : Query} {selection : Selection} (h : c.Selects q selection) : Makes c (.select q) (.select selection)
  | insertion {r : Request} (hnew : r.findsRows = false) (insertion : Insertion) : Makes c r (.insert insertion)
  | change (r : Request) {change : Change} {filters : List Filter} {visibility : Visibility}
      (hcondition : c.whereChain filters visibility c.scope "" = .ok change.condition)
      (hassigned : ∀ assignment ∈ change.assignments, ∀ f, assignment.2 = .expression f → Document c.dialect f) :
      Makes c r (.update change)
  | removal (r : Request) {removal : Removal} {filters : List Filter} {visibility : Visibility}
      (hcondition : c.whereChain filters visibility c.scope "" = .ok removal.condition) : Makes c r (.delete removal)

/-- A statement that a compiler makes for a request. -/
structure Compiler.Made (c : Compiler) (r : Request) (s : Statement) : Prop where
  dialect : s.dialect = c.dialect
  command : c.Makes r s.command

section

variable {c : Compiler} {q : Query} {s : Statement}

theorem upsert_made {table : String} {row : Row} {conflict update : Value}
    (h : c.upsert table row conflict update = .ok s) : c.Made (.upsert table row conflict update) s := by
  obtain ⟨-, columns, insertion, clause, -, -, -, rfl⟩ := Compiler.upsert_parts h
  exact ⟨rfl, .insertion rfl _⟩

theorem update_made (r : Request) {values : Row} {operation : Operation} (h : c.update q values operation = .ok s) :
    c.Made r s := by
  obtain ⟨-, assignments, condition, hassignments, hcondition, rfl⟩ := Compiler.update_parts h
  refine ⟨rfl, .change r hcondition fun assignment hmem f hf => ?_⟩
  obtain ⟨entry, -, name, -, rfl⟩ := exists_of_mem_forall₂ hassignments assignment hmem
  cases hf

theorem remove_made (r : Request) {visibility : Visibility} (h : c.remove q visibility = .ok s) : c.Made r s := by
  obtain ⟨condition, hcondition, rfl⟩ := Compiler.remove_parts h
  exact ⟨rfl, .removal r hcondition⟩

theorem Compiler.Documents.document {values : Row} {target f : Fragment} (h : c.Documents target values f)
    (htarget : Document c.dialect target) : Document c.dialect f := by
  induction h with
  | done target => exact htarget
  | entry hparam hpath hset rest ih => exact ih (htarget.set hset)

theorem jsonUpdate_made (r : Request) {column : Value} {values : Row} (h : c.jsonUpdate q column values = .ok s) :
    c.Made r s := by
  obtain ⟨-, name, expression, condition, -, hexpression, hcondition, rfl⟩ := Compiler.jsonUpdate_parts h
  refine ⟨rfl, .change r hcondition ?_⟩
  intro assignment hmem f hf
  rw [List.mem_singleton.1 hmem] at hf
  cases hf
  exact hexpression.document (.column name)

/-- A compiled request is made in one of these ways. -/
theorem made_of_compile {r : Request} (h : c.compile r = .ok (some s)) : c.Made r s := by
  cases r with
  | select q =>
      obtain ⟨selection, hselects, rfl⟩ := Compiler.select_parts (eq_ok_of_map_some h)
      exact ⟨rfl, .selection hselects⟩
  | insert table rows returning =>
      obtain ⟨insertion, -, rfl⟩ := Compiler.insert_parts (eq_ok_of_map_some h)
      exact ⟨rfl, .insertion rfl insertion⟩
  | upsert table row conflict update => exact upsert_made (eq_ok_of_map_some h)
  | update q values operation => exact update_made _ (eq_ok_of_map_some h)
  | delete q force =>
      rcases Compiler.delete_cases (eq_ok_of_map_some h) with ⟨_, -, -, hmark⟩ | ⟨-, -, hremove⟩ | ⟨-, hremove⟩
      · exact update_made _ hmark
      · exact remove_made _ hremove
      · exact remove_made _ hremove
  | restore q =>
      obtain ⟨_, -, hmark⟩ := Compiler.restore_parts h
      exact update_made _ hmark
  | jsonUpdate q column values => exact jsonUpdate_made _ (eq_ok_of_map_some h)

end

end Polyquery
