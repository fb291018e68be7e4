import Polyquery.Proofs.Words
import Polyquery.Session.Database

/-! The word that leads a text, by which raw texts are judged to be changes or not. Main statements: a statement is led by
the verb of its command, and what a dialect has sent on its own account, to look up columns and keys and to set timeouts, is
led by no verb of a change. -/

namespace Polyquery

/-! ### The words that texts begin with -/

/-- Whether a word leads every text that begins with it and a space: it is in capitals, and nothing in it is passed over. -/
def Text.IsLeading (word : String) : Prop :=
  word.toList ≠ [] ∧ capital word.toList = word.toList ∧ word.toList.all fun c => !isBlank c && c != '('

instance (word : String) : Decidable (Text.IsLeading word) := inferInstanceAs (Decidable (_ ∧ _ ∧ _))

/-- Whether a text begins with a word and a space. -/
def Text.Begins (word sql : String) : Prop := ∃ rest, sql.toList = word.toList ++ '\x20' :: rest

theorem Text.Begins.append {word sql : String} (h : Begins word sql) (more : String) : Begins word (sql ++ more) := by
  obtain ⟨rest, hsql⟩ := h
  exact ⟨rest ++ more.toList, by rw [String.toList_append, hsql, List.append_assoc, List.cons_append]⟩

/-- What is passed over in front of a text is blank or opens a parenthesis. -/
theorem Text.contains_passed {c : Char} (hblank : isBlank c = false) (hopen : c ≠ '(') :
    ['\x20', '\t', '\r', '\n', '('].contains c = false := by
  rw [List.contains_eq_mem, decide_eq_false_iff_not]
  intro hpass
  simp only [List.mem_cons, List.not_mem_nil, or_false] at hpass
  rcases hpass with rfl | rfl | rfl | rfl | rfl
  · exact absurd hblank (by decide)
  · exact absurd hblank (by decide)
  · exact absurd hblank (by decide)
  · exact absurd hblank (by decide)
  · exact hopen rfl

/-- A text that begins with a leading word is led by it. -/
theorem Context.leadingWord?_eq {sql word : String} (hword : Text.IsLeading word) (hsql : Text.Begins word sql) :
    leadingWord? sql = some word := by
  obtain ⟨hne, hcapital, hall⟩ := hword
  obtain ⟨rest, hsql⟩ := hsql
  have hplain : ∀ c ∈ word.toList, Text.isBlank c = false ∧ c ≠ '(' := by simpa using hall
  have hwords : Text.words (word.toList ++ '\x20' :: rest) = word.toList :: Text.words ('\x20' :: rest) :=
    Text.words_word hne (fun c hc => (hplain c hc).1) fun c hc => by cases hc; rfl
  cases hchars : word.toList with
  | nil => exact absurd hchars hne
  | cons first others =>
      obtain ⟨hblank, hopen⟩ := hplain first (hchars ▸ List.mem_cons_self)
      rw [hchars] at hsql hwords
      have hkept : sql.toList.dropWhile ['\x20', '\t', '\r', '\n', '('].contains = first :: others ++ '\x20' :: rest := by
        rw [hsql, List.cons_append, List.dropWhile_cons_of_neg (Bool.not_eq_true _ ▸ Text.contains_passed hblank hopen)]
      dsimp only [leadingWord?]
      rw [hkept, hwords, List.head?_cons, Option.map_some, ← hchars, hcapital, String.ofList_toList]

/-- The word that a command begins with. -/
def Sql.Command.verb : Command → String
  | select _ => "SELECT"
  | insert _ => "INSERT"
  | update _ => "UPDATE"
  | delete _ => "DELETE"

theorem Sql.Command.begins_verb (d : Dialect) (command : Sql.Command) :
    Text.Begins command.verb ((command.fragment d).text d) := by
  have hbegin : ∀ (opening verb : String) (f : Fragment), Text.Begins verb opening →
      Text.Begins verb (Fragment.text d (.words opening :: f)) := by
    rintro opening verb f ⟨rest, hopening⟩
    refine ⟨rest ++ f.write d, ?_⟩
    rw [Fragment.text, String.toList_ofList, Fragment.write, List.flatMap_cons, Piece.write, hopening, List.append_assoc,
      List.cons_append]
    rfl
  cases command with
  | select selection => exact hbegin "SELECT " "SELECT" _ ⟨[], by decide⟩
  | insert insertion => exact hbegin "INSERT INTO " "INSERT" _ ⟨"INTO ".toList, by decide⟩
  | update change => exact hbegin "UPDATE " "UPDATE" _ ⟨[], by decide⟩
  | delete removal => exact hbegin "DELETE FROM " "DELETE" _ ⟨"FROM ".toList, by decide⟩

theorem Text.leading_select : IsLeading "SELECT" := by decide

theorem Sql.Command.verb_leading (command : Sql.Command) : Text.IsLeading command.verb := by
  cases command with
  | select selection => exact Text.leading_select
  | insert insertion => exact (by decide : Text.IsLeading "INSERT")
  | update change => exact (by decide : Text.IsLeading "UPDATE")
  | delete removal => exact (by decide : Text.IsLeading "DELETE")

theorem Statement.leadingWord?_sql (s : Statement) : Context.leadingWord? s.sql = some s.command.verb :=
  Context.leadingWord?_eq s.command.verb_leading (s.command.begins_verb s.dialect)

/-! ### Texts that read -/

/-- Whether a text begins with none of the words that changes begin with. -/
def Context.IsRead (sql : String) : Prop := (leadingWord? sql).any writeVerbs.contains = false

theorem Context.isRead_of_begins {sql word : String} (hword : Text.IsLeading word) (hread : writeVerbs.contains word = false)
    (hsql : Text.Begins word sql) : IsRead sql := by
  rw [IsRead, leadingWord?_eq hword hsql]
  exact hread

theorem Context.isRead_select {sql : String} (h : Text.Begins "SELECT" sql) : IsRead sql :=
  isRead_of_begins Text.leading_select (by decide) h

theorem Context.isRead_set {sql : String} (h : Text.Begins "SET" sql) : IsRead sql :=
  isRead_of_begins (by decide) (by decide) h

namespace Dialect

variable {d : Dialect} {sql : String}

theorem isRead_columnQuery (d : Dialect) : Context.IsRead d.columnQuery := by
  have hstart : Text.Begins "SELECT" "SELECT 1 AS present FROM " := ⟨"1 AS present FROM ".toList, by decide⟩
  have hasked : ∀ a b c e : String, Text.Begins "SELECT" ("SELECT 1 AS present FROM " ++ a ++ b ++ c ++ e) :=
    fun a b c e => (((hstart.append a).append b).append c).append e
  refine Context.isRead_select ?_
  cases d with
  | sqlite => exact hasked ..
  | postgres => exact (hasked ..).append _
  | mysql => exact (hasked ..).append _
  | sqlserver => exact hasked ..
  | ansi => exact hasked ..

theorem isRead_keyQuery (h : d.keyQuery = some sql) : Context.IsRead sql := by
  cases d <;> cases h
  exact Context.isRead_select ⟨"CAST(@@IDENTITY AS BIGINT) AS id".toList, by decide⟩

theorem isRead_applied {milliseconds : Int} (h : (d.timeout milliseconds).apply = some sql) : Context.IsRead sql := by
  cases d with
  | sqlite =>
      cases h
      have hpragma : Text.Begins "PRAGMA" "PRAGMA busy_timeout = " := ⟨"busy_timeout = ".toList, by decide⟩
      exact Context.isRead_of_begins (by decide) (by decide) (hpragma.append _)
  | postgres =>
      cases h
      have hset : Text.Begins "SET" "SET statement_timeout = " := ⟨"statement_timeout = ".toList, by decide⟩
      exact Context.isRead_set (hset.append _)
  | mysql =>
      cases h
      have hset : Text.Begins "SET" "SET SESSION MAX_EXECUTION_TIME = " :=
        ⟨"SESSION MAX_EXECUTION_TIME = ".toList, by decide⟩
      exact Context.isRead_set (hset.append _)
  | sqlserver =>
      cases h
      have hset : Text.Begins "SET" "SET LOCK_TIMEOUT " := ⟨"LOCK_TIMEOUT ".toList, by decide⟩
      exact Context.isRead_set (hset.append _)
  | ansi => cases h

theorem isRead_lifted {milliseconds : Int} (h : (d.timeout milliseconds).lift = some sql) : Context.IsRead sql := by
  cases d with
  | postgres =>
      cases h
      exact Context.isRead_set ⟨"statement_timeout = DEFAULT".toList, by decide⟩
  | mysql =>
      cases h
      exact Context.isRead_set ⟨"SESSION MAX_EXECUTION_TIME = 0".toList, by decide⟩
  | sqlserver =>
      cases h
      exact Context.isRead_set ⟨"LOCK_TIMEOUT -1".toList, by decide⟩
  | sqlite => cases h
  | ansi => cases h

end Dialect

end Polyquery
