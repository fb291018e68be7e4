import Polyquery.Proofs.Outcome
import Polyquery.Proofs.Words
import Polyquery.Sql.JsonPath

/-! The literals by which statements name places inside documents, and readers of their two notations. Main statement: what
is written of a path of words is read as its segments, so that no two paths are written alike, and no quote stands in it but
the two around it. -/

namespace Polyquery

open Sql

namespace Sql.JsonPath

variable {d : Dialect} {segments : List String}

/-- A word has letters, digits and underscores, and at least one of them. -/
def IsWord (segment : String) : Prop := segment.toList ≠ [] ∧ ∀ c ∈ segment.toList, isPathChar c = true

/-- A path in the notation of a dialect. -/
def written (d : Dialect) (segments : List String) : String :=
  match d with
  | .postgres => brace segments
  | .sqlite | .mysql | .sqlserver | .ansi => dollar segments

/-! ### What is written -/

/-- What dollar notation writes for a segment. -/
def step (segment : String) : List Char :=
  if isPosition segment then '[' :: segment.toList ++ [']'] else '.' :: segment.toList

theorem toList_dollar (segments : List String) : (dollar segments).toList = '$' :: segments.flatMap step := by
  have hfold : ∀ start : String,
      (segments.foldl (fun path s => path ++ (if isPosition s then "[" ++ s ++ "]" else "." ++ s)) start).toList =
        start.toList ++ segments.flatMap step := by
    induction segments with
    | nil => simp
    | cons s segments ih =>
        intro start
        rw [List.foldl_cons, ih, List.flatMap_cons, step]
        split <;> simp
  exact hfold "$"

theorem toList_brace (segments : List String) :
    (brace segments).toList = '\x7b' :: [','].intercalate (segments.map String.toList) ++ ['\x7d'] := by
  simp [brace, Text.joined, String.toList_intercalate]

/-- The signs around the segments of a path. -/
def signs (d : Dialect) : List Char :=
  match d with
  | .postgres => ['\x7b', ',', '\x7d']
  | .sqlite | .mysql | .sqlserver | .ansi => ['$', '.', '[', ']']

theorem mem_intercalate {α : Type} {a between : α} {rows : List (List α)} (h : a ∈ [between].intercalate rows) :
    a = between ∨ ∃ row ∈ rows, a ∈ row := by
  match rows with
  | [] => simp at h
  | [row] => exact .inr ⟨row, List.mem_singleton_self _, by simpa using h⟩
  | row :: next :: rows =>
      rw [List.intercalate_cons_cons, List.append_assoc, List.mem_append, List.mem_append, List.mem_singleton] at h
      rcases h with hrow | hbetween | hrest
      · exact .inr ⟨row, List.mem_cons_self, hrow⟩
      · exact .inl hbetween
      · rcases mem_intercalate hrest with hbetween | ⟨other, hother, ha⟩
        · exact .inl hbetween
        · exact .inr ⟨other, List.mem_cons_of_mem _ hother, ha⟩

/-- A path is made of its segments and of signs around them. -/
theorem mem_written {c : Char} (h : c ∈ (written d segments).toList) : c ∈ signs d ∨ ∃ s ∈ segments, c ∈ s.toList := by
  have hdollar : c ∈ (dollar segments).toList → c ∈ ['$', '.', '[', ']'] ∨ ∃ s ∈ segments, c ∈ s.toList := by
    rw [toList_dollar, List.mem_cons, List.mem_flatMap]
    rintro (rfl | ⟨s, hs, hc⟩)
    · exact .inl List.mem_cons_self
    · by_cases hsign : c ∈ ['$', '.', '[', ']']
      · exact .inl hsign
      · refine .inr ⟨s, hs, ?_⟩
        rw [step] at hc
        split at hc <;> simp_all
  have hbrace : c ∈ (brace segments).toList → c ∈ ['\x7b', ',', '\x7d'] ∨ ∃ s ∈ segments, c ∈ s.toList := by
    rw [toList_brace, List.cons_append, List.mem_cons, List.mem_append, List.mem_singleton]
    rintro (rfl | hinside | rfl)
    · exact .inl List.mem_cons_self
    · rcases mem_intercalate hinside with rfl | ⟨row, hrow, hc⟩
      · exact .inl (by simp)
      · obtain ⟨s, hs, rfl⟩ := List.mem_map.1 hrow
        exact .inr ⟨s, hs, hc⟩
    · exact .inl (by simp)
  cases d with
  | postgres => exact hbrace h
  | sqlite | mysql | sqlserver | ansi => exact hdollar h

/-! ### Reading it back -/

/-- The segments of a path behind its dollar sign: words behind dots, and digits in brackets. -/
def readSteps : List Char → Option (List String)
  | [] => some []
  | '.' :: text =>
    if text.takeWhile isPathChar = [] then none
    else (readSteps (text.dropWhile isPathChar)).map (String.ofList (text.takeWhile isPathChar) :: ·)
  | '[' :: text =>
    match _ : text.dropWhile Char.isDigit with
    | ']' :: rest =>
      if text.takeWhile Char.isDigit = [] then none
      else (readSteps rest).map (String.ofList (text.takeWhile Char.isDigit) :: ·)
    | _ => none
  | _ => none
termination_by text => text.length
decreasing_by
  · exact Nat.lt_succ_of_le (List.length_dropWhile_le _ _)
  · have hrest : text.dropWhile Char.isDigit = ']' :: rest := by assumption
    have hlength := List.length_dropWhile_le Char.isDigit text
    rw [hrest, List.length_cons] at hlength
    simp only [List.length_cons]
    omega

/-- What stands between the quotes of a literal that holds no others. -/
def readLiteral : List Char → Option (List Char)
  | '\'' :: text => if text.getLast? = some '\'' ∧ '\'' ∉ text.dropLast then some text.dropLast else none
  | _ => none

/-- A path in dollar notation, read from a literal. -/
def readDollar (text : List Char) : Option (List String) :=
  (readLiteral text).bind fun
    | '$' :: steps => readSteps steps
    | _ => none

/-- A path in brace notation, read from a literal: its segments stand between commas. -/
def readBrace (text : List Char) : Option (List String) :=
  (readLiteral text).bind fun
    | '\x7b' :: inside =>
      if inside.getLast? = some '\x7d' then some ((inside.dropLast.splitOn ',').map String.ofList) else none
    | _ => none

/-- A path in the notation of a dialect, read from a literal. -/
def read (d : Dialect) : List Char → Option (List String) :=
  match d with
  | .postgres => readBrace
  | .sqlite | .mysql | .sqlserver | .ansi => readDollar

/-- What is written of a word is read as the word, if what follows does not go on with it. -/
theorem readSteps_step {s : String} {rest : List Char} (hword : IsWord s) (hrest : ∀ c ∈ rest.head?, isPathChar c = false) :
    readSteps (step s ++ rest) = (readSteps rest).map (s :: ·) := by
  obtain ⟨hne, hchars⟩ := hword
  rw [step]
  split
  · rename_i hposition
    have hdigits : ∀ c ∈ s.toList, c.isDigit = true := by simp_all [isPosition]
    have hclosing : ∀ c ∈ (']' :: rest).head?, c.isDigit = false := by simp
    have htext : '[' :: s.toList ++ [']'] ++ rest = '[' :: (s.toList ++ ']' :: rest) := by simp
    rw [htext, readSteps, Text.dropWhile_stretch hdigits hclosing]
    simp only [Text.takeWhile_stretch hdigits hclosing, if_neg hne, String.ofList_toList]
  · rw [List.cons_append, readSteps, Text.takeWhile_stretch hchars hrest, Text.dropWhile_stretch hchars hrest, if_neg hne,
      String.ofList_toList]

theorem readSteps_steps (h : ∀ s ∈ segments, IsWord s) : readSteps (segments.flatMap step) = some segments := by
  induction segments with
  | nil => rw [List.flatMap_nil, readSteps]
  | cons s segments ih =>
      obtain ⟨hs, hsegments⟩ := List.forall_mem_cons.1 h
      have hnext : ∀ c ∈ (segments.flatMap step).head?, isPathChar c = false := by
        cases segments with
        | nil => simp
        | cons next segments =>
            rw [List.flatMap_cons, step]
            split <;> simp <;> decide
      rw [List.flatMap_cons, readSteps_step hs hnext, ih hsegments]
      rfl

/-! ### Literals in statements -/

theorem toList_literal (d : Dialect) (text : String) :
    (Fragment.text d [.literal text]).toList = '\'' :: text.toList ++ ['\''] := by
  simp [Fragment.text, Fragment.write, Piece.write]

/-- A quote stands in a path only if it stands in one of its segments. -/
theorem quote_not_mem_written {quote : Char} (d : Dialect) (hquote : quote ∈ ['\'', '"', '\x60'])
    (h : ∀ s ∈ segments, quote ∉ s.toList) : quote ∉ (written d segments).toList := by
  intro hmem
  rcases mem_written hmem with hsign | ⟨s, hs, hc⟩
  · have hnone : ∀ d : Dialect, ∀ sign ∈ signs d, sign ∉ ['\'', '"', '\x60'] := fun d => by cases d <;> simp [signs]
    exact hnone d quote hsign hquote
  · exact h s hs hc

theorem quote_not_mem_of_isWord {s : String} {quote : Char} (hquote : quote ∈ ['\'', '"', '\x60']) (h : IsWord s) :
    quote ∉ s.toList := by
  intro hmem
  have hquotes : (['\'', '"', '\x60'].all (!isPathChar ·)) = true := by decide
  simpa [h.2 quote hmem] using List.all_eq_true.1 hquotes quote hquote

theorem readLiteral_literal {text : String} (h : '\'' ∉ text.toList) (d : Dialect) :
    readLiteral (Fragment.text d [.literal text]).toList = some text.toList := by
  rw [toList_literal, List.cons_append, readLiteral, List.getLast?_concat, List.dropLast_concat, if_pos ⟨rfl, h⟩]

/-- A path of words is read back from its literal. -/
theorem read_written (d : Dialect) (hne : segments ≠ []) (hwords : ∀ s ∈ segments, IsWord s) :
    read d (Fragment.text d [.literal (written d segments)]).toList = some segments := by
  have hquote : '\'' ∉ (written d segments).toList :=
    quote_not_mem_written d (by simp) fun s hs => quote_not_mem_of_isWord (by simp) (hwords s hs)
  have hliteral := readLiteral_literal hquote d
  have hdollar : readLiteral (Fragment.text d [.literal (written d segments)]).toList = some (dollar segments).toList →
      readDollar (Fragment.text d [.literal (written d segments)]).toList = some segments := by
    intro hread
    rw [readDollar, hread, toList_dollar]
    exact readSteps_steps hwords
  have hbrace : readLiteral (Fragment.text d [.literal (written d segments)]).toList = some (brace segments).toList →
      readBrace (Fragment.text d [.literal (written d segments)]).toList = some segments := by
    intro hread
    have hcomma : ∀ row ∈ segments.map String.toList, ',' ∉ row := by
      intro row hrow hmem
      obtain ⟨s, hs, rfl⟩ := List.mem_map.1 hrow
      exact absurd ((hwords s hs).2 ',' hmem) (by decide)
    have hrows : (segments.map String.toList).map String.ofList = segments := by
      simp [Function.comp_def]
    rw [readBrace, hread, toList_brace]
    simp only [Option.bind_some, List.cons_append, List.getLast?_concat, List.dropLast_concat, if_true,
      List.splitOn_intercalate ',' hcomma (by simpa using hne), hrows]
  cases d with
  | postgres => exact hbrace hliteral
  | sqlite | mysql | sqlserver | ansi => exact hdollar hliteral

/-- Where a dialect knows paths, it reads a document through the literal of the path. -/
theorem jsonExtract_eq (hd : d ≠ .ansi) (column : Fragment) : ∃ before after, ∀ segments,
    jsonExtract d column segments = segments.map fun path => before ++ .literal (written d path) :: after := by
  have hcall : ∀ opening closing segments, jsonExtract.call column segments opening closing =
      segments.map fun path => (.words opening :: column ++ [.words ", "]) ++ .literal (dollar path) :: [.words closing] := by
    intro opening closing segments
    cases segments <;> simp [jsonExtract.call, Except.map, bind, Except.bind, pure, Except.pure]
  cases d with
  | ansi => exact absurd rfl hd
  | postgres => exact ⟨column ++ [.words " #>> "], [], fun segments => by
      cases segments <;> simp [jsonExtract, Except.map, bind, Except.bind, pure, Except.pure, written]⟩
  | sqlite => exact ⟨_, _, hcall "json_extract(" ")"⟩
  | mysql => exact ⟨_, _, hcall "JSON_UNQUOTE(JSON_EXTRACT(" "))"⟩
  | sqlserver => exact ⟨_, _, hcall "JSON_VALUE(" ")"⟩

/-- Where a dialect knows paths, it changes a document through the literal of the path. -/
theorem jsonSet_eq (hd : d ≠ .ansi) (target value : Fragment) : ∃ before after, ∀ segments,
    jsonSet d target segments value = segments.map fun path => before ++ .literal (written d path) :: after := by
  have hcall : ∀ opening between closing segments, jsonSet.call target segments value opening between closing =
      segments.map fun path => (.words opening :: target ++ [.words ", "]) ++
        .literal (dollar path) :: (.words between :: value ++ Fragment.words closing) := by
    intro opening between closing segments
    cases segments <;> simp [jsonSet.call, Except.map, bind, Except.bind, pure, Except.pure]
  cases d with
  | ansi => exact absurd rfl hd
  | postgres => exact ⟨.words "jsonb_set(CAST(" :: target ++ [.words " AS jsonb), "],
      .words ", CAST(" :: value ++ Fragment.words " AS jsonb))", fun segments => by
        cases segments <;> simp [jsonSet, Except.map, bind, Except.bind, pure, Except.pure, written]⟩
  | sqlite => exact ⟨_, _, hcall "json_set(" ", json(" "))"⟩
  | mysql => exact ⟨_, _, hcall "JSON_SET(" ", CAST(" " AS JSON))"⟩
  | sqlserver => exact ⟨_, _, hcall "JSON_MODIFY(" ", " ")"⟩

/-! ### Words as segments -/

theorem checked_eq_ok {segment result : String} :
    checked segment = .ok result ↔ result = segment ∧ isSegment segment = true := by
  rw [checked]
  split
  · rename_i hsegment
    simp [hsegment, eq_comm]
  · rename_i hsegment
    simp [hsegment]

theorem mapM_checked_eq_ok {path : List String} :
    segments.mapM checked = .ok path ↔ path = segments ∧ ∀ s ∈ segments, isSegment s = true := by
  rw [mapM_eq_ok]
  induction segments generalizing path with
  | nil => simp
  | cons s segments ih =>
      rw [List.forall₂_cons_left_iff, List.forall_mem_cons]
      constructor
      · rintro ⟨first, rest, hfirst, hrest, rfl⟩
        obtain ⟨rfl, hs⟩ := checked_eq_ok.1 hfirst
        obtain ⟨rfl, hsegments⟩ := ih.1 hrest
        exact ⟨rfl, hs, hsegments⟩
      · rintro ⟨rfl, hs, hsegments⟩
        exact ⟨s, segments, checked_eq_ok.2 ⟨rfl, hs⟩, ih.2 ⟨rfl, hsegments⟩, rfl⟩

theorem validate_eq_ok {path : List String} : validate segments = .ok path ↔
    path = segments ∧ segments ≠ [] ∧ ∀ s ∈ segments, isSegment s = true := by
  cases segments with
  | nil => simp [validate]
  | cons first rest =>
      have hvalidate : validate (first :: rest) = (first :: rest).mapM checked := rfl
      rw [hvalidate, mapM_checked_eq_ok]
      exact and_congr_right fun _ => (and_iff_right (List.cons_ne_nil _ _)).symm

theorem isSegment_of_isWord {s : String} (h : IsWord s) : isSegment s = true := by
  have hlast : s.toList.getLast? ≠ some '\n' := fun hlast =>
    absurd (h.2 '\n' (List.mem_of_getLast? hlast)) (by decide)
  simp only [isSegment, if_neg hlast, Bool.and_eq_true, Bool.not_eq_true', List.isEmpty_eq_false_iff, List.all_eq_true]
  exact h

/-- A path of words is taken as it is, and where a dialect knows paths it stands in a document's expression as a literal.
The literal is read back as the segments in their order and spelling, in each of the two notations, so that no other path of
words is written like it; and no quote stands in it but the two around it. -/
theorem path_read_back (hne : segments ≠ []) (hwords : ∀ s ∈ segments, IsWord s) :
    (∀ d, read d (Fragment.text d [.literal (written d segments)]).toList = some segments) ∧
    (∀ d others, others ≠ [] → (∀ s ∈ others, IsWord s) →
      Fragment.text d [.literal (written d others)] = Fragment.text d [.literal (written d segments)] → others = segments) ∧
    (∀ d, ∃ body, (Fragment.text d [.literal (written d segments)]).toList = '\'' :: body ++ ['\''] ∧
      ∀ quote ∈ ['\'', '"', '\x60'], quote ∉ body) ∧
    ∀ d, d ≠ .ansi → ∀ column, ∃ before after,
      jsonExtract d column (validate segments) = .ok (before ++ .literal (written d segments) :: after) := by
  refine ⟨fun d => read_written d hne hwords, fun d others hother howords hsame => ?_, fun d => ?_, fun d hd column => ?_⟩
  · have hread := read_written d hother howords
    rw [hsame, read_written d hne hwords] at hread
    exact (Option.some.inj hread).symm
  · exact ⟨_, toList_literal d _, fun quote hquote =>
      quote_not_mem_written d hquote fun s hs => quote_not_mem_of_isWord hquote (hwords s hs)⟩
  · obtain ⟨before, after, hextract⟩ := jsonExtract_eq hd column
    have hvalid : validate segments = .ok segments :=
      validate_eq_ok.2 ⟨rfl, hne, fun s hs => isSegment_of_isWord (hwords s hs)⟩
    exact ⟨before, after, by rw [hextract, hvalid]; rfl⟩

/-- Digits are told apart from a key that begins with them, and zeros in front are kept. -/
theorem path_read_back_digits :
    ["a", "007", "0b", "_", "7"] ≠ [] ∧ (∀ s ∈ ["a", "007", "0b", "_", "7"], IsWord s) ∧
      readDollar "'$.a[007].0b._[7]'".toList = some ["a", "007", "0b", "_", "7"] ∧
      readBrace "'\x7ba,007,0b,_,7\x7d'".toList = some ["a", "007", "0b", "_", "7"] := by
  have hne : ["a", "007", "0b", "_", "7"] ≠ [] := by decide
  have hwords : ∀ s ∈ ["a", "007", "0b", "_", "7"], IsWord s := by
    have hall : (["a", "007", "0b", "_", "7"].all fun s => !s.toList.isEmpty && s.toList.all isPathChar) = true := by
      decide
    simpa [IsWord] using hall
  obtain ⟨hread, -, -, -⟩ := path_read_back hne hwords
  exact ⟨hne, hwords, hread .sqlite, hread .postgres⟩

end Sql.JsonPath

end Polyquery
