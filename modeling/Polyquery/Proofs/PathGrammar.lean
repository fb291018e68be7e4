import Polyquery.Proofs.Demands
import Polyquery.Proofs.PathLiteral

/-! Which rows of texts are paths into documents. Main statement: a row is taken, as it is, exactly if it is not empty and
every text in it is a word or a word with one line feed behind it; every other row fails with the code of malformed paths,
for its first text that is wrong. What reads or changes documents takes the same rows, and writes nothing of them but words,
the signs of the notation, and such line feeds. -/

namespace Polyquery

open Sql

namespace Sql.JsonPath

variable {d : Dialect} {segments : List String}

/-- A row of texts that is given as a value is checked as it is. -/
theorem ofValue_texts (segments : List String) : ofValue (Invalid.texts segments) = validate segments := by
  cases segments with
  | nil => rfl
  | cons first rest =>
      have hmembers : (Invalid.texts (first :: rest)).members = .ok ((first :: rest).map .text) := rfl
      have htruthy : (Invalid.texts (first :: rest)).isTruthy = true := rfl
      rw [ofValue, htruthy, Bool.not_true, if_neg Bool.false_ne_true, hmembers]
      exact List.mapM_map

/-- A character of a segment belongs to its word, or is a line feed at its end. -/
theorem char_of_isSegment {s : String} {c : Char} (h : Demand.IsSegment s) (hc : c ∈ s.toList) :
    isPathChar c = true ∨ c = '\n' ∧ s.toList.getLast? = some '\n' := by
  obtain ⟨word, -, hword, hs | hs⟩ := h
  · exact .inl (hword c (hs ▸ hc))
  · rw [hs, List.mem_append, List.mem_singleton] at hc
    rcases hc with hc | rfl
    · exact .inl (hword c hc)
    · exact .inr ⟨rfl, by rw [hs, List.getLast?_concat]⟩

/-- A row of texts is taken as a path exactly if it has texts, and each of them is a word, with one line feed behind it at
most. Otherwise it is refused, with the code of malformed paths, for having none or for the first that is none. In every
dialect that knows paths, what reads a document and what changes one take the same rows and refuse the others alike; what
they write of a path is its words and the signs between them, and a line feed only where a segment ends with one. -/
theorem validate_decides (segments : List String) :
    (∀ path, validate segments = .ok path ↔ path = segments ∧ segments ≠ [] ∧ ∀ s ∈ segments, Demand.IsSegment s) ∧
    (∀ f, validate segments = .error f ↔ (segments = [] ∧ f = .invalid .noPathSegments) ∨
      ∃ before segment after, segments = before ++ segment :: after ∧ (∀ s ∈ before, Demand.IsSegment s) ∧
        ¬Demand.IsSegment segment ∧ f = .invalid (.pathSegment segment)) ∧
    (∀ f, validate segments = .error f → ∃ why, f = .invalid why ∧ why.code = "INVALID_JSON_PATH") ∧
    ofValue (Invalid.texts segments) = validate segments ∧
    ∀ d, d ≠ .ansi →
      (∀ column, ∃ before after, jsonExtract d column (validate segments) =
        (validate segments).map fun path => before ++ .literal (written d path) :: after) ∧
      (∀ target value, ∃ before after, jsonSet d target (validate segments) value =
        (validate segments).map fun path => before ++ .literal (written d path) :: after) ∧
      ∀ path, validate segments = .ok path → ∀ c ∈ (written d path).toList,
        c ∈ signs d ∨ isPathChar c = true ∨ c = '\n' ∧ ∃ s ∈ segments, s.toList.getLast? = some '\n' := by
  have haccepts : ∀ path, validate segments = .ok path ↔
      path = segments ∧ segments ≠ [] ∧ ∀ s ∈ segments, Demand.IsSegment s := by
    intro path
    simp only [validate_eq_ok, Demand.isSegment_iff]
  have hrefuses : ∀ f, validate segments = .error f ↔ (segments = [] ∧ f = .invalid .noPathSegments) ∨
      ∃ before segment after, segments = before ++ segment :: after ∧ (∀ s ∈ before, Demand.IsSegment s) ∧
        ¬Demand.IsSegment segment ∧ f = .invalid (.pathSegment segment) := by
    intro f
    rw [← failure?_eq_some, Demand.failure?_validate]
  refine ⟨haccepts, hrefuses, fun f hf => ?_, ofValue_texts segments, fun d hd => ⟨fun column => ?_, fun target value => ?_,
    fun path hpath c hc => ?_⟩⟩
  · rcases (hrefuses f).1 hf with ⟨-, rfl⟩ | ⟨-, segment, -, -, -, -, rfl⟩
    · exact ⟨_, rfl, rfl⟩
    · exact ⟨_, rfl, rfl⟩
  · obtain ⟨before, after, hextract⟩ := jsonExtract_eq hd column
    exact ⟨before, after, hextract _⟩
  · obtain ⟨before, after, hset⟩ := jsonSet_eq hd target value
    exact ⟨before, after, hset _⟩
  · obtain ⟨rfl, -, hsegments⟩ := (haccepts path).1 hpath
    rcases mem_written hc with hsign | ⟨s, hs, hmem⟩
    · exact .inl hsign
    · rcases char_of_isSegment (hsegments s hs) hmem with hchar | ⟨hfeed, hlast⟩
      · exact .inr (.inl hchar)
      · exact .inr (.inr ⟨hfeed, s, hs, hlast⟩)

/-- One line feed behind a word is let through and written, two are not. -/
theorem validate_decides_line_feeds :
    validate ["a", "b\n", "c\n\n", ""] = .error (.invalid (.pathSegment "c\n\n")) ∧
    Dialect.postgres ≠ .ansi ∧ validate ["a", "b\n"] = .ok ["a", "b\n"] ∧
      ∀ c ∈ (written .postgres ["a", "b\n"]).toList, c ∈ signs .postgres ∨ isPathChar c = true ∨
        c = '\n' ∧ ∃ s ∈ ["a", "b\n"], s.toList.getLast? = some '\n' := by
  obtain ⟨-, hrefuses, -⟩ := validate_decides ["a", "b\n", "c\n\n", ""]
  obtain ⟨haccepts, -, -, -, hdialect⟩ := validate_decides ["a", "b\n"]
  have hsegments : ∀ s ∈ ["a", "b\n"], Demand.IsSegment s := by
    have hall : (["a", "b\n"].all isSegment) = true := by decide
    exact fun s hs => Demand.isSegment_iff.1 (List.all_eq_true.1 hall s hs)
  have hwrong : ¬Demand.IsSegment "c\n\n" := fun h => absurd (Demand.isSegment_iff.2 h) (by decide)
  have hvalid := (haccepts _).2 ⟨rfl, List.cons_ne_nil _ _, hsegments⟩
  have hpostgres : Dialect.postgres ≠ .ansi := by decide
  exact ⟨(hrefuses _).2 (.inr ⟨["a", "b\n"], "c\n\n", [""], rfl, hsegments, hwrong, rfl⟩), hpostgres, hvalid,
    (hdialect .postgres hpostgres).2.2 _ hvalid⟩

/-- A text that is no word is taken as a segment, and its line feed stands in the literal. -/
theorem validate_line_feed :
    "a\n".toList.all isPathChar = false ∧ (validate ["a\n"]).toOption = some ["a\n"] ∧
      (jsonExtract .sqlite (.reference "data") (validate ["a\n"])).toOption.map (Fragment.text .sqlite) =
        some "json_extract(\"data\", '$.a\n')" := by
  decide +kernel

end Sql.JsonPath

end Polyquery
