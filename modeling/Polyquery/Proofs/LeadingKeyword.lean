import Mathlib.Data.List.TakeWhile
import Polyquery.Proofs.LeadingWord
import Polyquery.Session.Policy

/-! The keyword that leads a raw text, behind blanks, opening parentheses and comments. Main statement: a text that a write
verb leads counts as a change exactly if the verb stands behind spaces, line ends and parentheses and then only blanks, and
a blank or the end follows it; then it does not pass in readonly mode. Behind a comment, or in front of other signs, a verb
is not seen. -/

namespace Polyquery

/-! ### The keyword of a text -/

/-- What the signs of a text are read as: text, a comment up to the end of the line, or one up to its closing sign. -/
inductive Aside where
  | none | line | block

/-- A text without the blanks, opening parentheses and comments in front. -/
def Aside.behind : Aside → List Char → List Char
  | _, [] => []
  | none, '-' :: '-' :: rest => line.behind rest
  | none, '/' :: '*' :: rest => block.behind rest
  | none, c :: rest => if Text.isBlank c || c = '(' then none.behind rest else c :: rest
  | line, c :: rest => if c = '\n' then none.behind rest else line.behind rest
  | block, '*' :: '/' :: rest => none.behind rest
  | block, _ :: rest => block.behind rest

/-- The keyword that leads a text: the letters behind blanks, opening parentheses and comments, in capitals. -/
def Context.keyword (sql : String) : String :=
  String.ofList (((Aside.none.behind sql.toList).takeWhile Char.isAlpha).map Char.toUpper)

/-- Characters that are passed over in front of the first word. -/
def Text.passed : List Char := ['\x20', '\t', '\r', '\n', '(']

/-- Whether a text is led by a word of letters behind passed characters and then blanks, with a blank or the end behind. -/
def Context.PlainlyLed (sql : String) : Prop :=
  ∃ passed gap word rest, sql.toList = passed ++ (gap ++ (word ++ rest)) ∧ (∀ c ∈ passed, c ∈ Text.passed) ∧
    (∀ c ∈ gap, Text.isBlank c = true) ∧ word ≠ [] ∧ (∀ c ∈ word, c.isAlpha = true) ∧
    ∀ c ∈ rest.head?, Text.isBlank c = true

namespace Text

/-! ### Letters -/

theorem isBlank_eq_false_of_isAlpha {c : Char} (h : c.isAlpha = true) : isBlank c = false := by
  have hletter : (65 ≤ c.toNat ∧ c.toNat ≤ 90) ∨ (97 ≤ c.toNat ∧ c.toNat ≤ 122) := by
    change (decide (c.val ≥ 65 ∧ c.val ≤ 90) || (decide (c.val ≥ 97) && decide (c.val ≤ 122))) = true at h
    simp only [Bool.or_eq_true, Bool.and_eq_true, decide_eq_true_eq, ge_iff_le, UInt32.le_iff_toNat_le] at h
    exact h
  simp [isBlank, blanks, Ranges.contains]
  omega

theorem capitalChar_of_isAlpha {c : Char} (h : c.isAlpha = true) : capitalChar c = [c.toUpper] := by
  unfold capitalChar
  split <;> first | rfl | exact absurd h (by decide)

theorem capital_append (cs others : List Char) : capital (cs ++ others) = capital cs ++ capital others :=
  List.flatMap_append

theorem capital_of_letters {cs : List Char} (h : ∀ c ∈ cs, c.isAlpha = true) : capital cs = cs.map Char.toUpper := by
  induction cs with
  | nil => rfl
  | cons c cs ih =>
      obtain ⟨hc, hcs⟩ := List.forall_mem_cons.1 h
      rw [capital, List.flatMap_cons, ← capital, capitalChar_of_isAlpha hc, ih hcs]
      rfl

theorem capital_eq_nil {cs : List Char} (h : capital cs = []) : cs = [] := by
  cases cs with
  | nil => rfl
  | cons c cs =>
      rw [capital, List.flatMap_cons, List.append_eq_nil_iff] at h
      have hne : capitalChar c ≠ [] := by
        unfold capitalChar
        split <;> exact List.cons_ne_nil _ _
      exact absurd h.1 hne

/-! ### The first word -/

theorem head?_words {cs : List Char} (h : cs.dropWhile isBlank ≠ []) :
    (words cs).head? = some ((cs.dropWhile isBlank).takeWhile (!isBlank ·)) := by
  have hne : (cs.dropWhile isBlank).takeWhile (!isBlank ·) ≠ [] := by
    obtain ⟨c, rest, hcs⟩ := List.exists_cons_of_ne_nil h
    have hhead : c ∈ (cs.dropWhile isBlank).head? := by rw [hcs]; rfl
    simp [hcs, not_of_head?_dropWhile hhead]
  rw [← words_dropWhile, words_takeWhile (fun c hc => by simpa using hc) hne
    fun c hc => by simpa using not_of_head?_dropWhile hc]
  rfl

theorem words_eq_nil {cs : List Char} (h : cs.dropWhile isBlank = []) : words cs = [] :=
  words_blanks (List.dropWhile_eq_nil_iff.1 h)

end Text

namespace Context

/-- A text from its first word on, as words are told apart. -/
def fromWord (sql : String) : List Char := (sql.toList.dropWhile Text.passed.contains).dropWhile Text.isBlank

/-- The first word of a text, in capitals as it is compared. -/
def firstWord (sql : String) : List Char := Text.capital ((fromWord sql).takeWhile (!Text.isBlank ·))

theorem leadingWord?_eq_map (sql : String) : leadingWord? sql =
    (Text.words (sql.toList.dropWhile Text.passed.contains)).head?.map fun word => String.ofList (Text.capital word) :=
  rfl

theorem isWrite_raw {c : Context} (h : c.operation = .raw) :
    c.isWrite = true ↔ String.ofList (firstWord c.sql) ∈ writeVerbs := by
  rw [isWrite, h, leadingWord?_eq_map]
  by_cases hnone : fromWord c.sql = []
  · have hempty : String.ofList (firstWord c.sql) ∉ writeVerbs := by
      rw [firstWord, hnone]
      decide
    simp [Text.words_eq_nil hnone, hempty]
  · simp [Text.head?_words hnone, firstWord, fromWord]

/-- A text is what is passed over, then blanks, and then all from its first word on. -/
theorem eq_append_fromWord (sql : String) :
    ∃ passed gap, sql.toList = passed ++ (gap ++ fromWord sql) ∧ (∀ c ∈ passed, c ∈ Text.passed) ∧
      ∀ c ∈ gap, Text.isBlank c = true := by
  refine ⟨sql.toList.takeWhile Text.passed.contains, (sql.toList.dropWhile Text.passed.contains).takeWhile Text.isBlank,
    ?_, fun c hc => by simpa using List.mem_takeWhile_imp hc, fun c hc => List.mem_takeWhile_imp hc⟩
  rw [fromWord, List.takeWhile_append_dropWhile, List.takeWhile_append_dropWhile]

/-! ### From the keyword to the first word -/

theorem behind_char {c : Char} (hminus : c ≠ '-') (hslash : c ≠ '/') (rest : List Char) :
    Aside.none.behind (c :: rest) = if Text.isBlank c || c = '(' then Aside.none.behind rest else c :: rest := by
  rw [Aside.behind]
  · exact fun _ h => absurd h hminus
  · exact fun _ h => absurd h hslash

theorem behind_stop {c : Char} (hblank : Text.isBlank c = false) (hplain : ∀ sign ∈ ['(', '-', '/'], c ≠ sign)
    (rest : List Char) : Aside.none.behind (c :: rest) = c :: rest := by
  rw [behind_char (hplain '-' (by decide)) (hplain '/' (by decide)), if_neg (by simp [hblank, hplain])]

/-- Blanks and parentheses in front make no difference to what stands behind them. -/
theorem behind_append {gap : List Char} (h : ∀ c ∈ gap, Text.isBlank c = true ∨ c = '(') (cs : List Char) :
    Aside.none.behind (gap ++ cs) = Aside.none.behind cs := by
  induction gap with
  | nil => rfl
  | cons c gap ih =>
      obtain ⟨hc, hgap⟩ := List.forall_mem_cons.1 h
      have hminus : c ≠ '-' := by
        rintro rfl
        exact absurd hc (by decide)
      have hslash : c ≠ '/' := by
        rintro rfl
        exact absurd hc (by decide)
      rw [List.cons_append, behind_char hminus hslash, if_pos (by simpa using hc), ih hgap]

theorem mem_passed {c : Char} (h : c ∈ Text.passed) : Text.isBlank c = true ∨ c = '(' := by
  have hall : (Text.passed.all fun c => Text.isBlank c || c = '(') = true := by decide
  simpa using List.all_eq_true.1 hall c h

/-- The keyword is looked for from the first word on. -/
theorem behind_toList (sql : String) : Aside.none.behind sql.toList = Aside.none.behind (fromWord sql) := by
  obtain ⟨passed, gap, hsql, hpassed, hgap⟩ := eq_append_fromWord sql
  rw [hsql, behind_append fun c hc => mem_passed (hpassed c hc), behind_append fun c hc => .inl (hgap c hc)]

/-- Of two write verbs none goes on where the other ends. -/
theorem writeVerbs_prefixFree : ∀ a ∈ writeVerbs, ∀ b ∈ writeVerbs, a.toList <+: b.toList → a = b := by
  decide

theorem isAlpha_of_mem_writeVerbs : ∀ verb ∈ writeVerbs, ∀ c ∈ verb.toList, c.isAlpha = true := by
  -- as a check of the verbs: a statement on characters would be decided by going through all there are
  simp only [← List.all_eq_true]
  decide

/-- In front of a first word that is a write verb no comment begins. -/
theorem behind_fromWord {sql : String} (h : String.ofList (firstWord sql) ∈ writeVerbs) :
    Aside.none.behind (fromWord sql) = fromWord sql := by
  cases hfrom : fromWord sql with
  | nil => rfl
  | cons c rest =>
      have hblank : Text.isBlank c = false := by
        have hfound : (sql.toList.dropWhile Text.passed.contains).find? (fun c => !Text.isBlank c) = some c := by
          rw [List.find?_not_eq_head?_dropWhile, ← fromWord, hfrom, List.head?_cons]
        simpa using List.find?_some hfound
      have hmem : ∀ ch ∈ Text.capitalChar c, ch.isAlpha = true := by
        intro ch hch
        refine isAlpha_of_mem_writeVerbs _ h ch ?_
        rw [String.toList_ofList, firstWord, hfrom, List.takeWhile_cons_of_pos (by simp [hblank]), Text.capital,
          List.flatMap_cons]
        exact List.mem_append_left _ hch
      refine behind_stop hblank (fun sign hsign => ?_) rest
      rintro rfl
      have hsigns : (['(', '-', '/'].all fun sign => !(Text.capitalChar sign).all Char.isAlpha) = true := by decide
      simpa [List.all_eq_true.2 hmem] using List.all_eq_true.1 hsigns c hsign

/-- Behind what is passed over and then blanks, a text goes on from a letter that stands there. -/
theorem fromWord_eq {sql : String} {passed gap cs : List Char} (hsql : sql.toList = passed ++ (gap ++ cs))
    (hpassed : ∀ c ∈ passed, c ∈ Text.passed) (hgap : ∀ c ∈ gap, Text.isBlank c = true)
    (hletter : ∃ c rest, cs = c :: rest ∧ c.isAlpha = true) : fromWord sql = cs := by
  obtain ⟨c, rest, rfl, hc⟩ := hletter
  have hblank : Text.isBlank c = false := Text.isBlank_eq_false_of_isAlpha hc
  have hstop : (c :: rest).dropWhile Text.isBlank = c :: rest := List.dropWhile_cons_of_neg (by simp [hblank])
  have hpass : Text.passed.contains c = false := Text.contains_passed hblank (by rintro rfl; exact absurd hc (by decide))
  rw [fromWord, hsql, List.dropWhile_append_of_pos (by simpa using hpassed)]
  clear hsql
  induction gap with
  | nil => rw [List.nil_append, List.dropWhile_cons_of_neg (by rw [hpass]; exact Bool.false_ne_true), hstop]
  | cons b gap ih =>
      by_cases hb : Text.passed.contains b = true
      · rw [List.cons_append, List.dropWhile_cons_of_pos hb]
        exact ih (List.forall_mem_cons.1 hgap).2
      · rw [List.cons_append, List.dropWhile_cons_of_neg hb, ← List.cons_append, List.dropWhile_append_of_pos hgap,
          hstop]

/-- If the first word and the keyword are write verbs, the word is no longer than the keyword. -/
theorem plainlyLed_of_firstWord {sql : String} (hverb : keyword sql ∈ writeVerbs)
    (hfirst : String.ofList (firstWord sql) ∈ writeVerbs) : PlainlyLed sql := by
  obtain ⟨passed, gap, hsql, hpassed, hgap⟩ := eq_append_fromWord sql
  rw [keyword, behind_toList, behind_fromWord hfirst] at hverb
  rw [firstWord] at hfirst
  have hletters : ∀ c ∈ (fromWord sql).takeWhile Char.isAlpha, c.isAlpha = true := fun c hc => List.mem_takeWhile_imp hc
  rw [← List.takeWhile_append_dropWhile (p := Char.isAlpha) (l := fromWord sql)] at hsql hfirst
  generalize (fromWord sql).takeWhile Char.isAlpha = letters at *
  generalize (fromWord sql).dropWhile Char.isAlpha = rest at *
  rw [List.takeWhile_append_of_pos fun c hc => by simp [Text.isBlank_eq_false_of_isAlpha (hletters c hc)],
    Text.capital_append, Text.capital_of_letters hletters] at hfirst
  -- the keyword begins the first word, and a write verb does not go on as another one
  have hnone := writeVerbs_prefixFree _ hverb _ hfirst (by simp)
  have hempty : rest.takeWhile (!Text.isBlank ·) = [] := Text.capital_eq_nil (by simpa using congrArg String.toList hnone)
  refine ⟨passed, gap, letters, rest, hsql, hpassed, hgap, ?_, hletters, fun c hc => ?_⟩
  · rintro rfl
    exact absurd hverb (by decide)
  · cases rest with
    | nil => cases hc
    | cons first rest =>
        cases hc
        by_contra hblank
        rw [List.takeWhile_cons_of_pos (by simpa using hblank)] at hempty
        cases hempty

/-- A text that is led plainly has its keyword as its first word. -/
theorem firstWord_of_plainlyLed {sql : String} (h : PlainlyLed sql) : String.ofList (firstWord sql) = keyword sql := by
  obtain ⟨passed, gap, word, rest, hsql, hpassed, hgap, hne, hword, hrest⟩ := h
  have hletter : ∃ c more, word ++ rest = c :: more ∧ c.isAlpha = true := by
    cases word with
    | nil => exact absurd rfl hne
    | cons c word => exact ⟨c, word ++ rest, rfl, hword c List.mem_cons_self⟩
  have hfrom := fromWord_eq hsql hpassed hgap hletter
  have hbehind : Aside.none.behind (word ++ rest) = word ++ rest := by
    obtain ⟨c, more, hcs, hc⟩ := hletter
    rw [hcs]
    refine behind_stop (Text.isBlank_eq_false_of_isAlpha hc) (fun sign hsign => ?_) more
    rintro rfl
    have hsigns : (['(', '-', '/'].all (!·.isAlpha)) = true := by decide
    simpa [hc] using List.all_eq_true.1 hsigns c hsign
  have hshort : ∀ c ∈ rest.head?, c.isAlpha = false := by
    intro c hc
    by_contra hletter
    have hblank := hrest c hc
    rw [Text.isBlank_eq_false_of_isAlpha (by simpa using hletter)] at hblank
    cases hblank
  rw [firstWord, keyword, behind_toList, hfrom, hbehind, Text.takeWhile_stretch hword hshort,
    Text.takeWhile_stretch (fun c hc => by simp [Text.isBlank_eq_false_of_isAlpha (hword c hc)])
      (fun c hc => by simp [hrest c hc]), Text.capital_of_letters hword]

/-- A text whose keyword is a write verb counts as a change exactly if it is led by it plainly. In readonly mode it is then
rejected whatever the rules; otherwise the mode makes no difference to it. -/
theorem check_keyword {c : Context} (hraw : c.operation = .raw) (hverb : keyword c.sql ∈ writeVerbs) :
    (c.isWrite = true ↔ PlainlyLed c.sql) ∧ ∀ rules guards,
      (PlainlyLed c.sql → Policy.check rules guards true c = ([], .error (Policy.reject c .readonlyMode))) ∧
      (¬PlainlyLed c.sql → Policy.check rules guards true c = Policy.check rules guards false c) := by
  have hwrite : c.isWrite = true ↔ PlainlyLed c.sql := by
    rw [isWrite_raw hraw]
    refine ⟨plainlyLed_of_firstWord hverb, fun hled => ?_⟩
    rw [firstWord_of_plainlyLed hled]
    exact hverb
  refine ⟨hwrite, fun rules guards => ⟨fun hled => ?_, fun hled => ?_⟩⟩
  · rw [Policy.check, hwrite.2 hled]
    rfl
  · have hquiet : c.isWrite = false := by rwa [← Bool.not_eq_true, hwrite]
    rw [Policy.check, Policy.check, hquiet]
    rfl

/-- A deletion in small letters behind parentheses, tabs and form feeds is rejected in readonly mode. -/
theorem check_keyword_deletion :
    let c : Context := { sql := "\t( \x0cdelete\nFROM users)" }
    keyword c.sql ∈ writeVerbs ∧ c.isWrite = true ∧
      ∀ rules guards, Policy.check rules guards true c = ([], .error (Policy.reject c .readonlyMode)) := by
  intro c
  have hverb : keyword c.sql ∈ writeVerbs := by decide +kernel
  have hled : PlainlyLed c.sql :=
    ⟨['\t', '(', ' '], ['\x0c'], "delete".toList, '\n' :: "FROM users)".toList, by decide, by simp [Text.passed],
      List.forall_mem_singleton.2 rfl, by decide, List.all_eq_true.1 (by decide), by rintro _ ⟨⟩; rfl⟩
  obtain ⟨hwrite, hcheck⟩ := check_keyword (c := c) rfl hverb
  exact ⟨hverb, hwrite.2 hled, fun rules guards => (hcheck rules guards).1 hled⟩

/-- A verb behind a comment, or with another sign than a blank right behind it, passes in readonly mode. -/
theorem keyword_unseen :
    let commented : Context := { sql := "/* nightly */ DELETE FROM users" }
    let quoted : Context := { sql := "UPDATE\"users\"SET\"a\"=1" }
    keyword commented.sql ∈ writeVerbs ∧ keyword quoted.sql ∈ writeVerbs ∧
      commented.isWrite = false ∧ quoted.isWrite = false ∧
      Policy.check {} [] true commented = ([], .ok ()) ∧ Policy.check {} [] true quoted = ([], .ok ()) := by
  intro commented quoted
  have hcommented : commented.isWrite = false := by decide +kernel
  have hquoted : quoted.isWrite = false := by decide +kernel
  refine ⟨by decide +kernel, by decide +kernel, hcommented, hquoted, ?_, ?_⟩
  · rw [Policy.check, hcommented]
    rfl
  · rw [Policy.check, hquoted]
    rfl

end Context

end Polyquery
