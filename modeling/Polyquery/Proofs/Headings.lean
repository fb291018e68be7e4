import Polyquery.Proofs.AliasSearch
import Polyquery.Proofs.Quoting
import Polyquery.Sql.Command

/-! The headings of a projection, against the names under which its columns are looked up in result rows. A reader takes the
heading of a column off the text of a statement: the alias if one is written, else the last part of the reference. Main
statement: exactly which entries are looked up under their own heading. -/

namespace Polyquery

open Sql
open Text (isBlank isWord lastPart stripBy matchesLetter)

variable {entry ref label text before behind : List Char} {c : Char}

/-! ### Characters of words -/

namespace Text

theorem isBlank_of_isWord (h : isWord c = true) : isBlank c = false := by
  have hapart : (wordRanges.all fun word => blanks.all fun blank =>
      word.2 < blank.1 || blank.2 < word.1) = true := by
    decide +kernel
  rw [isWord, Ranges.contains, List.any_eq_true] at h
  obtain ⟨word, hword, hin⟩ := h
  rw [isBlank, Ranges.contains, List.any_eq_false]
  intro blank hblank
  have hthis := List.all_eq_true.1 (List.all_eq_true.1 hapart word hword) blank hblank
  simp only [Bool.and_eq_true, Bool.or_eq_true, decide_eq_true_eq] at hin hthis ⊢
  omega

theorem not_isWord (h : isBlank c = true) : isWord c = false :=
  Bool.eq_false_iff.2 fun hword => by rw [isBlank_of_isWord hword] at h; cases h

theorem isBlank_of_toLower (h : isBlank c.toLower = false) : isBlank c = false := by
  by_cases hupper : c.isUpper
  · exact isBlank_of_isWord (List.any_eq_true.2 ⟨(65, 90), by decide, by simpa using isUpper_iff.1 hupper⟩)
  · rwa [toLower_of_not_isUpper hupper] at h

theorem isBlank_of_matchesLetter {letter : Char} (hletter : isBlank letter = false)
    (h : matchesLetter letter c = true) : isBlank c = false := by
  simp only [matchesLetter, Bool.or_eq_true, Bool.and_eq_true, decide_eq_true_eq] at h
  rcases h with ((rfl | ⟨-, rfl⟩) | ⟨-, rfl⟩) | ⟨-, rfl | rfl⟩
  · exact isBlank_of_toLower hletter
  all_goals rfl

theorem isBlank_of_alias {a s : Char} (ha : matchesLetter 'a' a = true) (hs : matchesLetter 's' s = true) :
    ∀ c ∈ [a, s], isBlank c = false := by
  simpa using And.intro (isBlank_of_matchesLetter rfl ha) (isBlank_of_matchesLetter rfl hs)

end Text

open Text (isBlank_of_isWord not_isWord isBlank_of_toLower isBlank_of_alias)

/-! ### Entries with an alias -/

namespace Sql.Projected

theorem isBlank_of_isReferenceChar (h : isReferenceChar c = true) : isBlank c = false := by
  simp only [isReferenceChar, Bool.or_eq_true, decide_eq_true_eq] at h
  rcases h with (hword | rfl) | rfl
  · exact isBlank_of_isWord hword
  · rfl
  · rfl

theorem not_isReferenceChar (h : isBlank c = true) : isReferenceChar c = false :=
  Bool.eq_false_iff.2 fun href => by rw [isBlank_of_isReferenceChar href] at h; cases h

/-- An entry of three words: a reference, the alias word in letters of any case, and a word of its own. -/
def SpellsAlias (entry ref label : List Char) : Prop :=
  ∃ a s, Text.words entry = [ref, [a, s], label] ∧ matchesLetter 'a' a = true ∧ matchesLetter 's' s = true ∧
    (∀ c ∈ ref, isReferenceChar c = true) ∧ ∀ c ∈ label, isWord c = true

theorem spellsAlias_of_alias? (h : alias? entry = some (ref, label)) : SpellsAlias entry ref label := by
  obtain ⟨body, hbody⟩ : ∃ body, body = entry.dropWhile isBlank := ⟨_, rfl⟩
  obtain ⟨rest, hrest⟩ : ∃ rest, rest = body.dropWhile isReferenceChar := ⟨_, rfl⟩
  rw [alias?] at h
  simp only [← hbody, ← hrest] at h
  split at h
  · rename_i gap between a s more href has
    split at h
    · rename_i hspelled
      cases h
      simp only [Bool.and_eq_true, Bool.not_eq_true', List.isEmpty_eq_false_iff] at hspelled href
      obtain ⟨⟨⟨⟨⟨hgap, ha⟩, hs⟩, hmore⟩, hlabel⟩, hback⟩ := hspelled
      have hback := List.all_eq_true.1 hback
      have hmore : ∀ c ∈ more.head?, isBlank c = true := by
        intro c hc
        rwa [Option.mem_def.1 hc] at hmore
      have hname : Text.words more = [(more.dropWhile isBlank).takeWhile isWord] := by
        rw [← Text.words_dropWhile, Text.words_takeWhile (fun _ => isBlank_of_isWord) hlabel
          fun c hc => hback c (List.mem_of_mem_head? hc), Text.words_blanks hback]
      have halias : Text.words (gap :: between) = [a, s] :: Text.words more := by
        rw [← Text.words_dropWhile, has]
        exact Text.words_word (List.cons_ne_nil _ _) (isBlank_of_alias ha hs) hmore
      have hwords : Text.words body = body.takeWhile isReferenceChar :: Text.words (gap :: between) := by
        rw [hrest]
        refine Text.words_takeWhile (fun _ => isBlank_of_isReferenceChar) href ?_
        rw [← hrest]
        simpa using hgap
      refine ⟨a, s, ?_, ha, hs, fun c hc => List.mem_takeWhile_imp hc, fun c hc => List.mem_takeWhile_imp hc⟩
      rw [← Text.words_dropWhile, ← hbody, hwords, halias, hname]
    · cases h
  · cases h

theorem SpellsAlias.alias?_eq (h : SpellsAlias entry ref label) : alias? entry = some (ref, label) := by
  obtain ⟨a, s, hwords, ha, hs, href, hlabel⟩ := h
  obtain ⟨front, rest, rfl, hfront, hrefne, hrefblank, hgap, hrest⟩ := Text.exists_of_words_cons hwords
  obtain ⟨between, more, hbehind, hbetween, hasne, hasblank, hmoregap, hmore⟩ := Text.exists_of_words_cons hrest
  obtain ⟨space, back, hname, hspace, hlabelne, hlabelblank, hback, hnone⟩ := Text.exists_of_words_cons hmore
  have hbody : (front ++ (ref ++ rest)).dropWhile isBlank = ref ++ rest :=
    Text.dropWhile_stretch hfront (Text.head?_word hrefne hrefblank rest)
  have halias : rest.dropWhile isBlank = a :: s :: more := by
    rw [hbehind, Text.dropWhile_stretch hbetween (Text.head?_word hasne hasblank more)]
    rfl
  have hlabelled : more.dropWhile isBlank = label ++ back := by
    rw [hname, Text.dropWhile_stretch hspace (Text.head?_word hlabelne hlabelblank back)]
  have hspaced : more.head?.any isBlank = true := by
    cases more with
    | nil => cases hmore
    | cons blank more => exact hmoregap blank rfl
  have hstop : ∀ c ∈ rest.head?, isReferenceChar c = false := fun c hc => not_isReferenceChar (hgap c hc)
  have hend : ∀ c ∈ back.head?, isWord c = false := fun c hc => not_isWord (hback c hc)
  have hempty : ref.isEmpty = false ∧ label.isEmpty = false := by
    simp [hrefne, hlabelne]
  rw [alias?]
  simp only [hbody, Text.takeWhile_stretch href hstop, Text.dropWhile_stretch href hstop, halias, hempty]
  cases rest with
  | nil => cases hrest
  | cons gap rest =>
      simp only [hgap gap rfl, ha, hs, hspaced, hlabelled, Text.takeWhile_stretch hlabel hend,
        Text.dropWhile_stretch hlabel hend, hempty, List.all_eq_true.2 (Text.words_eq_nil_iff.1 hnone)]
      rfl

/-- The alias that an entry spells is found, and no other. -/
theorem alias?_eq_some : alias? entry = some (ref, label) ↔ SpellsAlias entry ref label :=
  ⟨spellsAlias_of_alias?, SpellsAlias.alias?_eq⟩

theorem SpellsAlias.label_ne_nil (h : SpellsAlias entry ref label) : label ≠ [] := by
  obtain ⟨a, s, hwords, -⟩ := h
  exact Text.ne_nil_of_mem_words (by rw [hwords]; simp)

theorem SpellsAlias.isWord_label (h : SpellsAlias entry ref label) : ∀ c ∈ label, isWord c = true := by
  obtain ⟨a, s, -, -, -, -, hlabel⟩ := h
  exact hlabel

theorem SpellsAlias.unique {other name : List Char} (h : SpellsAlias entry ref label)
    (hother : SpellsAlias entry other name) : other = ref ∧ name = label := by
  obtain ⟨a, s, hwords, -⟩ := h
  obtain ⟨x, y, hsame, -⟩ := hother
  rw [hwords] at hsame
  cases hsame
  exact ⟨rfl, rfl⟩

theorem SpellsAlias.ofText_eq {entry : String} (h : SpellsAlias entry.toList ref label) (hcolumn : '(' ∉ entry.toList) :
    ofText entry = .aliased (String.ofList ref) (String.ofList label) := by
  rw [ofText, if_neg (by simpa using hcolumn), h.alias?_eq]

theorem ofText_of_not_spellsAlias {entry : String} (h : ∀ ref label, ¬SpellsAlias entry.toList ref label)
    (hcolumn : '(' ∉ entry.toList) : ofText entry = .column entry := by
  have hnone : alias? entry.toList = none :=
    Option.eq_none_iff_forall_ne_some.2 fun (ref, label) halias => h ref label (alias?_eq_some.1 halias)
  rw [ofText, if_neg (by simpa using hcolumn), hnone]

/-- The reference in front of an alias does not have the alias for its last part, nor has any text that goes on behind it
with a blank. -/
theorem SpellsAlias.lastPart_ne (h : SpellsAlias entry ref label) : lastPart entry ≠ label := by
  obtain ⟨a, s, hwords, ha, hs, -, hlabel⟩ := h
  obtain ⟨front, rest, rfl, -, -, -, hgap, hrest⟩ := Text.exists_of_words_cons hwords
  have hrestne : rest ≠ [] := by
    rintro rfl
    cases hrest
  have hundotted : '.' ∉ rest := by
    intro hdot
    have hmem : '.' ∈ rest.filter (!isBlank ·) := List.mem_filter.2 ⟨hdot, rfl⟩
    rw [← Text.flatten_words, hrest] at hmem
    simp only [List.flatten_cons, List.flatten_nil, List.append_nil, List.mem_append, List.mem_cons, List.not_mem_nil,
      or_false] at hmem
    rcases hmem with (rfl | rfl) | hmem
    · simp [matchesLetter] at ha
    · simp [matchesLetter] at hs
    · exact absurd (hlabel '.' hmem) (by decide +kernel)
  obtain ⟨gap, rest, rfl⟩ := List.exists_cons_of_ne_nil hrestne
  intro hsame
  rw [← List.append_assoc, Text.lastPart_append _ hundotted] at hsame
  have hblank := hgap gap rfl
  have hword := hlabel gap (hsame ▸ List.mem_append_right _ List.mem_cons_self)
  rw [isBlank_of_isWord hword] at hblank
  cases hblank

end Sql.Projected

/-! ### Headings -/

namespace Dialect

variable {d : Dialect} {last : List Char}

/-- The heading of a column behind the last part of its reference: the name behind an alias word, if one follows. -/
def readAlias (d : Dialect) (last : List Char) : List Char → Option (List Char)
  | [] => some last
  | ' ' :: 'A' :: 'S' :: ' ' :: text =>
    match d.readName text with
    | some (label, []) => some label
    | _ => none
  | _ => none

/-- The heading of a column that is written as a reference, with or without an alias. -/
def readHeading (d : Dialect) (text : List Char) : Option (List Char) :=
  match _ : d.readPart text with
  | none => none
  | some (last, []) => some last
  | some (last, c :: rest) => if c = '.' then d.readHeading rest else d.readAlias last (c :: rest)
termination_by text.length
decreasing_by
  have hread : d.readPart text = some (last, c :: rest) := by assumption
  exact Nat.lt_of_succ_lt (length_readPart hread)

theorem readHeading_next {name rest : List Char} (h : d.readPart text = some (name, '.' :: rest)) :
    d.readHeading text = d.readHeading rest := by
  rw [readHeading]
  split <;> simp_all

theorem readHeading_last {rest : List Char} (h : d.readPart text = some (last, rest)) (hrest : rest.head? ≠ some '.') :
    d.readHeading text = d.readAlias last rest := by
  cases rest with
  | nil =>
      rw [readHeading]
      split <;> simp_all [readAlias]
  | cons c rest =>
      have hdot : c ≠ '.' := fun heq => hrest (congrArg some heq)
      rw [readHeading]
      split <;> simp_all

theorem readHeading_separated (first : String) (names : List String) {tail : List Char}
    (htail : tail.head? ≠ some '.' ∧ tail.head? ≠ some d.closeQuote) :
    d.readHeading ((Fragment.separated "." ((first :: names).map part)).write d ++ tail) =
      d.readAlias (((first :: names).map String.toList).getLast (by simp)) tail := by
  induction names generalizing first with
  | nil => exact readHeading_last (readPart_part d first tail htail.2) htail.1
  | cons next names ih =>
      have hnext := readPart_part d first ('.' :: ((Fragment.separated "." ((next :: names).map part)).write d ++ tail))
        (by simpa using d.dot_ne_closeQuote)
      rw [write_parts, List.append_assoc, List.cons_append, readHeading_next hnext, ih]
      rfl

/-- The heading of a reference is its last part, unless an alias follows. -/
theorem readHeading_reference (ref : String) {tail : List Char}
    (htail : tail.head? ≠ some '.' ∧ tail.head? ≠ some d.closeQuote) :
    d.readHeading ((Fragment.reference ref).write d ++ tail) = d.readAlias (lastPart ref.toList) tail := by
  have hsplit := Text.toList_splitDots ref
  have hreference : Fragment.reference ref = Fragment.separated "." ((Text.splitDots ref).map part) := rfl
  simp only [hreference, lastPart, ← hsplit]
  obtain ⟨first, names, hparts⟩ := List.exists_cons_of_ne_nil (Text.splitDots_ne_nil ref)
  simp only [hparts]
  exact readHeading_separated first names htail

theorem readHeading_column (d : Dialect) (ref : String) :
    d.readHeading (Fragment.text d (Projected.column ref).fragment).toList = some (lastPart ref.toList) := by
  have hread : d.readHeading ((Fragment.reference ref).write d ++ []) = some (lastPart ref.toList) :=
    readHeading_reference ref (by simp)
  rw [List.append_nil] at hread
  rw [Fragment.text, String.toList_ofList]
  exact hread

theorem readHeading_aliased (d : Dialect) (ref label : String) :
    d.readHeading (Fragment.text d (Projected.aliased ref label).fragment).toList = some label.toList := by
  have hname : d.readName (d.quotedName label.toList ++ []) = some (label.toList, []) :=
    readName_quotedName label.toList (by simp)
  have hspace : ' ' ≠ d.closeQuote := by cases d <;> decide
  have hwritten : (Projected.aliased ref label).fragment.write d =
      (Fragment.reference ref).write d ++ ' ' :: 'A' :: 'S' :: ' ' :: (d.quotedName label.toList ++ []) :=
    List.flatMap_append
  rw [Fragment.text, String.toList_ofList, hwritten, readHeading_reference ref (by simpa using hspace), readAlias, hname]

end Dialect

namespace ResultName

open Sql.Projected (SpellsAlias)

/-- The entries that are looked up under their own headings: those without either alias; those whose last alias word, in
letters of the alphabet and between single spaces, has the alias alone behind it; and by chance those without an alias
where the dotted capitals in front of the last alias word reach just to the last part. -/
inductive Faithful (entry : List Char) : Prop
  | column (hcolumn : ∀ ref label, ¬SpellsAlias entry ref label) (hword : ¬HasAs entry)
  | aliased (ref label before behind : List Char) (halias : SpellsAlias entry ref label)
      (hword : LastAs entry before behind) (hlabel : Text.words behind = [label])
      (hshift : before.count '\u0130' ≤ (behind.takeWhile isBlank).length)
  | shifted (before skipped last : List Char) (hcolumn : ∀ ref label, ¬SpellsAlias entry ref label)
      (hword : LastAs entry before (skipped ++ '.' :: last)) (hdot : '.' ∉ last) (hlast : stripBy isBlank last = last)
      (hshift : (skipped ++ '.' :: last).drop (before.count '\u0130') = last)

/-- The alias word is one of the words. -/
theorem AsBetween.words_eq (h : AsBetween text before behind) :
    ∃ a s, Text.words text = Text.words before ++ [a, s] :: Text.words behind := by
  obtain ⟨a, s, rfl, ha, hs⟩ := h
  have hblank : ∀ c ∈ [a, s], isBlank c = false :=
    isBlank_of_alias (by simp [matchesLetter, ha]) (by simp [matchesLetter, hs])
  have hword : Text.words (a :: s :: ' ' :: behind) = [a, s] :: Text.words (' ' :: behind) :=
    Text.words_word (List.cons_ne_nil _ _) hblank (fun c hc => by cases hc; rfl)
  exact ⟨a, s, by rw [Text.words_append rfl, hword, Text.words_blank rfl]⟩

/-- What follows the alias word and some more characters is the last part of a text only behind a dot. -/
theorem AsBetween.strip_eq_lastPart_iff (h : AsBetween text before behind) (shift : Nat) :
    stripBy isBlank (behind.drop shift) = lastPart text ↔ ∃ skipped last, behind = skipped ++ '.' :: last ∧
      behind.drop shift = last ∧ '.' ∉ last ∧ stripBy isBlank last = last := by
  obtain ⟨a, s, rfl, -, -⟩ := h
  constructor
  · intro hsame
    have hundotted : '.' ∉ behind.drop shift := by
      intro hdot
      have hkept := Text.mem_stripBy hdot rfl
      rw [hsame] at hkept
      exact (Text.lastPart_cases _).1 hkept
    have hsplit : before ++ ' ' :: a :: s :: ' ' :: behind =
        (before ++ [' ', a, s, ' '] ++ behind.take shift) ++ behind.drop shift := by
      simp
    rw [hsplit, Text.lastPart_append _ hundotted] at hsame
    -- nothing is stripped off, and nothing stands between the last dot in front and the characters that are left
    have hlength := Text.length_stripBy (behind.drop shift)
    rw [hsame, List.length_append] at hlength
    have hnil : lastPart (before ++ [' ', a, s, ' '] ++ behind.take shift) = [] :=
      List.eq_nil_of_length_eq_zero (by omega)
    rw [hnil, List.nil_append] at hsame
    obtain ⟨prior, hprior⟩ := Text.exists_of_lastPart_eq_nil (by simp) hnil
    have hlast := congrArg List.getLast? hprior
    rw [List.getLast?_concat] at hlast
    rcases List.eq_nil_or_concat (behind.take shift) with htake | ⟨skipped, c, htake⟩
    · rw [htake] at hlast
      simp at hlast
    · rw [List.concat_eq_append] at htake
      rw [htake, ← List.append_assoc, List.getLast?_concat] at hlast
      cases hlast
      refine ⟨skipped, behind.drop shift, ?_, rfl, hundotted, hsame⟩
      calc behind = behind.take shift ++ behind.drop shift := (List.take_append_drop shift behind).symm
        _ = skipped ++ '.' :: behind.drop shift := by
            rw [htake, List.append_assoc]
            rfl
  · rintro ⟨skipped, last, hbehind, hdrop, hdot, hstrip⟩
    have hsplit : before ++ ' ' :: a :: s :: ' ' :: behind =
        (before ++ ' ' :: a :: s :: ' ' :: skipped) ++ '.' :: last := by
      simp [hbehind]
    rw [hdrop, hstrip, hsplit, Text.lastPart_behind, Text.lastPart_of_not_mem hdot]

/-- Where words stand on both sides of the alias word, it is the second of the three. -/
theorem AsBetween.words_behind (h : AsBetween text before behind) (halias : SpellsAlias text ref label)
    (hbefore : Text.words before ≠ []) (hbehind : Text.words behind ≠ []) : Text.words behind = [label] := by
  obtain ⟨a, s, hspelled⟩ := h.words_eq
  obtain ⟨x, y, hwords, -⟩ := halias
  obtain ⟨first, firsts, hfirst⟩ := List.exists_cons_of_ne_nil hbefore
  obtain ⟨last, lasts, hlast⟩ := List.exists_cons_of_ne_nil hbehind
  rw [hfirst, hlast, hwords] at hspelled
  have hlength := congrArg List.length hspelled
  simp only [List.length_cons, List.length_append, List.length_nil] at hlength
  have hfirsts : firsts = [] := List.eq_nil_of_length_eq_zero (by omega)
  have hlasts : lasts = [] := List.eq_nil_of_length_eq_zero (by omega)
  rw [hfirsts, hlasts] at hspelled
  rw [hlast, hlasts]
  cases hspelled
  rfl

/-- What follows the alias word and some more characters is the alias of an entry only if the alias alone follows the alias
word, and the characters are blanks in front of it. -/
theorem AsBetween.strip_eq_label_iff (h : AsBetween text before behind) (halias : SpellsAlias text ref label) :
    stripBy isBlank (behind.drop (before.count '\u0130')) = label ↔
      Text.words behind = [label] ∧ before.count '\u0130' ≤ (behind.takeWhile isBlank).length := by
  have hlabelne : label ≠ [] := halias.label_ne_nil
  have hlabelblank : ∀ c ∈ label, isBlank c = false := fun c hc => isBlank_of_isWord (halias.isWord_label c hc)
  constructor
  · intro hstrip
    have hleft : Text.words (behind.drop (before.count '\u0130')) = [label] := by
      rw [← Text.words_stripBy, hstrip, Text.words_singleton hlabelne hlabelblank]
    have hbehind : Text.words behind = [label] := by
      by_cases hshift : before.count '\u0130' = 0
      · rwa [hshift, List.drop_zero] at hleft
      · -- a dotted capital is no blank, and the alias is part of what stands behind
        have hdotted : '\u0130' ∈ before := List.one_le_count_iff.1 (Nat.pos_of_ne_zero hshift)
        refine h.words_behind halias (fun hnil => ?_) (fun hnil => ?_)
        · have hblank := Text.words_eq_nil_iff.1 hnil _ hdotted
          have hplain : isBlank '\u0130' = false := by decide +kernel
          rw [hplain] at hblank
          cases hblank
        · have hblanks := Text.words_eq_nil_iff.1 hnil
          rw [Text.words_blanks fun c hc => hblanks c (List.mem_of_mem_drop hc)] at hleft
          cases hleft
    exact ⟨hbehind, Text.le_length_takeWhile (by rw [hbehind]; exact List.cons_ne_nil _ _) (hleft.trans hbehind.symm)⟩
  · rintro ⟨hbehind, hshift⟩
    obtain ⟨front, back, rfl, hfront, -, -, hback, hnone⟩ := Text.exists_of_words_cons hbehind
    rw [Text.takeWhile_stretch hfront (Text.head?_word hlabelne hlabelblank back)] at hshift
    rw [List.drop_append_of_le_length hshift]
    exact Text.stripBy_between (fun c hc => hfront c (List.mem_of_mem_drop hc)) hlabelne hlabelblank
      (Text.words_eq_nil_iff.1 hnone)

/-! ### Agreement -/

/-- An entry without an alias has its last part for its result name just if it is faithful. -/
theorem ofColumn_eq_lastPart_iff {entry : String} (hcolumn : ∀ ref label, ¬SpellsAlias entry.toList ref label) :
    (ofColumn entry).toList = lastPart entry.toList ↔ Faithful entry.toList := by
  constructor
  · intro hsame
    by_cases hword : HasAs entry.toList
    · obtain ⟨before, behind, hlast⟩ := exists_lastAs hword
      rw [ofColumn_lastAs hlast] at hsame
      obtain ⟨skipped, last, rfl, hshift, hdot, hstrip⟩ := (hlast.1.strip_eq_lastPart_iff _).1 hsame
      exact .shifted before skipped last hcolumn hlast hdot hstrip hshift
    · exact .column hcolumn hword
  · intro hfaithful
    cases hfaithful with
    | column _ hword => exact ofColumn_unaliased hword
    | aliased ref label _ _ halias => exact absurd halias (hcolumn ref label)
    | shifted before skipped last _ hword hdot hlast hshift =>
        rw [ofColumn_lastAs hword]
        exact (hword.1.strip_eq_lastPart_iff _).2 ⟨skipped, last, rfl, hshift, hdot, hlast⟩

/-- An entry with an alias has it for its result name just if it is faithful. -/
theorem ofColumn_eq_label_iff {entry : String} (halias : SpellsAlias entry.toList ref label) :
    (ofColumn entry).toList = label ↔ Faithful entry.toList := by
  constructor
  · intro hsame
    by_cases hword : HasAs entry.toList
    · obtain ⟨before, behind, hlast⟩ := exists_lastAs hword
      rw [ofColumn_lastAs hlast] at hsame
      obtain ⟨hlabel, hshift⟩ := (hlast.1.strip_eq_label_iff halias).1 hsame
      exact .aliased ref label before behind halias hlast hlabel hshift
    · rw [ofColumn_unaliased hword] at hsame
      exact absurd hsame halias.lastPart_ne
  · intro hfaithful
    cases hfaithful with
    | column hcolumn _ => exact absurd halias (hcolumn ref label)
    | aliased other name before behind hother hword hlabel hshift =>
        obtain ⟨rfl, rfl⟩ := halias.unique hother
        rw [ofColumn_lastAs hword]
        exact (hword.1.strip_eq_label_iff halias).2 ⟨hlabel, hshift⟩
    | shifted _ _ _ hcolumn => exact absurd halias (hcolumn ref label)

/-- The heading that a statement gives to an entry of its projection. -/
def heading? (d : Dialect) (entry : String) : Option (List Char) :=
  d.readHeading (Fragment.text d (Projected.ofText entry).fragment).toList

theorem heading?_alias (d : Dialect) {entry : String} (hcolumn : '(' ∉ entry.toList)
    (halias : SpellsAlias entry.toList ref label) : heading? d entry = some label := by
  rw [heading?, halias.ofText_eq hcolumn, Dialect.readHeading_aliased, String.toList_ofList]

theorem heading?_column (d : Dialect) {entry : String} (hcolumn : '(' ∉ entry.toList)
    (hnone : ∀ ref label, ¬SpellsAlias entry.toList ref label) : heading? d entry = some (lastPart entry.toList) := by
  rw [heading?, Sql.Projected.ofText_of_not_spellsAlias hnone hcolumn, Dialect.readHeading_column]

theorem heading?_faithful (d : Dialect) {entry : String} (hcolumn : '(' ∉ entry.toList) (h : Faithful entry.toList) :
    heading? d entry = some (ofColumn entry).toList := by
  by_cases halias : ∃ ref label, SpellsAlias entry.toList ref label
  · obtain ⟨ref, label, halias⟩ := halias
    rw [heading?_alias d hcolumn halias, (ofColumn_eq_label_iff halias).2 h]
  · have hnone : ∀ ref label, ¬SpellsAlias entry.toList ref label := fun ref label hspells => halias ⟨ref, label, hspells⟩
    rw [heading?_column d hcolumn hnone, (ofColumn_eq_lastPart_iff hnone).2 h]

theorem carriedBy_headings (d : Dialect) (name : String) (columns : List String)
    (hcolumns : ∀ column ∈ columns, '(' ∉ column.toList ∧ Faithful column.toList) :
    carriedBy name (columns.map .text) = .ok (columns.any fun column =>
      column = "*" || column.endsWith ".*" || heading? d column = some name.toList) := by
  induction columns with
  | nil => rfl
  | cons column columns ih =>
      obtain ⟨⟨hcolumn, hfaithful⟩, hcolumns⟩ := List.forall_mem_cons.1 hcolumns
      rw [List.map_cons, carriedBy, ih hcolumns, List.any_cons, heading?_faithful d hcolumn hfaithful]
      simp only [Option.some.injEq, String.toList_inj]
      split
      · rename_i hcarried
        simp [hcarried]
      · rename_i hcarried
        simp [hcarried]

/-- The check of a projection of faithful columns asks for the headings that the statement gives them. -/
theorem projects_headings (d : Dialect) (columns : List String) {key : String} (hkey : '(' ∉ key.toList)
    (hfaithful : Faithful key.toList)
    (hcolumns : ∀ column ∈ columns, '(' ∉ column.toList ∧ Faithful column.toList) :
    projects (.list (columns.map .text)) (.text key) = .ok (columns.isEmpty || columns.any fun column =>
      column = "*" || column.endsWith ".*" || heading? d column = heading? d key) := by
  have hname : ofValue (.text key) = .ok (ofColumn key) := rfl
  rw [heading?_faithful d hkey hfaithful, projects, hname]
  cases columns with
  | nil => rfl
  | cons column columns => exact carriedBy_headings d (ofColumn key) (column :: columns) hcolumns

/-- Every entry without a parenthesis is written as a column with a heading, which a reader finds: the alias if the entry
spells one, and else the last part of its reference. The name under which the column is looked up in result rows is that
heading exactly for the faithful entries; and among faithful columns, one is asked for by the headings. -/
theorem heading_found_iff_faithful (d : Dialect) (entry : String) (hcolumn : '(' ∉ entry.toList) :
    ∃ heading, heading? d entry = some heading ∧
      (∀ ref label, SpellsAlias entry.toList ref label →
        Projected.ofText entry = .aliased (String.ofList ref) (String.ofList label) ∧ heading = label) ∧
      ((∀ ref label, ¬SpellsAlias entry.toList ref label) →
        Projected.ofText entry = .column entry ∧ heading = lastPart entry.toList) ∧
      ((ofColumn entry).toList = heading ↔ Faithful entry.toList) ∧
      ∀ columns : List String, (∀ column ∈ entry :: columns, '(' ∉ column.toList ∧ Faithful column.toList) →
        projects (.list (columns.map .text)) (.text entry) = .ok (columns.isEmpty || columns.any fun column =>
          column = "*" || column.endsWith ".*" || heading? d column = some heading) := by
  have hprojects : ∀ heading, heading? d entry = some heading → ∀ columns : List String,
      (∀ column ∈ entry :: columns, '(' ∉ column.toList ∧ Faithful column.toList) →
        projects (.list (columns.map .text)) (.text entry) = .ok (columns.isEmpty || columns.any fun column =>
          column = "*" || column.endsWith ".*" || heading? d column = some heading) := by
    intro heading hheading columns hcolumns
    obtain ⟨⟨-, hfaithful⟩, hcolumns⟩ := List.forall_mem_cons.1 hcolumns
    rw [← hheading]
    exact projects_headings d columns hcolumn hfaithful hcolumns
  by_cases halias : ∃ ref label, SpellsAlias entry.toList ref label
  · obtain ⟨ref, label, halias⟩ := halias
    have hheading := heading?_alias d hcolumn halias
    refine ⟨label, hheading, fun other name hother => ?_, fun hnone => absurd halias (hnone ref label),
      ofColumn_eq_label_iff halias, hprojects label hheading⟩
    obtain ⟨rfl, rfl⟩ := halias.unique hother
    exact ⟨halias.ofText_eq hcolumn, rfl⟩
  · have hnone : ∀ ref label, ¬SpellsAlias entry.toList ref label := fun ref label hspells => halias ⟨ref, label, hspells⟩
    have hheading := heading?_column d hcolumn hnone
    exact ⟨lastPart entry.toList, hheading, fun ref label hspells => absurd hspells (hnone ref label),
      fun _ => ⟨Sql.Projected.ofText_of_not_spellsAlias hnone hcolumn, rfl⟩, ofColumn_eq_lastPart_iff hnone,
      hprojects _ hheading⟩

/-- The alias of a column is its result name in every dialect, also where the column has a table in front. -/
theorem heading_found_alias :
    '(' ∉ "u.id AS n".toList ∧ SpellsAlias "u.id AS n".toList "u.id".toList "n".toList ∧
    Faithful "u.id AS n".toList ∧
    ∃ heading, heading? .mysql "u.id AS n" = some heading ∧ heading = "n".toList ∧
      (ofColumn "u.id AS n").toList = heading ∧
      projects (.list [.text "u.id AS n"]) (.text "u.id AS n") = .ok true := by
  have hcolumn : '(' ∉ "u.id AS n".toList := by decide
  have halias : SpellsAlias "u.id AS n".toList "u.id".toList "n".toList :=
    Sql.Projected.alias?_eq_some.1 (by decide +kernel)
  have hword : LastAs "u.id AS n".toList "u.id".toList "n".toList := by
    refine ⟨⟨'A', 'S', rfl, rfl, rfl⟩, ?_⟩
    rintro ⟨before, behind, a, s, htext, -, -⟩
    have hlength := congrArg List.length htext
    simp at hlength
    omega
  have hfaithful : Faithful "u.id AS n".toList := .aliased _ _ _ _ halias hword (by decide +kernel) (by decide +kernel)
  obtain ⟨heading, hheading, haliased, -, hagree, hprojects⟩ := heading_found_iff_faithful .mysql "u.id AS n" hcolumn
  have hasked := hprojects ["u.id AS n"] (by simpa using And.intro hcolumn hfaithful)
  simp only [List.any_cons, hheading, decide_true, Bool.or_true, Bool.true_or] at hasked
  exact ⟨hcolumn, halias, hfaithful, heading, hheading, (haliased _ _ halias).2, hagree.2 hfaithful, hasked⟩

/-- Tabs around the alias word hide it from one side, and a column that is more than a reference hides it from the
other. -/
theorem heading_lost :
    Fragment.text .sqlite (Projected.ofText "id\tAS\tn").fragment = "\"id\" AS \"n\"" ∧
      ofColumn "id\tAS\tn" = "id\tAS\tn" ∧
    Fragment.text .sqlite (Projected.ofText "a-b as c").fragment = "\"a-b as c\"" ∧ ofColumn "a-b as c" = "c" := by
  decide +kernel

end ResultName

end Polyquery
