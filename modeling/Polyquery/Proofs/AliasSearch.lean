import Polyquery.Proofs.Words
import Polyquery.Query.ResultName

/-! The search for the alias word. It is done in small letters, and what it finds is taken from the column itself: the two
agree on where the last alias word begins, except that the dotted capital I becomes two characters in small letters. -/

namespace Polyquery

open ResultName (aliasWord)

variable {letter c : Char}

/-! ### Small letters -/

namespace Text

/-- Behind the first row, which has the basic alphabet, the letters of the alias word are neither capitals nor their small
letters. -/
theorem row_outside_aliasWord {row : CapitalRow} (hrow : row ∈ capitalRows.tail) (hletter : letter ∈ aliasWord) :
    letter.toNat < row.first ∧ ((letter.toNat : Int) < row.first + row.shift ∨ row.last + row.shift < letter.toNat) := by
  have hrows : (capitalRows.tail.all fun row => aliasWord.all fun letter => letter.toNat < row.first &&
      ((letter.toNat : Int) < row.first + row.shift || row.last + row.shift < letter.toNat)) = true := by
    decide +kernel
  simpa using List.all_eq_true.1 (List.all_eq_true.1 hrows row hrow) letter hletter

theorem isUpper_iff : c.isUpper ↔ 65 ≤ c.toNat ∧ c.toNat ≤ 90 := decide_eq_true_iff

theorem toLower_of_not_isUpper (h : ¬c.isUpper) : c.toLower = c := dif_neg fun hcapital => h (decide_eq_true hcapital)

theorem toNat_toLower (h : c.isUpper) : c.toLower.toNat = c.toNat + 32 := by
  have hsmall : c.toLower.toNat = (c.val + 32).toNat := congrArg Char.toNat (dif_pos (of_decide_eq_true h))
  have hcode : c.val.toNat = c.toNat := rfl
  have hrange := isUpper_iff.1 h
  rw [hsmall, UInt32.toNat_add, hcode]
  exact Nat.mod_eq_of_lt (Nat.lt_of_le_of_lt (Nat.add_le_add_right hrange.2 32) (by decide))

theorem lowerChar_of_isUpper (h : c.isUpper) : lowerChar c = c.toLower := by
  have hrange := isUpper_iff.1 h
  have hfirst : capitalRows = ⟨65, 90, 1, 32⟩ :: capitalRows.tail := rfl
  rw [lowerChar, hfirst, List.find?_cons_of_pos (by simp [hrange, Nat.mod_one]), ← Char.ofNat_toNat c.toLower,
    toNat_toLower h]
  rfl

theorem toNat_of_ofNat {code : Nat} (h : Char.ofNat code = c) (hc : 0 < c.toNat) : code = c.toNat := by
  by_cases hvalid : code.isValidChar
  · have hcode : Char.ofNat code = Char.ofNatAux code hvalid := dif_pos hvalid
    rw [← h, hcode]
    rfl
  · have hnone : Char.ofNat code = '\x00' := dif_neg hvalid
    rw [← h, hnone] at hc
    exact absurd hc (Nat.lt_irrefl 0)

/-- The small letter of a character is a letter of the alias word only for that letter and its basic capital. -/
theorem lowerChar_eq_iff (hletter : letter ∈ aliasWord) : lowerChar c = letter ↔ c.toLower = letter := by
  by_cases hupper : c.isUpper
  · rw [lowerChar_of_isUpper hupper]
  · have hrange := mt isUpper_iff.2 hupper
    have hfirst : capitalRows = ⟨65, 90, 1, 32⟩ :: capitalRows.tail := rfl
    rw [toLower_of_not_isUpper hupper, lowerChar, hfirst, List.find?_cons_of_neg (by simp_all [Nat.mod_one])]
    split
    · rename_i row hfind
      obtain ⟨hbelow, hshifted⟩ := row_outside_aliasWord (List.mem_of_find?_eq_some hfind) hletter
      have hfound := List.find?_some hfind
      simp only [Bool.and_eq_true, decide_eq_true_eq] at hfound
      have hletters : ∀ letter ∈ aliasWord, 0 < letter.toNat := by simp [aliasWord]
      have hpositive := hletters letter hletter
      refine iff_of_false (fun hsmall => ?_) (fun hsame => ?_)
      · have hcode := toNat_of_ofNat hsmall hpositive
        omega
      · rw [hsame] at hfound
        omega
    · rfl

theorem lowerAfter_dotted (before rest : List Char) :
    lowerAfter before ('\u0130' :: rest) = 'i' :: '\u0307' :: lowerAfter ('\u0130' :: before) rest := rfl

/-- Every other character has one small letter, and that is a letter of the alias word only where the character is. -/
theorem lowerAfter_cons (hc : c ≠ '\u0130') (before rest : List Char) :
    ∃ small, lowerAfter before (c :: rest) = small :: lowerAfter (c :: before) rest ∧
      ∀ letter ∈ aliasWord, small = letter ↔ c.toLower = letter := by
  rw [lowerAfter, if_neg hc]
  by_cases hsigma : c = 'Σ'
  · rw [if_pos hsigma]
    refine ⟨_, rfl, fun letter hletter => ?_⟩
    have hletters : ∀ letter ∈ aliasWord, 'ς' ≠ letter ∧ 'σ' ≠ letter ∧ 'Σ'.toLower ≠ letter := by simp [aliasWord]
    obtain ⟨hfinal, hinner, hcapital⟩ := hletters letter hletter
    rw [hsigma]
    split
    · exact iff_of_false hfinal hcapital
    · exact iff_of_false hinner hcapital
  · rw [if_neg hsigma]
    exact ⟨_, rfl, fun letter hletter => lowerChar_eq_iff hletter⟩

end Text

/-! ### The last alias word -/

namespace ResultName

variable {text before behind rest : List Char}

/-- A text with the alias word in it, in letters of either case and between single spaces. -/
def AsBetween (text before behind : List Char) : Prop :=
  ∃ a s, text = before ++ ' ' :: a :: s :: ' ' :: behind ∧ a.toLower = 'a' ∧ s.toLower = 's'

def HasAs (text : List Char) : Prop := ∃ before behind, AsBetween text before behind

/-- The last alias word of a text: no other one follows, not even one that begins with the space that ends it. -/
def LastAs (text before behind : List Char) : Prop := AsBetween text before behind ∧ ¬HasAs (' ' :: behind)

theorem AsBetween.cons (h : AsBetween text before behind) (c : Char) : AsBetween (c :: text) (c :: before) behind := by
  obtain ⟨a, s, rfl, ha, hs⟩ := h
  exact ⟨a, s, rfl, ha, hs⟩

theorem HasAs.cons (h : HasAs text) (c : Char) : HasAs (c :: text) := by
  obtain ⟨before, behind, has⟩ := h
  exact ⟨c :: before, behind, has.cons c⟩

/-- A text that has the alias word begins with it or has it further on. -/
theorem hasAs_cons_iff : HasAs (c :: text) ↔ (∃ behind, AsBetween (c :: text) [] behind) ∨ HasAs text := by
  constructor
  · rintro ⟨before, behind, a, s, htext, ha, hs⟩
    cases before with
    | nil => exact .inl ⟨behind, a, s, htext, ha, hs⟩
    | cons first before => exact .inr ⟨before, behind, a, s, (List.cons_eq_cons.1 htext).2, ha, hs⟩
  · rintro (⟨behind, hhere⟩ | hfurther)
    · exact ⟨_, _, hhere⟩
    · exact hfurther.cons c

theorem HasAs.of_cons (hc : c ≠ ' ') (h : HasAs (c :: text)) : HasAs text := by
  refine (hasAs_cons_iff.1 h).resolve_left ?_
  rintro ⟨behind, a, s, htext, -, -⟩
  exact hc (List.cons_eq_cons.1 htext).1

theorem not_hasAs_nil : ¬HasAs [] := by
  rintro ⟨before, behind, a, s, htext, -, -⟩
  simp at htext

theorem exists_lastAs (h : HasAs text) : ∃ before behind, LastAs text before behind := by
  induction text with
  | nil => exact absurd h not_hasAs_nil
  | cons c text ih =>
      by_cases hfurther : HasAs text
      · obtain ⟨before, behind, has, hlast⟩ := ih hfurther
        exact ⟨c :: before, behind, has.cons c, hlast⟩
      · obtain ⟨behind, hhere⟩ := (hasAs_cons_iff.1 h).resolve_right hfurther
        refine ⟨[], behind, hhere, fun hmore => hfurther ?_⟩
        obtain ⟨a, s, htext, -, -⟩ := hhere
        rw [(List.cons_eq_cons.1 htext).2]
        exact (hmore.cons s).cons a

/-- Small letters have a letter of the alias word first exactly where the text has it, in either case. -/
theorem cons_prefix_lowerAfter {word : List Char} (hletter : letter ∈ aliasWord) (earlier : List Char) :
    letter :: word <+: Text.lowerAfter earlier text ↔
      ∃ c rest, text = c :: rest ∧ c.toLower = letter ∧ word <+: Text.lowerAfter (c :: earlier) rest := by
  cases text with
  | nil => simp [Text.lowerAfter]
  | cons c rest =>
      by_cases hdotted : c = '\u0130'
      · have hletters : ∀ letter ∈ aliasWord, letter ≠ 'i' ∧ letter ≠ '\u0130' := by simp [aliasWord]
        obtain ⟨hi, hdot⟩ := hletters letter hletter
        rw [hdotted, Text.lowerAfter_dotted, List.cons_prefix_cons]
        simp [hi, hdot.symm]
      · obtain ⟨small, hsmall, hsame⟩ := Text.lowerAfter_cons hdotted earlier rest
        rw [hsmall, List.cons_prefix_cons, eq_comm, hsame letter hletter]
        exact ⟨fun h => ⟨c, rest, rfl, h⟩, fun ⟨_, _, htext, h⟩ => by cases htext; exact h⟩

theorem toLower_eq_space : c.toLower = ' ' ↔ c = ' ' := by
  by_cases hupper : c.isUpper
  · have hrange := Text.isUpper_iff.1 hupper
    refine iff_of_false (fun hspace => ?_) (fun hspace => ?_)
    · have hcode := Text.toNat_toLower hupper
      rw [hspace] at hcode
      change 32 = c.toNat + 32 at hcode
      omega
    · rw [hspace] at hupper
      simp at hupper
  · rw [Text.toLower_of_not_isUpper hupper]

/-- The small letters of a text begin with the alias word exactly if the text does. -/
theorem aliasWord_prefix_iff (earlier : List Char) :
    aliasWord <+: Text.lowerAfter earlier text ↔ ∃ behind, AsBetween text [] behind := by
  have hletters : ∀ letter ∈ [' ', 'a', 's'], letter ∈ aliasWord := by simp [aliasWord]
  simp only [List.forall_mem_cons] at hletters
  obtain ⟨hspace, ha, hs, -⟩ := hletters
  simp only [aliasWord, cons_prefix_lowerAfter hspace, cons_prefix_lowerAfter ha, cons_prefix_lowerAfter hs,
    toLower_eq_space]
  constructor
  · rintro ⟨_, _, rfl, rfl, a, _, rfl, ha, s, _, rfl, hs, _, behind, rfl, rfl, -⟩
    exact ⟨behind, a, s, rfl, ha, hs⟩
  · rintro ⟨behind, a, s, rfl, ha, hs⟩
    exact ⟨_, _, rfl, rfl, a, _, rfl, ha, s, _, rfl, hs, _, behind, rfl, rfl, List.nil_prefix⟩

/-- Two small letters of one capital hide no alias word. -/
theorem lastOccurrence?_dotted (earlier rest : List Char) :
    lastOccurrence? aliasWord (Text.lowerAfter earlier ('\u0130' :: rest)) =
      (lastOccurrence? aliasWord (Text.lowerAfter ('\u0130' :: earlier) rest)).map (· + 2) := by
  rw [Text.lowerAfter_dotted, lastOccurrence?, lastOccurrence?]
  cases lastOccurrence? aliasWord (Text.lowerAfter ('\u0130' :: earlier) rest) with
  | none => simp [aliasWord]
  | some start => rfl

theorem lastOccurrence?_other (hc : c ≠ '\u0130') (earlier rest : List Char) :
    lastOccurrence? aliasWord (Text.lowerAfter earlier (c :: rest)) =
      ((lastOccurrence? aliasWord (Text.lowerAfter (c :: earlier) rest)).map (· + 1)).or
        (if aliasWord.isPrefixOf (Text.lowerAfter earlier (c :: rest)) then some 0 else none) := by
  obtain ⟨small, hsmall, -⟩ := Text.lowerAfter_cons hc earlier rest
  rw [hsmall, lastOccurrence?]
  cases lastOccurrence? aliasWord (Text.lowerAfter (c :: earlier) rest) <;> rfl

theorem lastOccurrence?_lower_eq_none (earlier : List Char) (h : ¬HasAs text) :
    lastOccurrence? aliasWord (Text.lowerAfter earlier text) = none := by
  induction text generalizing earlier with
  | nil => rfl
  | cons c rest ih =>
      have hrest := ih (c :: earlier) fun hrest => h (hrest.cons c)
      by_cases hdotted : c = '\u0130'
      · rw [hdotted] at hrest ⊢
        rw [lastOccurrence?_dotted, hrest]
        rfl
      · have hfirst : ¬aliasWord <+: Text.lowerAfter earlier (c :: rest) := fun hfirst => by
          obtain ⟨behind, has⟩ := (aliasWord_prefix_iff earlier).1 hfirst
          exact h ⟨[], behind, has⟩
        rw [lastOccurrence?_other hdotted, hrest]
        simpa using hfirst

/-- The last alias word is found in the small letters, one character further for every dotted capital in front of it. -/
theorem lastOccurrence?_lower (earlier : List Char) (h : LastAs text before behind) :
    lastOccurrence? aliasWord (Text.lowerAfter earlier text) = some (before.length + before.count '\u0130') := by
  obtain ⟨⟨a, s, rfl, ha, hs⟩, hlast⟩ := h
  induction before generalizing earlier with
  | nil =>
      have hletters : a ≠ ' ' ∧ s ≠ ' ' := by
        constructor <;> rintro rfl <;> simp at ha hs
      have hfurther : ¬HasAs (a :: s :: ' ' :: behind) := fun hmore =>
        hlast ((hmore.of_cons hletters.1).of_cons hletters.2)
      have hfirst : aliasWord <+: Text.lowerAfter earlier (' ' :: a :: s :: ' ' :: behind) :=
        (aliasWord_prefix_iff earlier).2 ⟨behind, a, s, rfl, ha, hs⟩
      rw [List.nil_append, lastOccurrence?_other (by simp), lastOccurrence?_lower_eq_none _ hfurther]
      simpa using hfirst
  | cons c before ih =>
      have hrest := ih (c :: earlier)
      by_cases hdotted : c = '\u0130'
      · rw [hdotted] at hrest ⊢
        rw [List.cons_append, lastOccurrence?_dotted, hrest, List.count_cons_self]
        simp only [Option.map_some, List.length_cons]
        congr 1
        omega
      · rw [List.cons_append, lastOccurrence?_other hdotted, hrest, List.count_cons_of_ne hdotted]
        simp only [Option.map_some, Option.some_or, List.length_cons]
        congr 1
        omega

/-! ### Result names -/

/-- A column without the alias word has its last part for its result name. -/
theorem ofColumn_unaliased {column : String} (h : ¬HasAs column.toList) :
    (ofColumn column).toList = Text.lastPart column.toList := by
  have hparts := Text.toList_splitDots column
  rw [ofColumn, lastOccurrence?_lower_eq_none [] h, List.getLast?_eq_some_getLast (Text.splitDots_ne_nil column)]
  simp only [Option.getD_some, Text.lastPart, ← hparts, List.getLast_map]

/-- A column with the alias word has for its result name what stands behind the last one, but for the blanks at its ends;
for every dotted capital in front of it, a character more is left out. -/
theorem ofColumn_lastAs {column : String} (h : LastAs column.toList before behind) :
    (ofColumn column).toList = Text.stripBy Text.isBlank (behind.drop (before.count '\u0130')) := by
  rw [ofColumn, lastOccurrence?_lower [] h]
  obtain ⟨⟨a, s, htext, -, -⟩, -⟩ := h
  have hdrop : column.toList.drop (before.length + before.count '\u0130' + aliasWord.length) =
      behind.drop (before.count '\u0130') := by
    have hlength : before.length + before.count '\u0130' + aliasWord.length =
        (before ++ [' ', a, s, ' ']).length + before.count '\u0130' := by
      simp only [aliasWord, List.length_append, List.length_cons, List.length_nil]
      omega
    have hsplit : column.toList = (before ++ [' ', a, s, ' ']) ++ behind := by
      rw [htext, List.append_assoc]
      rfl
    rw [hsplit, hlength, ← List.drop_drop, List.drop_left]
  simp only [hdrop, String.toList_ofList]

end ResultName

end Polyquery
