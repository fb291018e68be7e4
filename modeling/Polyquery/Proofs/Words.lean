import Mathlib.Data.List.TakeWhile
import Polyquery.Text.Blank

/-! Texts cut at characters of a class, and the words of a text. What stands in front of a text is taken off it word by
word: blanks in front make no difference, and a word that nothing continues is the first of the words. -/

namespace Polyquery.Text

variable {p : Char → Bool} {text front word rest : List Char} {c gap : Char}

/-! ### Stretches of a class -/

section

variable {α : Type} {p : α → Bool} {word rest : List α}

/-- A stretch that nothing continues is taken off as a whole. -/
theorem takeWhile_stretch (hword : ∀ c ∈ word, p c = true) (hrest : ∀ c ∈ rest.head?, p c = false) :
    (word ++ rest).takeWhile p = word := by
  rw [List.takeWhile_append_of_pos hword]
  cases rest with
  | nil => simp
  | cons c rest => simp [hrest c rfl]

theorem dropWhile_stretch (hword : ∀ c ∈ word, p c = true) (hrest : ∀ c ∈ rest.head?, p c = false) :
    (word ++ rest).dropWhile p = rest := by
  rw [List.dropWhile_append_of_pos hword]
  cases rest with
  | nil => rfl
  | cons c rest => simp [hrest c rfl]

end

/-- A text behind a word begins as the word does. -/
theorem head?_word (hne : word ≠ []) (hword : ∀ c ∈ word, p c = false) (rest : List Char) :
    ∀ c ∈ (word ++ rest).head?, p c = false := by
  cases word with
  | nil => exact absurd rfl hne
  | cons c word => simpa using hword c List.mem_cons_self

theorem not_of_head?_dropWhile (h : c ∈ (text.dropWhile p).head?) : p c = false := by
  have hstop := List.head?_dropWhile_not p text
  rw [Option.mem_def.1 h] at hstop
  exact hstop

/-! ### Pieces -/

theorem splitBy_eq_splitOnP (p : Char → Bool) (text : List Char) : splitBy p text = text.splitOnP p := by
  induction text with
  | nil => rfl
  | cons c text ih =>
      rw [splitBy, ih, List.splitOnP_cons_eq_if_modifyHead]
      cases hpieces : text.splitOnP p with
      | nil => exact absurd hpieces (List.splitOnP_ne_nil p text)
      | cons piece pieces => rfl

theorem splitBy_append (hgap : p gap = true) (text rest : List Char) :
    splitBy p (text ++ gap :: rest) = splitBy p text ++ splitBy p rest := by
  simp only [splitBy_eq_splitOnP, List.splitOnP_append_cons text rest hgap]

theorem splitBy_eq_singleton (h : ∀ c ∈ text, p c = false) : splitBy p text = [text] := by
  rw [splitBy_eq_splitOnP, List.splitOnP_eq_singleton h]

theorem toList_splitDots (s : String) : (splitDots s).map String.toList = s.toList.splitOn '.' := by
  rw [splitDots, List.map_map, splitBy_eq_splitOnP]
  exact List.map_id'' (fun _ => String.toList_ofList) _

theorem splitDots_ne_nil (s : String) : splitDots s ≠ [] := fun hnil =>
  List.splitOn_ne_nil '.' s.toList (by rw [← toList_splitDots, hnil]; rfl)

theorem splitDots_injective : Function.Injective splitDots := by
  intro s t h
  have hparts := congrArg (List.map String.toList) h
  rw [toList_splitDots, toList_splitDots] at hparts
  have hjoined := congrArg (List.intercalate ['.']) hparts
  rw [List.intercalate_splitOn, List.intercalate_splitOn] at hjoined
  exact String.toList_inj.1 hjoined

theorem splitDots_undotted {s : String} (h : '.' ∉ s.toList) : splitDots s = [s] := by
  have hpieces : splitBy (· = '.') s.toList = [s.toList] :=
    splitBy_eq_singleton fun c hc => decide_eq_false fun heq => h (heq ▸ hc)
  rw [splitDots, hpieces, List.map_singleton, String.ofList_toList]

/-- A text without dots is the last part of what it is put behind. -/
theorem splitDots_behind (front : String) {s : String} (h : '.' ∉ s.toList) :
    splitDots (front ++ "." ++ s) = splitDots front ++ [s] := by
  have hlist : (front ++ "." ++ s).toList = front.toList ++ '.' :: s.toList := by
    simp [String.toList_append]
  rw [splitDots, hlist, splitBy_append (by decide), List.map_append, ← splitDots, ← splitDots, splitDots_undotted h]

/-! ### Words -/

theorem words_append (hgap : isBlank gap = true) (text rest : List Char) :
    words (text ++ gap :: rest) = words text ++ words rest := by
  rw [words, splitBy_append hgap, List.filter_append, ← words, ← words]

theorem words_blank (h : isBlank c = true) (text : List Char) : words (c :: text) = words text :=
  words_append h [] text

theorem ne_nil_of_mem_words (h : word ∈ words text) : word ≠ [] := by
  simpa using (List.mem_filter.1 h).2

/-- Blanks in front make no difference to the words of a text. -/
theorem words_behind_blanks (hfront : ∀ c ∈ front, isBlank c = true) (text : List Char) :
    words (front ++ text) = words text := by
  induction front with
  | nil => rfl
  | cons c front ih =>
      obtain ⟨hc, hfront⟩ := List.forall_mem_cons.1 hfront
      rw [List.cons_append, words_blank hc, ih hfront]

theorem words_dropWhile (text : List Char) : words (text.dropWhile isBlank) = words text :=
  calc words (text.dropWhile isBlank) = words (text.takeWhile isBlank ++ text.dropWhile isBlank) :=
        (words_behind_blanks (fun _ hc => List.mem_takeWhile_imp hc) _).symm
    _ = words text := by rw [List.takeWhile_append_dropWhile]

theorem words_blanks (h : ∀ c ∈ text, isBlank c = true) : words text = [] := by
  simpa [words, splitBy] using words_behind_blanks h []

theorem words_before_blanks (text : List Char) (hrest : ∀ c ∈ rest, isBlank c = true) :
    words (text ++ rest) = words text := by
  cases rest with
  | nil => rw [List.append_nil]
  | cons gap rest =>
      obtain ⟨hgap, hrest⟩ := List.forall_mem_cons.1 hrest
      rw [words_append hgap, words_blanks hrest, List.append_nil]

theorem words_singleton (hne : word ≠ []) (hword : ∀ c ∈ word, isBlank c = false) : words word = [word] := by
  simp [words, splitBy_eq_singleton hword, hne]

/-- A word that nothing continues is the first of the words. -/
theorem words_word (hne : word ≠ []) (hword : ∀ c ∈ word, isBlank c = false)
    (hrest : ∀ c ∈ rest.head?, isBlank c = true) : words (word ++ rest) = word :: words rest := by
  have hsingle := words_singleton hne hword
  cases rest with
  | nil => rw [List.append_nil, hsingle, words_blanks fun c hc => absurd hc List.not_mem_nil]
  | cons gap rest =>
      have hgap := hrest gap rfl
      rw [words_append hgap, hsingle, words_blank hgap]
      rfl

/-- The stretch of a class without blanks that a text begins with is its first word, if a blank or nothing follows. -/
theorem words_takeWhile (hp : ∀ c, p c = true → isBlank c = false) (hne : text.takeWhile p ≠ [])
    (hrest : ∀ c ∈ (text.dropWhile p).head?, isBlank c = true) :
    words text = text.takeWhile p :: words (text.dropWhile p) :=
  calc words text = words (text.takeWhile p ++ text.dropWhile p) := by rw [List.takeWhile_append_dropWhile]
    _ = text.takeWhile p :: words (text.dropWhile p) :=
        words_word hne (fun c hc => hp c (List.mem_takeWhile_imp hc)) hrest

/-- A text is blanks, then its first word, and then something that has the other words. -/
theorem exists_of_words_cons {others : List (List Char)} (h : words text = word :: others) :
    ∃ front rest, text = front ++ (word ++ rest) ∧ (∀ c ∈ front, isBlank c = true) ∧ word ≠ [] ∧
      (∀ c ∈ word, isBlank c = false) ∧ (∀ c ∈ rest.head?, isBlank c = true) ∧ words rest = others := by
  obtain ⟨front, body, htext, hfront, hbody⟩ : ∃ front body, text = front ++ body ∧ (∀ c ∈ front, isBlank c = true) ∧
      ∀ c ∈ body.head?, isBlank c = false :=
    ⟨text.takeWhile isBlank, text.dropWhile isBlank, List.takeWhile_append_dropWhile.symm,
      fun c hc => List.mem_takeWhile_imp hc, fun c hc => not_of_head?_dropWhile hc⟩
  obtain ⟨found, rest, hsplit, hfound, hrest⟩ : ∃ found rest, body = found ++ rest ∧
      (∀ c ∈ found, isBlank c = false) ∧ ∀ c ∈ rest.head?, isBlank c = true :=
    ⟨body.takeWhile (!isBlank ·), body.dropWhile (!isBlank ·), List.takeWhile_append_dropWhile.symm,
      fun c hc => by simpa using List.mem_takeWhile_imp hc, fun c hc => by simpa using not_of_head?_dropWhile hc⟩
  have hne : found ≠ [] := by
    rintro rfl
    -- a text of blanks has no words
    rw [htext, words_behind_blanks hfront, hsplit, List.nil_append] at h
    cases rest with
    | nil => cases h
    | cons c rest =>
        have hc := hbody c (by rw [hsplit]; rfl)
        rw [hrest c rfl] at hc
        cases hc
  rw [htext, words_behind_blanks hfront, hsplit, words_word hne hfound hrest] at h
  cases h
  exact ⟨front, rest, by rw [htext, hsplit], hfront, hne, hfound, hrest, rfl⟩

/-- The words of a text hold its characters but for the blanks. -/
theorem flatten_words (text : List Char) : (words text).flatten = text.filter (!isBlank ·) := by
  have hpieces : (splitBy isBlank text).flatten = text.filter (!isBlank ·) := by
    induction text with
    | nil => rfl
    | cons c text ih =>
        obtain ⟨piece, pieces, hsplit⟩ := List.exists_cons_of_ne_nil
          (splitBy_eq_splitOnP isBlank text ▸ List.splitOnP_ne_nil isBlank text)
        rw [hsplit] at ih
        rw [splitBy, hsplit, List.filter_cons, ← ih]
        cases isBlank c <;> rfl
  rw [words, List.flatten_filter_not_isEmpty, hpieces]

theorem words_eq_nil_iff : words text = [] ↔ ∀ c ∈ text, isBlank c = true := by
  refine ⟨fun h => ?_, words_blanks⟩
  have hflat := flatten_words text
  rw [h] at hflat
  simpa using hflat.symm

/-- Leaving out characters takes no word away only if they are blanks in front of the first. -/
theorem le_length_takeWhile {n : Nat} (hne : words text ≠ []) (h : words (text.drop n) = words text) :
    n ≤ (text.takeWhile isBlank).length := by
  have hkept := congrArg (List.filter (!isBlank ·)) (List.take_append_drop n text)
  rw [List.filter_append, ← flatten_words (text.drop n), h, ← flatten_words text] at hkept
  have htaken : ∀ c ∈ text.take n, isBlank c = true := by
    simpa using List.append_left_eq_self.1 hkept
  have hlength : n ≤ text.length := by
    by_contra hlength
    rw [List.drop_eq_nil_of_le (Nat.le_of_not_le hlength)] at h
    exact hne h.symm
  calc n = (text.take n).length := (List.length_take_of_le hlength).symm
    _ ≤ ((text.take n ++ text.drop n).takeWhile isBlank).length := by
        rw [List.takeWhile_append_of_pos htaken, List.length_append]
        exact Nat.le_add_right _ _
    _ = (text.takeWhile isBlank).length := by rw [List.take_append_drop]

/-! ### Stripped texts -/

/-- A text between blanks is left when these are stripped off, if it neither begins nor ends with one. -/
theorem stripBy_between {back : List Char} (hfront : ∀ c ∈ front, isBlank c = true) (hne : word ≠ [])
    (hword : ∀ c ∈ word, isBlank c = false) (hback : ∀ c ∈ back, isBlank c = true) :
    stripBy isBlank (front ++ (word ++ back)) = word := by
  have hlast : ∀ c ∈ word.reverse.head?, isBlank c = false := fun c hc =>
    hword c (List.mem_reverse.1 (List.mem_of_mem_head? hc))
  rw [stripBy, dropWhile_stretch hfront (head?_word hne hword back), List.reverse_append,
    dropWhile_stretch (fun c hc => hback c (List.mem_reverse.1 hc)) hlast, List.reverse_reverse]

/-- What is stripped off a text is blank. -/
theorem exists_of_stripBy (text : List Char) : ∃ front back, text = front ++ (stripBy isBlank text ++ back) ∧
    (∀ c ∈ front, isBlank c = true) ∧ ∀ c ∈ back, isBlank c = true := by
  refine ⟨text.takeWhile isBlank, ((text.dropWhile isBlank).reverse.takeWhile isBlank).reverse, ?_,
    fun c hc => List.mem_takeWhile_imp hc, fun c hc => List.mem_takeWhile_imp (List.mem_reverse.1 hc)⟩
  rw [stripBy, ← List.reverse_append, List.takeWhile_append_dropWhile, List.reverse_reverse,
    List.takeWhile_append_dropWhile]

theorem words_stripBy (text : List Char) : words (stripBy isBlank text) = words text := by
  obtain ⟨front, back, htext, hfront, hback⟩ := exists_of_stripBy text
  calc words (stripBy isBlank text) = words (front ++ (stripBy isBlank text ++ back)) := by
        rw [words_behind_blanks hfront, words_before_blanks _ hback]
    _ = words text := by rw [← htext]

theorem length_stripBy (text : List Char) : (stripBy isBlank text).length ≤ text.length := by
  obtain ⟨front, back, htext, -, -⟩ := exists_of_stripBy text
  have hlength := congrArg List.length htext
  rw [List.length_append, List.length_append] at hlength
  omega

theorem mem_stripBy (hc : c ∈ text) (hblank : isBlank c = false) : c ∈ stripBy isBlank text := by
  have hkept : c ∈ text.filter (!isBlank ·) := List.mem_filter.2 ⟨hc, by rw [hblank]; rfl⟩
  rw [← flatten_words, ← words_stripBy, flatten_words] at hkept
  exact (List.mem_filter.1 hkept).1

/-! ### Last parts -/

/-- What stands behind the last dot of a text. -/
def lastPart (text : List Char) : List Char := (text.splitOn '.').getLast (List.splitOn_ne_nil '.' text)

theorem lastPart_of_not_mem (h : '.' ∉ text) : lastPart text = text := by
  have hsingle : text.splitOn '.' = [text] :=
    List.splitOnP_eq_singleton fun c hc => beq_false_of_ne (ne_of_mem_of_not_mem hc h)
  simp only [lastPart, hsingle, List.getLast_singleton]

theorem lastPart_behind (front text : List Char) : lastPart (front ++ '.' :: text) = lastPart text := by
  have hsplit : (front ++ '.' :: text).splitOn '.' = front.splitOn '.' ++ text.splitOn '.' :=
    List.splitOnP_append_cons front text (beq_self_eq_true '.')
  simp only [lastPart, hsplit, List.getLast_append_of_ne_nil _ (List.splitOn_ne_nil '.' text)]

/-- A text without dots is its last part, and every other ends with a dot and its last part. -/
theorem lastPart_cases (text : List Char) :
    '.' ∉ lastPart text ∧ (lastPart text = text ∨ ∃ front, text = front ++ '.' :: lastPart text) := by
  by_cases hdot : '.' ∈ text
  · obtain ⟨last, front, hreverse, hlast⟩ := List.eq_append_cons_of_mem (List.mem_reverse.2 hdot)
    have htext : text = front.reverse ++ '.' :: last.reverse := by
      simpa using congrArg List.reverse hreverse
    have hpart : '.' ∉ last.reverse := fun hmem => hlast (List.mem_reverse.1 hmem)
    rw [htext, lastPart_behind, lastPart_of_not_mem hpart]
    exact ⟨hpart, .inr ⟨front.reverse, rfl⟩⟩
  · rw [lastPart_of_not_mem hdot]
    exact ⟨hdot, .inl rfl⟩

/-- What is put behind a text without a dot is put behind its last part. -/
theorem lastPart_append (text : List Char) (h : '.' ∉ rest) : lastPart (text ++ rest) = lastPart text ++ rest := by
  obtain ⟨hdot, hwhole | ⟨front, htext⟩⟩ := lastPart_cases text
  · rw [hwhole] at hdot ⊢
    exact lastPart_of_not_mem (List.not_mem_append hdot h)
  · calc lastPart (text ++ rest) = lastPart (front ++ '.' :: (lastPart text ++ rest)) := by
          rw [← List.cons_append, ← List.append_assoc, ← htext]
      _ = lastPart text ++ rest := by
          rw [lastPart_behind, lastPart_of_not_mem (List.not_mem_append hdot h)]

/-- Nothing stands behind the last dot of a text that ends with one. -/
theorem exists_of_lastPart_eq_nil (hne : text ≠ []) (h : lastPart text = []) : ∃ front, text = front ++ ['.'] := by
  obtain ⟨-, hwhole | ⟨front, htext⟩⟩ := lastPart_cases text
  · exact absurd (hwhole.symm.trans h) hne
  · exact ⟨front, by rw [h] at htext; exact htext⟩

end Polyquery.Text
