import Polyquery.Proofs.PathGrammar
import Polyquery.Proofs.Pieces

/-! Percent signs in statement text. A driver that takes its parameters in places marked `%s` looks for them anywhere in the
text, inside quotes as well, and takes a doubled percent sign for one. Quoting a name doubles its quotes and leaves its
percent signs as they are. Main statement: such a driver finds exactly the places of the parameters if and only if every
percent sign in a name that the statement writes is doubled already. -/

namespace Polyquery

open Sql Fragment

namespace Sql

/-! ### The driver's reading -/

/-- The places marked `%s` in a text that begins at an offset. A doubled percent sign is none, and any other one is not
taken. -/
def slots : Nat → List Char → Option (List Nat)
  | _, [] => some []
  | n, '%' :: 's' :: rest => (slots (n + 2) rest).map (n :: ·)
  | n, '%' :: '%' :: rest => slots (n + 2) rest
  | _, '%' :: _ => none
  | n, _ :: rest => slots (n + 1) rest

/-- Whether every percent sign in a text is doubled. -/
def Doubled : List Char → Bool
  | [] => true
  | '%' :: '%' :: rest => Doubled rest
  | '%' :: _ => false
  | _ :: rest => Doubled rest

/-- The place of a piece's parameter, if the piece begins at an offset. -/
def Piece.marks (n : Nat) : Piece → List Nat
  | bind _ => [n]
  | _ => []

/-- The places of the parameters of a fragment that begins at an offset. -/
def Fragment.marks (d : Dialect) : Nat → Fragment → List Nat
  | _, [] => []
  | n, p :: rest => p.marks n ++ marks d (n + (p.write d).length) rest

/-- The names a fragment writes. -/
def Fragment.names (f : Fragment) : List String :=
  f.filterMap fun
    | .name name => some name
    | _ => none

theorem length_marks (d : Dialect) (n : Nat) (f : Fragment) : (marks d n f).length = f.params.length := by
  induction f generalizing n with
  | nil => rfl
  | cons p f ih =>
      rw [marks, List.length_append, ih]
      cases p <;> simp [Piece.marks, Nat.add_comm]

theorem le_of_mem_marks {d : Dialect} {n m : Nat} {f : Fragment} (h : m ∈ marks d n f) : n ≤ m := by
  induction f generalizing n with
  | nil => cases h
  | cons p f ih =>
      rcases List.mem_append.1 h with h | h
      · cases p with
        | bind value => exact (List.mem_singleton.1 h).ge
        | _ => cases h
      · exact (Nat.le_add_right _ _).trans (ih h)

theorem Piece.lt_of_mem_marks {d : Dialect} {n m : Nat} {p : Piece} (h : m ∈ p.marks n) : m < n + (p.write d).length := by
  cases p with
  | bind value =>
      rw [List.mem_singleton.1 h]
      cases d <;> simp [Piece.write, Dialect.placeholder]
  | _ => cases h

/-! ### Reading texts in a row -/

theorem slots_cons_of_ne {c : Char} (hc : c ≠ '%') (n : Nat) (rest : List Char) : slots n (c :: rest) = slots (n + 1) rest := by
  rw [slots] <;> simp [hc]

theorem getLast?_ne_of_cons {c last : Char} {a : List Char} (h : (c :: a).getLast? ≠ some last) : a.getLast? ≠ some last := by
  cases a with
  | nil => simp
  | cons c' a => rwa [List.getLast?_cons_cons] at h

/-- Texts in a row are read one by one, unless a percent sign at the end of the first waits for the second. -/
theorem slots_append {a : List Char} (ha : a.getLast? ≠ some '%') (n : Nat) (b : List Char) :
    slots n (a ++ b) = (slots n a).bind fun found => (slots (n + a.length) b).map (found ++ ·) := by
  fun_induction slots n a with
  | case1 n => simp
  | case2 n rest ih =>
      have hlength : n + ('%' :: 's' :: rest).length = n + 2 + rest.length := by simp only [List.length_cons]; omega
      rw [List.cons_append, List.cons_append, slots, ih (getLast?_ne_of_cons (getLast?_ne_of_cons ha)), hlength]
      cases slots (n + 2) rest <;> cases slots (n + 2 + rest.length) b <;> rfl
  | case3 n rest ih =>
      have hlength : n + ('%' :: '%' :: rest).length = n + 2 + rest.length := by simp only [List.length_cons]; omega
      rw [List.cons_append, List.cons_append, slots, ih (getLast?_ne_of_cons (getLast?_ne_of_cons ha)), hlength]
  | case4 n rest hslot hdouble =>
      obtain ⟨c, rest, rfl⟩ : ∃ c more, rest = c :: more := List.exists_cons_of_ne_nil fun hnil => ha (by rw [hnil]; rfl)
      rw [List.cons_append, List.cons_append, slots]
      · rfl
      · rintro more hmore
        cases hmore
        exact hslot rest rfl
      · rintro more hmore
        cases hmore
        exact hdouble rest rfl
  | case5 n c rest _ _ hc ih =>
      have hlength : n + (c :: rest).length = n + 1 + rest.length := by simp only [List.length_cons]; omega
      rw [List.cons_append, slots_cons_of_ne hc, ih (getLast?_ne_of_cons ha), hlength]

/-- A place lies in the text it was found in. -/
theorem bounds_of_slots {n : Nat} {a : List Char} {found : List Nat} (h : slots n a = some found) :
    ∀ m ∈ found, n ≤ m ∧ m < n + a.length := by
  fun_induction slots n a generalizing found with
  | case1 n => simp_all
  | case2 n rest ih =>
      obtain ⟨later, hlater, rfl⟩ := Option.map_eq_some_iff.1 h
      intro m hm
      simp only [List.length_cons]
      rcases List.mem_cons.1 hm with rfl | hm
      · omega
      · have := ih hlater m hm
        omega
  | case3 n rest ih =>
      intro m hm
      have := ih h m hm
      simp only [List.length_cons]
      omega
  | case4 n rest => cases h
  | case5 n c rest _ _ _ ih =>
      intro m hm
      have := ih h m hm
      simp only [List.length_cons]
      omega

/-- Two texts in a row have the places below their border in the first, and the others in the second. -/
theorem slots_append_eq_some {a : List Char} (ha : a.getLast? ≠ some '%') {n : Nat} {b : List Char} {low high : List Nat}
    (hlow : ∀ m ∈ low, m < n + a.length) (hhigh : ∀ m ∈ high, n + a.length ≤ m) :
    slots n (a ++ b) = some (low ++ high) ↔ slots n a = some low ∧ slots (n + a.length) b = some high := by
  rw [slots_append ha]
  constructor
  · intro h
    obtain ⟨first, hfirst, hrest⟩ := Option.bind_eq_some_iff.1 h
    obtain ⟨second, hsecond, hall⟩ := Option.map_eq_some_iff.1 hrest
    -- The places below the border are the same on both sides, and so are the others.
    have hbelow : ∀ {below above : List Nat}, (∀ m ∈ below, m < n + a.length) → (∀ m ∈ above, n + a.length ≤ m) →
        (below ++ above).filter (· < n + a.length) = below := by
      intro below above hbelow habove
      rw [List.filter_append, List.filter_eq_self.2 (by simpa using hbelow), List.filter_eq_nil_iff.2 (by simpa using habove),
        List.append_nil]
    have hsame : first = low := by
      rw [← hbelow hlow hhigh, ← hall]
      exact (hbelow (fun m hm => (bounds_of_slots hfirst m hm).2) fun m hm => (bounds_of_slots hsecond m hm).1).symm
    subst hsame
    exact ⟨hfirst, by rw [hsecond, List.append_cancel_left hall]⟩
  · rintro ⟨hfirst, hsecond⟩
    rw [hfirst, hsecond]
    rfl

theorem doubled_cons_of_ne {c : Char} (hc : c ≠ '%') (rest : List Char) : Doubled (c :: rest) = Doubled rest := by
  rw [Doubled] <;> simp [hc]

theorem not_doubled_cons {rest : List Char} (h : rest.head? ≠ some '%') : Doubled ('%' :: rest) = false := by
  rw [Doubled]
  rintro more rfl
  exact h rfl

/-- A text holds no place exactly if it has no other percent signs than doubled ones. -/
theorem slots_eq_nil_iff (n : Nat) (a : List Char) : slots n a = some [] ↔ Doubled a := by
  fun_induction slots n a with
  | case1 n => simp [Doubled]
  | case2 n rest ih => simp [Doubled]
  | case3 n rest ih => rwa [Doubled]
  | case4 n rest hslot hdouble => simp [Doubled]
  | case5 n c rest _ _ hc ih => rwa [doubled_cons_of_ne hc]

theorem doubled_of_not_mem {a : List Char} (h : '%' ∉ a) : Doubled a := by
  induction a with
  | nil => rfl
  | cons c a ih =>
      obtain ⟨hc, ha⟩ := not_or.1 (mt List.mem_cons.2 h)
      rw [doubled_cons_of_ne (Ne.symm hc)]
      exact ih ha

/-! ### Pieces -/

/-- Quoting doubles quotes only. -/
theorem doubled_quoted {quote : Char} (hquote : quote ≠ '%') (name : List Char) :
    Doubled (name.flatMap (fun c => if c = quote then [c, c] else [c]) ++ [quote]) = Doubled name := by
  fun_induction Doubled name with
  | case1 => simp [doubled_cons_of_ne hquote, Doubled]
  | case2 rest ih => simpa [hquote.symm, Doubled] using ih
  | case3 rest hrest =>
      have hhead : (rest.flatMap (fun c => if c = quote then [c, c] else [c]) ++ [quote]).head? ≠ some '%' := by
        cases rest with
        | nil => simpa using hquote
        | cons c rest =>
            have hc : c ≠ '%' := fun heq => hrest rest (by rw [heq])
            rw [List.flatMap_cons]
            split <;> simpa using hc
      rw [List.flatMap_cons, if_neg hquote.symm, List.append_assoc]
      exact not_doubled_cons hhead
  | case4 c rest _ hc ih =>
      rw [List.flatMap_cons, List.append_assoc]
      split
      · rw [List.cons_append, List.cons_append, doubled_cons_of_ne hc, doubled_cons_of_ne hc, List.nil_append, ih]
      · rw [List.cons_append, doubled_cons_of_ne hc, List.nil_append, ih]

theorem doubled_quotedName (d : Dialect) (name : List Char) : Doubled (d.quotedName name) = Doubled name := by
  have hopen : d.openQuote ≠ '%' := by cases d <;> decide
  have hclose : d.closeQuote ≠ '%' := by cases d <;> decide
  rw [Dialect.quotedName, List.cons_append, doubled_cons_of_ne hopen, doubled_quoted hclose]

variable {d : Dialect} {p : Piece}

theorem percent_not_mem_written {segments path : List String} (h : JsonPath.validate segments = .ok path) :
    '%' ∉ (JsonPath.written d path).toList := by
  intro hmem
  obtain ⟨rfl, -, hsegments⟩ := JsonPath.validate_eq_ok.1 h
  rcases JsonPath.mem_written hmem with hsign | ⟨segment, hsegment, hc⟩
  · cases d <;> simp [JsonPath.signs] at hsign
  · rcases JsonPath.char_of_isSegment (Demand.isSegment_iff.1 (hsegments segment hsegment)) hc with hword | ⟨hfeed, -⟩
    · exact absurd hword (by decide)
    · exact absurd hfeed (by decide)

/-- Apart from names, a piece of the compiler's own brings no percent signs but those of its parameter. -/
theorem Piece.Own.slots_write (hd : d.placeholder = "%s") (hown : p.Own d) (hlegible : p.Legible d) (n : Nat) :
    slots n (p.write d) = some (p.marks n) ↔ ∀ name, p = .name name → Doubled name.toList := by
  cases hown with
  | words s =>
      have hnone : '%' ∉ s.toList := fun hmem => absurd (hlegible _ hmem) (by decide)
      exact iff_of_true ((slots_eq_nil_iff n _).2 (doubled_of_not_mem hnone)) (by simp)
  | name s =>
      rw [Piece.marks, slots_eq_nil_iff, Piece.write, doubled_quotedName]
      · constructor
        · rintro hdoubled _ ⟨⟩
          exact hdoubled
        · exact fun hdoubled => hdoubled s rfl
      · simp
  | bind value =>
      have hslot : slots n "%s".toList = some [n] := rfl
      rw [Piece.write, hd]
      exact iff_of_true hslot (by simp)
  | @path _ path h =>
      have hnone : '%' ∉ Piece.write d (.literal (JsonPath.written d path)) := by
        simpa [Piece.write] using percent_not_mem_written h
      exact iff_of_true ((slots_eq_nil_iff n _).2 (doubled_of_not_mem hnone)) (by simp)

/-- No piece ends with a percent sign. -/
theorem Piece.Own.getLast?_write (hd : d.placeholder = "%s") (hown : p.Own d) (hlegible : p.Legible d) :
    (p.write d).getLast? ≠ some '%' := by
  cases hown with
  | words s => exact fun hlast => absurd (hlegible _ (List.mem_of_getLast? hlast)) (by decide)
  | name s =>
      rw [Piece.write, Dialect.quotedName, List.getLast?_concat]
      cases d <;> decide
  | bind value =>
      rw [Piece.write, hd]
      decide
  | path h =>
      rw [Piece.write, List.getLast?_concat]
      decide

/-! ### Fragments -/

variable {f : Fragment}

/-- The places found are those of the parameters exactly if all percent signs in names are doubled. -/
theorem slots_write (hd : d.placeholder = "%s") (hown : Own d f) (hlegible : Legible d f) (n : Nat) :
    slots n (Fragment.write d f) = some (marks d n f) ↔ ∀ name ∈ names f, Doubled name.toList := by
  induction f generalizing n with
  | nil => exact iff_of_true rfl nofun
  | cons p f ih =>
      obtain ⟨hp, hf⟩ := List.forall_mem_cons.1 hown
      have hwrite : Fragment.write d (p :: f) = p.write d ++ Fragment.write d f := rfl
      rw [hwrite, marks, slots_append_eq_some (hp.getLast?_write hd hlegible.1) (fun m => Piece.lt_of_mem_marks)
        (fun m => le_of_mem_marks), hp.slots_write hd hlegible.1, ih hf hlegible.2.2]
      cases p <;> simp [names]

/-- A driver that finds places at all finds those of the parameters among them. -/
theorem marks_sublist_of_slots (hd : d.placeholder = "%s") (hown : Own d f) (hlegible : Legible d f) {n : Nat}
    {found : List Nat} (h : slots n (Fragment.write d f) = some found) : (marks d n f).Sublist found := by
  induction f generalizing n found with
  | nil => exact List.nil_sublist found
  | cons p f ih =>
      obtain ⟨hp, hf⟩ := List.forall_mem_cons.1 hown
      have hwrite : Fragment.write d (p :: f) = p.write d ++ Fragment.write d f := rfl
      rw [hwrite, slots_append (hp.getLast?_write hd hlegible.1)] at h
      obtain ⟨first, hfirst, hrest⟩ := Option.bind_eq_some_iff.1 h
      obtain ⟨second, hsecond, rfl⟩ := Option.map_eq_some_iff.1 hrest
      refine List.Sublist.append ?_ (ih hf hlegible.2.2 hsecond)
      cases p with
      | bind value =>
          have hslots := (hp.slots_write hd hlegible.1 n).2 nofun
          rw [Option.some.inj (hfirst.symm.trans hslots)]
      | _ => exact List.nil_sublist first

end Sql

/-- Where parameters are marked `%s` and a statement is all the compiler's own, there are as many marks as parameters. A driver
that looks for marks anywhere in the text finds these and nothing else if and only if all percent signs in the names written
are doubled. Otherwise it cannot take the text, or finds more places than there are parameters. -/
theorem placeholders_found {c : Compiler} {r : Request} {s : Statement} (hd : c.dialect = .postgres ∨ c.dialect = .mysql)
    (hraw : r.Rawless) (h : c.compile r = .ok (some s)) :
    (marks s.dialect 0 s.fragment).length = s.params.length ∧
    (slots 0 s.sql.toList = some (marks s.dialect 0 s.fragment) ↔ ∀ name ∈ names s.fragment, Doubled name.toList) ∧
    ∀ found, slots 0 s.sql.toList = some found → found ≠ marks s.dialect 0 s.fragment → s.params.length < found.length := by
  obtain ⟨hdialect, hown⟩ := compile_own hraw h
  obtain ⟨-, hlegible⟩ := (assembled_legible c.dialect).compile hraw.admitted h
  have hplaceholder : c.dialect.placeholder = "%s" := by rcases hd with hd | hd <;> rw [hd] <;> rfl
  have hsql : s.sql.toList = Fragment.write c.dialect s.fragment := by
    rw [Statement.sql, hdialect, Fragment.text, String.toList_ofList]
  have hcount : (marks c.dialect 0 s.fragment).length = s.params.length := length_marks _ _ _
  rw [hdialect, hsql]
  refine ⟨hcount, slots_write hplaceholder hown hlegible 0, fun found hfound hother => ?_⟩
  have hsub := marks_sublist_of_slots hplaceholder hown hlegible hfound
  rw [← hcount]
  exact lt_of_le_of_ne hsub.length_le fun hsame => hother (hsub.eq_of_length hsame).symm

/-- Doubled by the caller, a percent sign in a name leaves the place behind it to the parameter. -/
theorem placeholders_found_doubled :
    (Dialect.postgres = .postgres ∨ Dialect.postgres = .mysql) ∧
    (Request.insert "t" [[(.text "rate%%", .int 1)]] .null).Rawless ∧
    ∃ s, Compiler.compile { dialect := .postgres } (.insert "t" [[(.text "rate%%", .int 1)]] .null) = .ok (some s) ∧
      s.sql = "INSERT INTO \"t\" (\"rate%%\") VALUES (%s)" ∧ slots 0 s.sql.toList = some (marks s.dialect 0 s.fragment) ∧
      marks s.dialect 0 s.fragment = [35] ∧ s.params.length = 1 := by
  obtain ⟨s, hs⟩ : ∃ s, Compiler.compile { dialect := .postgres } (.insert "t" [[(.text "rate%%", .int 1)]] .null) =
      .ok (some s) := ⟨_, rfl⟩
  have hraw : (Request.insert "t" [[(.text "rate%%", .int 1)]] .null).Rawless := trivial
  obtain ⟨-, hfound, -⟩ := placeholders_found (.inl rfl) hraw hs
  cases hs
  exact ⟨.inl rfl, hraw, _, rfl, by decide +kernel, hfound.2 (by decide +kernel), by decide +kernel, by decide +kernel⟩

/-- A percent sign in a name is written as it is, and the driver cannot take the text. -/
theorem percent_sign_unescaped :
    ¬∀ (c : Compiler) (r : Request) (s : Statement), (c.dialect = .postgres ∨ c.dialect = .mysql) → r.Rawless →
      c.compile r = .ok (some s) → slots 0 s.sql.toList = some (marks s.dialect 0 s.fragment) := by
  intro hall
  have hslots := hall { dialect := .postgres } (.insert "t" [[(.text "rate%", .int 1)]] .null) _ (.inl rfl) trivial rfl
  revert hslots
  decide +kernel

end Polyquery
