import Polyquery.Sql.Fragment

/-! Statement text as its readers take it in. A scan passes over the characters once and keeps names, text
literals and placeholders as wholes; what stands between quotes is never a placeholder. Main statement: the scan
of two texts in a row is the scan of each, if the first one closes its quotes and the second one begins with a
character that neither doubles a quote nor completes a placeholder. -/

namespace Polyquery.Sql

/-- A part of a text: a name or a literal without its quotes, a placeholder with what is known of it, or a
character outside of quotes. -/
inductive Lexeme (α : Type) where
  | char (c : Char)
  | name (text : List Char)
  | literal (text : List Char)
  | hole (content : α)
  /-- Quotes that are opened and never closed. -/
  | unclosed
deriving DecidableEq, Repr

namespace Lexeme

variable {α β : Type}

/-- A lexeme with another content. -/
def map (f : α → β) : Lexeme α → Lexeme β
  | char c => char c
  | name text => name text
  | literal text => literal text
  | hole content => hole (f content)
  | unclosed => unclosed

/-- What a placeholder holds. -/
def content? : Lexeme α → Option α
  | hole content => some content
  | _ => none

end Lexeme

namespace Scan

/-- What quotes enclose. -/
inductive Quoted where
  | name
  | literal

namespace Quoted

/-- The quote that ends it, unless it is doubled. -/
def quote (d : Dialect) : Quoted → Char
  | name => d.closeQuote
  | literal => '\''

def lexeme (text : List Char) : Quoted → Lexeme Unit
  | name => .name text
  | literal => .literal text

end Quoted

/-- Where a scan stands: outside of quotes, behind the first character of a placeholder of two, between quotes,
or behind a closing quote, which is the end unless another one follows. -/
inductive Mode where
  | plain
  | begun (first : Char)
  | inside (kind : Quoted) (text : List Char)
  | closed (kind : Quoted) (text : List Char)

/-- What a character outside of quotes yields. -/
def plainStep (d : Dialect) (c : Char) : List (Lexeme Unit) × Mode :=
  if c = d.openQuote then ([], .inside .name [])
  else if c = '\'' then ([], .inside .literal [])
  else if d.placeholder.toList = [c] then ([.hole ()], .plain)
  else if d.placeholder.toList.head? = some c then ([], .begun c)
  else ([.char c], .plain)

/-- What a character yields, and where the scan stands behind it. -/
def step (d : Dialect) : Mode → Char → List (Lexeme Unit) × Mode
  | .plain, c => plainStep d c
  | .begun first, c =>
    if d.placeholder.toList = [first, c] then ([.hole ()], .plain)
    else (.char first :: (plainStep d c).1, (plainStep d c).2)
  | .inside kind text, c =>
    if c = kind.quote d then ([], .closed kind text) else ([], .inside kind (text ++ [c]))
  | .closed kind text, c =>
    if c = kind.quote d then ([], .inside kind (text ++ [c]))
    else (kind.lexeme text :: (plainStep d c).1, (plainStep d c).2)

/-- What the end of the text yields. -/
def Mode.ending : Mode → List (Lexeme Unit)
  | .plain => []
  | .begun first => [.char first]
  | .inside _ _ => [.unclosed]
  | .closed kind text => [kind.lexeme text]

/-- The lexemes that are complete behind a text. -/
def found (d : Dialect) : Mode → List Char → List (Lexeme Unit)
  | _, [] => []
  | mode, c :: text => (step d mode c).1 ++ found d (step d mode c).2 text

/-- Where the scan stands behind a text. -/
def after (d : Dialect) : Mode → List Char → Mode
  | mode, [] => mode
  | mode, c :: text => after d (step d mode c).2 text

/-- The lexemes of a text, read from a mode. -/
def scanFrom (d : Dialect) (mode : Mode) (text : List Char) : List (Lexeme Unit) :=
  found d mode text ++ (after d mode text).ending

end Scan

/-- The lexemes of a text. -/
def scan (d : Dialect) (text : List Char) : List (Lexeme Unit) := Scan.scanFrom d .plain text

namespace Scan

theorem found_append (d : Dialect) (mode : Mode) (a b : List Char) :
    found d mode (a ++ b) = found d mode a ++ found d (after d mode a) b := by
  induction a generalizing mode with
  | nil => rfl
  | cons c a ih => simp only [List.cons_append, found, after, ih, List.append_assoc]

theorem after_append (d : Dialect) (mode : Mode) (a b : List Char) :
    after d mode (a ++ b) = after d (after d mode a) b := by
  induction a generalizing mode with
  | nil => rfl
  | cons c a ih => simp only [List.cons_append, after, ih]

theorem scanFrom_append (d : Dialect) (mode : Mode) (a b : List Char) :
    scanFrom d mode (a ++ b) = found d mode a ++ scanFrom d (after d mode a) b := by
  rw [scanFrom, found_append, after_append, List.append_assoc, scanFrom]

theorem scanFrom_cons (d : Dialect) (mode : Mode) (c : Char) (text : List Char) :
    scanFrom d mode (c :: text) = (step d mode c).1 ++ scanFrom d (step d mode c).2 text := by
  rw [scanFrom, found, after, List.append_assoc, scanFrom]

/-! ### Borders between texts -/

/-- The characters that may stand behind a name, a literal or an expression. -/
def separators : List Char := [' ', ',', '.', ')']

/-- Whether a text begins with such a character, or is empty. -/
def Bordered (text : List Char) : Prop := ∀ c ∈ text.head?, c ∈ separators

instance (text : List Char) : Decidable (Bordered text) :=
  decidable_of_iff (text.head?.all separators.contains) (by simp [Bordered, Option.all_eq_true])

theorem ne_quote_of_mem_separators {d : Dialect} {kind : Quoted} {c : Char} (hc : c ∈ separators) :
    c ≠ kind.quote d := by
  rintro rfl
  revert hc
  cases kind <;> cases d <;> decide

theorem placeholder_ne_of_mem_separators {d : Dialect} {first c : Char} (hc : c ∈ separators) :
    d.placeholder.toList ≠ [first, c] := by
  intro h
  have hlast : d.placeholder.toList.getLast? = some c := by rw [h]; rfl
  revert hlast hc
  cases d <;> simp +decide [Dialect.placeholder, separators] <;> rintro (rfl | rfl | rfl | rfl) <;> decide

/-- Outside of open quotes, a border brings the scan back to where it began. -/
theorem scanFrom_of_bordered {d : Dialect} {mode : Mode} {text : List Char}
    (hmode : .unclosed ∉ mode.ending) (htext : Bordered text) :
    scanFrom d mode text = mode.ending ++ scan d text := by
  cases text with
  | nil => simp [scan, scanFrom, found, after, Mode.ending]
  | cons c text =>
      have hc : c ∈ separators := htext c rfl
      rw [scan, scanFrom_cons, scanFrom_cons]
      cases mode with
      | plain => rfl
      | begun first => simp [step, Mode.ending, placeholder_ne_of_mem_separators hc]
      | inside kind open_ => simp [Mode.ending] at hmode
      | closed kind done => simp [step, Mode.ending, ne_quote_of_mem_separators hc]

/-- Two texts are scanned one by one if the first closes its quotes and the second has a border. -/
theorem scan_append {d : Dialect} {a b : List Char} (ha : .unclosed ∉ scan d a) (hb : Bordered b) :
    scan d (a ++ b) = scan d a ++ scan d b := by
  have hmode : .unclosed ∉ (after d .plain a).ending := fun h =>
    ha (List.mem_append_right _ h)
  rw [scan, scanFrom_append, scanFrom_of_bordered hmode hb, ← List.append_assoc]
  rfl

/-- No border is needed behind a text that leaves the scan outside of quotes and placeholders. -/
theorem scan_append_of_after {d : Dialect} {a b : List Char} (ha : after d .plain a = .plain) :
    scan d (a ++ b) = scan d a ++ scan d b := by
  have hend : scan d a = found d .plain a := by rw [scan, scanFrom, ha, Mode.ending, List.append_nil]
  rw [hend, scan, scanFrom_append, ha, scan]

/-! ### Characters that mean nothing to a scan -/

/-- Whether a character neither opens quotes nor belongs to placeholders, in any dialect. -/
def isTame (c : Char) : Bool := !(['"', '\x60', '[', '\'', '?', '%'].contains c)

/-- Whether all characters of a text are of this kind. -/
def Tame (text : List Char) : Prop := ∀ c ∈ text, isTame c

instance (text : List Char) : Decidable (Tame text) := decidable_of_iff (text.all isTame) List.all_eq_true

theorem plainStep_of_isTame {d : Dialect} {c : Char} (hc : isTame c) :
    plainStep d c = ([.char c], .plain) := by
  have hne : c ≠ '"' ∧ c ≠ '\x60' ∧ c ≠ '[' ∧ c ≠ '\'' ∧ c ≠ '?' ∧ c ≠ '%' := by
    simpa [isTame] using hc
  obtain ⟨h1, h2, h3, h4, h5, h6⟩ := hne
  cases d <;>
    simp [plainStep, Dialect.openQuote, Dialect.placeholder, h1, h2, h3, h4, Ne.symm h5, Ne.symm h6]

theorem after_of_tame {d : Dialect} {text : List Char} (h : Tame text) :
    after d .plain text = .plain := by
  induction text with
  | nil => rfl
  | cons c text ih =>
      rw [after, step, plainStep_of_isTame (h c List.mem_cons_self)]
      exact ih fun c hc => h c (List.mem_cons_of_mem _ hc)

theorem scan_of_tame {d : Dialect} {text : List Char} (h : Tame text) :
    scan d text = text.map .char := by
  induction text with
  | nil => rfl
  | cons c text ih =>
      rw [scan, scanFrom_cons, step, plainStep_of_isTame (h c List.mem_cons_self)]
      exact congrArg _ (ih fun c hc => h c (List.mem_cons_of_mem _ hc))

/-! ### Placeholders and quotes -/

theorem after_placeholder (d : Dialect) : after d .plain d.placeholder.toList = .plain := by
  cases d <;> rfl

theorem scan_placeholder (d : Dialect) : scan d d.placeholder.toList = [.hole ()] := by
  cases d <;> rfl

/-- A text between quotes with every quote in it doubled is read without loss. -/
theorem scanFrom_inside {d : Dialect} {kind : Quoted} (done text : List Char) :
    scanFrom d (.inside kind done)
        (text.flatMap (fun c => if c = kind.quote d then [c, c] else [c]) ++ [kind.quote d]) =
      [kind.lexeme (done ++ text)] := by
  induction text generalizing done with
  | nil => simp [scanFrom, found, after, step, Mode.ending]
  | cons c text ih =>
      rw [List.flatMap_cons, List.append_assoc]
      by_cases hc : c = kind.quote d
      · rw [if_pos hc, List.cons_append, List.cons_append, List.nil_append, scanFrom_cons, step, if_pos hc,
          scanFrom_cons, step, if_pos hc]
        simpa using ih (done ++ [c])
      · rw [if_neg hc, List.cons_append, List.nil_append, scanFrom_cons, step, if_neg hc]
        simpa using ih (done ++ [c])

theorem scan_quotedName (d : Dialect) (name : List Char) : scan d (d.quotedName name) = [.name name] := by
  have hopen : step d .plain d.openQuote = ([], .inside .name []) := by simp [step, plainStep]
  rw [scan, Dialect.quotedName, List.cons_append, scanFrom_cons, hopen]
  exact @scanFrom_inside d .name [] name

/-- Nothing is doubled in a text without the quote. -/
theorem flatMap_doubled_of_not_mem {quote : Char} {text : List Char} (h : quote ∉ text) :
    text.flatMap (fun c => if c = quote then [c, c] else [c]) = text := by
  induction text with
  | nil => rfl
  | cons c text ih =>
      have hc : c ≠ quote := fun heq => h (heq ▸ List.mem_cons_self)
      rw [List.flatMap_cons, if_neg hc, ih fun hmem => h (List.mem_cons_of_mem _ hmem)]
      rfl

theorem scan_literal {d : Dialect} {text : List Char} (h : '\'' ∉ text) :
    scan d ('\'' :: text ++ ['\'']) = [.literal text] := by
  have hopen : step d .plain '\'' = ([], .inside .literal []) := by cases d <;> rfl
  have hinside : scanFrom d (.inside .literal [])
      (text.flatMap (fun c => if c = '\'' then [c, c] else [c]) ++ ['\'']) = [.literal text] :=
    @scanFrom_inside d .literal [] text
  rw [flatMap_doubled_of_not_mem h] at hinside
  rw [scan, List.cons_append, scanFrom_cons, hopen]
  exact hinside

end Scan

end Polyquery.Sql
