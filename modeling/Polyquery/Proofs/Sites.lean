import Polyquery.Proofs.ConditionReading
import Polyquery.Sql.Command

/-! Where parameters stand. A site is a value together with its caption, the pieces that are written right before it.
A fragment shows sites if its parameters from left to right are their values, each behind its caption. Main statement:
fragments in a row show the sites of each, one after the other. -/

namespace Polyquery.Sql

/-- A value of the caller's, and what is written before it. -/
structure Site where
  caption : Fragment
  value : Value

namespace Fragment

/-- The parameters of a fragment, each with the pieces before it. -/
def places (front : Fragment) : Fragment → List (Fragment × Value)
  | [] => []
  | p :: rest => p.param?.toList.map (front, ·) ++ places (front ++ [p]) rest

/-- A fragment behind another one whose parameters are the values of sites, each behind its caption. -/
def Shows (before f : Fragment) (sites : List Site) : Prop :=
  ∀ front, before <:+ front →
    List.Forall₂ (fun place site => site.caption <:+ place.1 ∧ place.2 = site.value) (places front f) sites

theorem places_append (front f g : Fragment) : places front (f ++ g) = places front f ++ places (front ++ f) g := by
  induction f generalizing front with
  | nil => rw [List.nil_append, List.append_nil, places, List.nil_append]
  | cons p f ih =>
      rw [List.cons_append, places, places, ih, List.append_assoc, List.append_assoc, List.singleton_append]

theorem map_places (front f : Fragment) : (places front f).map Prod.snd = f.params := by
  induction f generalizing front with
  | nil => rfl
  | cons p f ih =>
      rw [places, List.map_append, ih, params, params, List.filterMap_cons]
      cases p.param? <;> rfl

theorem Shows.params_eq {before f : Fragment} {sites : List Site} (h : Shows before f sites) :
    f.params = sites.map Site.value := by
  have hmap : ∀ {ps : List (Fragment × Value)} {sites : List Site},
      List.Forall₂ (fun place site => site.caption <:+ place.1 ∧ place.2 = site.value) ps sites →
        ps.map Prod.snd = sites.map Site.value := by
    intro ps sites hall
    induction hall with
    | nil => rfl
    | cons hfirst _ ih => rw [List.map_cons, List.map_cons, ih, hfirst.2]
  rw [← map_places before f, hmap (h before List.suffix_rfl)]

/-! ### Composition -/

theorem shows_nil (before : Fragment) : Shows before [] [] := fun _ _ => .nil

theorem shows_bind (before : Fragment) (value : Value) : Shows before [Piece.bind value] [⟨before, value⟩] :=
  fun _ hfront => .cons ⟨hfront, rfl⟩ .nil

/-- A fragment without parameters shows nothing. -/
theorem shows_of_params_eq_nil (before : Fragment) {f : Fragment} (h : f.params = []) : Shows before f [] := by
  intro front _
  have hplaces : places front f = [] := by rw [← List.map_eq_nil_iff, map_places, h]
  rw [hplaces]
  exact .nil

theorem Shows.append {before f g : Fragment} {a b : List Site} (hf : Shows before f a)
    (hg : Shows (before ++ f) g b) : Shows before (f ++ g) (a ++ b) := by
  rintro _ ⟨start, rfl⟩
  rw [places_append]
  refine (List.rel_append (hf _ ⟨start, rfl⟩)) (hg _ ⟨start, ?_⟩)
  rw [List.append_assoc]

/-- More may be written before. -/
theorem Shows.behind {before f : Fragment} {sites : List Site} (h : Shows before f sites) (more : Fragment) :
    Shows (more ++ before) f sites :=
  fun front hfront => h front ((List.suffix_append more before).trans hfront)

/-- What is shown on its own is shown anywhere. -/
theorem Shows.anywhere {f : Fragment} {sites : List Site} (h : Shows [] f sites) (before : Fragment) :
    Shows before f sites := by
  have hbehind := h.behind before
  rwa [List.append_nil] at hbehind

/-- Two fragments, neither of which needs what is before it. -/
theorem Shows.then {f g : Fragment} {a b : List Site} (hf : Shows [] f a) (hg : Shows [] g b) :
    Shows [] (f ++ g) (a ++ b) :=
  hf.append (hg.anywhere _)

/-- A value behind its caption. -/
theorem shows_caption {caption : Fragment} (h : caption.params = []) (value : Value) :
    Shows [] (caption ++ [Piece.bind value]) [⟨caption, value⟩] :=
  (shows_of_params_eq_nil [] h).append (shows_bind caption value)

theorem Shows.words_cons {s : String} {f : Fragment} {sites : List Site} (h : Shows [] f sites) :
    Shows [] (Piece.words s :: f) sites :=
  (shows_of_params_eq_nil [] (f := [Piece.words s]) rfl).then h

theorem Shows.append_bare {f g : Fragment} {sites : List Site} (h : Shows [] f sites) (hg : g.params = []) :
    Shows [] (f ++ g) sites := by
  have hall := h.then (shows_of_params_eq_nil [] hg)
  rwa [List.append_nil] at hall

theorem Shows.bare_append {f g : Fragment} {sites : List Site} (hf : f.params = []) (h : Shows [] g sites) :
    Shows [] (f ++ g) sites :=
  (shows_of_params_eq_nil [] hf).then h

/-- Fragments with words between them show what each of them shows. -/
theorem shows_separated (separator : String) {fs : List Fragment} {siteLists : List (List Site)}
    (h : List.Forall₂ (Shows []) fs siteLists) : Shows [] (separated separator fs) siteLists.flatten := by
  induction h with
  | nil => exact shows_nil []
  | @cons f sites fs siteLists hf hfs ih =>
      cases fs with
      | nil =>
          cases hfs
          rw [separated, List.flatten_cons, List.flatten_nil, List.append_nil]
          exact hf
      | cons g fs =>
          rw [separated, List.flatten_cons]
          · exact hf.then ih.words_cons
          · exact List.cons_ne_nil g fs

/-- Values behind their captions, with words between them. -/
theorem shows_captions {separator : String} {sites : List Site} (h : ∀ s ∈ sites, s.caption.params = []) :
    Shows [] (separated separator (sites.map fun s => s.caption ++ [Piece.bind s.value])) sites := by
  have hall : List.Forall₂ (Shows []) (sites.map fun s => s.caption ++ [Piece.bind s.value])
      (sites.map fun s => [s]) := by
    induction sites with
    | nil => exact .nil
    | cons s sites ih =>
        obtain ⟨hs, hrest⟩ := List.forall_mem_cons.1 h
        exact .cons (shows_caption hs s.value) (ih hrest)
  have hflatten : (sites.map fun s => [s]).flatten = sites := by
    rw [← List.flatMap_def, List.flatMap_singleton']
  have hshows := shows_separated separator hall
  rwa [hflatten] at hshows

/-! ### Lists of values -/

/-- The sites of values with commas between them. -/
def listSites (before : Fragment) : List Value → List Site
  | [] => []
  | value :: rest => ⟨before, value⟩ :: listSites (before ++ [Piece.bind value, Piece.words ", "]) rest

theorem shows_bindList (before : Fragment) (values : List Value) :
    Shows before (bindList values) (listSites before values) := by
  induction values generalizing before with
  | nil => exact shows_nil before
  | cons value rest ih =>
      cases rest with
      | nil => exact shows_bind before value
      | cons next rest =>
          have hcomma : Shows (before ++ [Piece.bind value]) [Piece.words ", "] [] := shows_of_params_eq_nil _ rfl
          have hrest := ih (before ++ [Piece.bind value, Piece.words ", "])
          have happend : before ++ [Piece.bind value, Piece.words ", "] =
              before ++ [Piece.bind value] ++ [Piece.words ", "] := by
            rw [List.append_assoc]; rfl
          rw [happend] at hrest
          have hall := (shows_bind before value).append (hcomma.append hrest)
          rw [listSites, happend]
          exact hall

/-- The sites of rows, each row between parentheses. -/
def rowSites (before : Fragment) : List (List Value) → List Site
  | [] => []
  | cells :: rest =>
    listSites (before ++ [Piece.words "("]) cells ++
      rowSites (before ++ (Piece.words "(" :: bindList cells ++ [Piece.words ")", Piece.words ", "])) rest

theorem shows_rows (before : Fragment) (rows : List (List Value)) :
    Shows before (separated ", " (rows.map fun cells => Piece.words "(" :: bindList cells ++ words ")"))
      (rowSites before rows) := by
  have hrow : ∀ (before : Fragment) (cells : List Value),
      Shows before (Piece.words "(" :: bindList cells ++ words ")") (listSites (before ++ [Piece.words "("]) cells) := by
    intro before cells
    have hopen : Shows before [Piece.words "("] [] := shows_of_params_eq_nil _ rfl
    have hclose : Shows (before ++ ([Piece.words "("] ++ bindList cells)) (words ")") [] := shows_of_params_eq_nil _ rfl
    have hall := (hopen.append (shows_bindList _ cells)).append hclose
    rwa [List.append_nil] at hall
  induction rows generalizing before with
  | nil => exact shows_nil before
  | cons cells rest ih =>
      cases rest with
      | nil =>
          rw [rowSites, rowSites, List.append_nil]
          exact hrow before cells
      | cons next rest =>
          have hcomma : Shows (before ++ (Piece.words "(" :: bindList cells ++ words ")")) [Piece.words ", "] [] :=
            shows_of_params_eq_nil _ rfl
          have happend : before ++ (Piece.words "(" :: bindList cells ++ [Piece.words ")", Piece.words ", "]) =
              before ++ (Piece.words "(" :: bindList cells ++ words ")") ++ [Piece.words ", "] := by
            simp [words]
          have hrest := ih (before ++ (Piece.words "(" :: bindList cells ++ [Piece.words ")", Piece.words ", "]))
          rw [happend] at hrest
          have hall := (hrow before cells).append (hcomma.append hrest)
          rw [rowSites, happend]
          exact hall

end Fragment

open Fragment

/-! ### Conditions -/

namespace Condition

mutual

/-- The values of a condition and what is written before them. -/
def sites : Condition → List Site
  | compare subject op value => [⟨subject ++ [Piece.words (" " ++ op.spelling ++ " ")], value⟩]
  | isNull _ _ => []
  | isIn subject values negated =>
    listSites (subject ++ [Piece.words (if negated then " NOT IN (" else " IN (")]) values
  | between subject low high negated =>
    let caption := subject ++ [Piece.words (if negated then " NOT BETWEEN " else " BETWEEN ")]
    [⟨caption, low⟩, ⟨caption ++ [Piece.bind low, Piece.words " AND "], high⟩]
  | constant _ => []
  | group chain => membersSites chain

/-- The sites of all members of a chain. -/
def membersSites : List (Connective × Condition) → List Site
  | [] => []
  | (_, condition) :: rest => condition.sites ++ membersSites rest

end

theorem membersSites_eq_flatMap (chain : Chain) :
    membersSites chain = chain.flatMap fun member => member.2.sites := by
  induction chain with
  | nil => rfl
  | cons member rest ih => rw [membersSites, ih, List.flatMap_cons]

mutual

theorem Readable.shows {d : Dialect} : (condition : Condition) → condition.Readable d →
    Shows [] condition.fragment condition.sites
  | compare subject op value, h => by
      have hcaption : params (subject ++ [Piece.words (" " ++ op.spelling ++ " ")]) = [] := by simp [h.bare]
      rw [fragment, sites]
      simpa using shows_caption hcaption value
  | isNull subject negated, h => by
      rw [fragment, sites]
      exact shows_of_params_eq_nil [] (by simp [h.bare])
  | isIn subject values negated, h => by
      have hcaption : Shows [] (subject ++ [Piece.words (if negated then " NOT IN (" else " IN (")]) [] :=
        shows_of_params_eq_nil [] (by simp [h.bare])
      rw [fragment, sites, List.append_cons]
      exact (hcaption.append (shows_bindList _ values)).append_bare rfl
  | between subject low high negated, h => by
      have hcaption : params (subject ++ [Piece.words (if negated then " NOT BETWEEN " else " BETWEEN ")]) = [] := by
        simp [h.bare]
      have hand := fun before => shows_of_params_eq_nil before (params_words " AND ")
      have hall := (shows_caption hcaption low).append ((hand _).append (shows_bind _ high))
      rw [fragment, sites]
      simpa [words] using hall
  | constant truth, _ => by
      rw [fragment, sites]
      exact shows_of_params_eq_nil [] rfl
  | group chain, h => by
      rw [fragment, sites]
      exact (ReadableMembers.shows chain h.2).words_cons.append_bare rfl

theorem ReadableMembers.shows {d : Dialect} : (chain : List (Connective × Condition)) → ReadableMembers d chain →
    Shows [] (chainFragment chain) (membersSites chain)
  | [], _ => shows_nil []
  | (_, condition) :: rest, ⟨hcondition, hrest⟩ => by
      rw [chainFragment, membersSites]
      exact (Readable.shows condition hcondition).then (ReadableMembers.shows_rest rest hrest)

theorem ReadableMembers.shows_rest {d : Dialect} : (rest : List (Connective × Condition)) → ReadableMembers d rest →
    Shows [] (restFragment rest) (membersSites rest)
  | [], _ => shows_nil []
  | (connective, condition) :: rest, ⟨hcondition, hrest⟩ => by
      rw [restFragment, membersSites]
      exact (Readable.shows condition hcondition).words_cons.then (ReadableMembers.shows_rest rest hrest)

end

end Condition

theorem shows_whereClause {d : Dialect} {chain : Chain} (h : ∀ member ∈ chain, member.2.Readable d) :
    Shows [] (whereClause chain) (Condition.membersSites chain) := by
  cases chain with
  | nil => exact shows_nil []
  | cons member rest =>
      exact (Condition.ReadableMembers.shows _ (Condition.readableMembers_iff.2 h)).words_cons

/-! ### Commands -/

namespace Selection

theorem params_projection (p : Projected) : p.fragment.params = [] := by
  cases p <;> simp [Projected.fragment]

theorem params_joins (joins : List Joined) : Fragment.params (joins.flatMap Joined.fragment) = [] := by
  induction joins with
  | nil => rfl
  | cons j joins ih => rw [List.flatMap_cons, params_append, ih]; simp [Joined.fragment]

theorem params_optional (keyword : String) {parts : List Fragment} (h : ∀ f ∈ parts, f.params = []) :
    (optional keyword parts).params = [] := by
  rw [optional]
  split
  · rfl
  · exact params_separated h

theorem params_groups (s : Selection) : (optional "GROUP BY" (s.groupBy.map reference)).params = [] :=
  params_optional "GROUP BY" (List.forall_mem_map.2 fun ref _ => params_reference ref)

theorem params_orders (s : Selection) :
    (optional "ORDER BY" (s.orderBy.map fun (c, direction) => reference c ++ words (" " ++ direction.spelling))).params = [] :=
  params_optional "ORDER BY" (List.forall_mem_map.2 fun order _ => by simp)

theorem params_windowClause (d : Dialect) (s : Selection) : (s.windowClause d).params = [] := by
  unfold windowClause
  dsimp only
  split <;> rfl

/-- What stands before the condition. -/
def head (s : Selection) : Fragment :=
  .words "SELECT " :: separated ", " (s.projection.map Projected.fragment) ++ .words " FROM " :: reference s.table ++
    s.joins.flatMap Joined.fragment

theorem params_head (s : Selection) : s.head.params = [] := by
  have hprojection : ∀ f ∈ s.projection.map Projected.fragment, f.params = [] :=
    List.forall_mem_map.2 fun p _ => params_projection p
  simp [head, params_separated hprojection, params_joins]

end Selection

/-- The sites of conditions on groups. -/
def havingSites (clauses : List Having) : List Site :=
  clauses.map fun h => ⟨[.expression h.expression, .words (" " ++ h.op.spelling ++ " ")], h.value⟩

theorem shows_having (clauses : List Having) :
    Shows [] (if clauses.isEmpty then [] else Piece.words " HAVING " :: Having.chain clauses) (havingSites clauses) := by
  have hcaptions : ∀ s ∈ havingSites clauses, s.caption.params = [] := by
    intro s hs
    obtain ⟨h, -, rfl⟩ := List.mem_map.1 hs
    rfl
  have hchain : Having.chain clauses =
      separated " AND " ((havingSites clauses).map fun s => s.caption ++ [Piece.bind s.value]) := by
    rw [Having.chain, havingSites, List.map_map]
    rfl
  cases clauses with
  | nil => exact shows_nil []
  | cons h clauses =>
      rw [hchain]
      exact (shows_captions hcaptions).words_cons

theorem Selection.shows {d : Dialect} {s : Selection} (h : ∀ member ∈ s.condition, member.2.Readable d) :
    Shows [] (s.fragment d) (Condition.membersSites s.condition ++ havingSites s.having) := by
  have hwhere := Shows.bare_append s.params_head (shows_whereClause h)
  have hgrouped := hwhere.append_bare s.params_groups
  have hhaving := hgrouped.then (shows_having s.having)
  exact (hhaving.append_bare s.params_orders).append_bare (s.params_windowClause d)

namespace Conflict

theorem params_assignment (d : Dialect) (column : String) : (assignment d column).params = [] := by
  cases d <;> rfl

theorem params_fragment (d : Dialect) (c : Conflict) : (c.fragment d).params = [] := by
  have hassignments : ∀ f ∈ c.update.map (assignment d), f.params = [] := by
    intro f hf
    obtain ⟨column, -, rfl⟩ := List.mem_map.1 hf
    exact params_assignment d column
  cases d <;> simp [fragment, params_separated hassignments]

end Conflict

namespace Insertion

/-- What is written before the rows: the columns that their cells belong to. -/
def caption (columns : List String) : Fragment := Piece.words " (" :: nameList columns ++ [Piece.words ") VALUES "]

/-- A row of values between parentheses. -/
def row (cells : List Value) : Fragment := .words "(" :: bindList cells ++ words ")"

/-- The clause that returns columns, if there are any. -/
def returningClause (i : Insertion) : Fragment :=
  if i.returning.isEmpty then [] else .words " " :: returningFragment i.returning

/-- The clause for conflicts, if there is one. -/
def conflictClause (d : Dialect) (i : Insertion) : Fragment :=
  match i.conflict with
  | some conflict => .words " " :: conflict.fragment d
  | none => []

theorem fragment_eq (d : Dialect) (i : Insertion) :
    i.fragment d = .words "INSERT INTO " :: reference i.table ++ .words " (" :: nameList i.columns ++ .words ") VALUES " ::
      separated ", " (i.rows.map row) ++ i.returningClause ++ i.conflictClause d := rfl

theorem params_returningClause (i : Insertion) : i.returningClause.params = [] := by
  rw [returningClause]
  split
  · rfl
  · exact params_separated (List.forall_mem_map.2 fun ref _ => params_reference ref)

theorem params_conflictClause (d : Dialect) (i : Insertion) : (i.conflictClause d).params = [] := by
  rw [conflictClause]
  split
  · exact Conflict.params_fragment d _
  · rfl

theorem shows (d : Dialect) (i : Insertion) : Shows [] (i.fragment d) (rowSites (caption i.columns) i.rows) := by
  rw [Insertion.fragment]
  refine Shows.append_bare (Shows.append_bare ?_ ?_) ?_
  · have hfront : Shows [] (Piece.words "INSERT INTO " :: reference i.table) [] := shows_of_params_eq_nil [] (by simp)
    have hcaption : Shows (Piece.words "INSERT INTO " :: reference i.table) (caption i.columns) [] :=
      shows_of_params_eq_nil _ (by simp [caption])
    have hrows := (shows_rows (caption i.columns) i.rows).behind (Piece.words "INSERT INTO " :: reference i.table)
    simpa [caption] using hfront.append (hcaption.append hrows)
  · exact i.params_returningClause
  · exact i.params_conflictClause d

end Insertion

namespace Change

/-- An assignment of a value is a value behind its column. -/
theorem shows_value (column : String) (value : Value) :
    Shows [] (assignment (column, .value value)) [⟨[.name column, .words " = "], value⟩] :=
  @shows_caption [.name column, .words " = "] rfl value

/-- An assignment of an expression shows what the expression shows. -/
theorem shows_expression (column : String) {f : Fragment} {sites : List Site} (h : Shows [] f sites) :
    Shows [] (assignment (column, .expression f)) sites :=
  Shows.bare_append rfl h

theorem shows {d : Dialect} {c : Change} {siteLists : List (List Site)}
    (hassignments : List.Forall₂ (fun assignment sites => Shows [] (Change.assignment assignment) sites)
      c.assignments siteLists) (hcondition : ∀ member ∈ c.condition, member.2.Readable d) :
    Shows [] c.fragment (siteLists.flatten ++ Condition.membersSites c.condition) := by
  have hset := (shows_separated ", " (List.forall₂_map_left_iff.2 hassignments)).words_cons (s := " SET ")
  have htable : Fragment.params (Piece.words "UPDATE " :: reference c.table) = [] := by simp
  exact (Shows.bare_append htable hset).then (shows_whereClause hcondition)

end Change

theorem Removal.shows {d : Dialect} {r : Removal} (h : ∀ member ∈ r.condition, member.2.Readable d) :
    Shows [] r.fragment (Condition.membersSites r.condition) := by
  have htable : Fragment.params (Piece.words "DELETE FROM " :: reference r.table) = [] := by simp
  exact Shows.bare_append htable (shows_whereClause h)

/-! ### Documents -/

/-- What is written before the new value at a path of a document. -/
def pathCaption (d : Dialect) (path : List String) : Fragment :=
  match d with
  | .ansi => []
  | .postgres => [.words " AS jsonb), ", .literal (JsonPath.brace path), .words ", CAST("]
  | .sqlite => [.words ", ", .literal (JsonPath.dollar path), .words ", json("]
  | .mysql => [.words ", ", .literal (JsonPath.dollar path), .words ", CAST("]
  | .sqlserver => [.words ", ", .literal (JsonPath.dollar path), .words ", "]

/-- A call of `jsonSet` shows what the document shows, and its value behind the path. -/
theorem shows_jsonSet {d : Dialect} {target f : Fragment} {segments path : List String} {value : Value}
    {sites : List Site} (htarget : Shows [] target sites) (hpath : JsonPath.validate segments = .ok path)
    (h : jsonSet d target (JsonPath.validate segments) [Piece.bind value] = .ok f) :
    Shows [] f (sites ++ [⟨pathCaption d path, value⟩]) := by
  have hcaption : (pathCaption d path).params = [] := by cases d <;> rfl
  have hall : ∀ opening closing, Shows [] (Piece.words opening :: target ++ (pathCaption d path ++ [Piece.bind value]) ++
      words closing) (sites ++ [⟨pathCaption d path, value⟩]) := fun opening closing =>
    (htarget.words_cons.then (shows_caption hcaption value)).append_bare rfl
  rw [hpath] at h
  cases d with
  | ansi => cases h
  | postgres =>
      cases h
      simpa [pathCaption] using hall "jsonb_set(CAST(" " AS jsonb))"
  | sqlite =>
      cases h
      simpa [pathCaption] using hall "json_set(" "))"
  | mysql =>
      cases h
      simpa [pathCaption] using hall "JSON_SET(" " AS JSON))"
  | sqlserver =>
      cases h
      simpa [pathCaption] using hall "JSON_MODIFY(" ")"

end Polyquery.Sql
