import Mathlib.Data.List.Dedup
import Mathlib.Data.List.DropRight
import Polyquery.Session.StatementCache

/-! What a cache of statements holds after a sequence of calls. A call leaves a turn: for a fetch, its key, what the
factory gave when it ran, and the answer. The turns alone say what is in the cache.

Main statement: after any calls the keys of a cache, from the oldest to the latest, are the keys of the successful
fetches since the last clear, each at its latest place, cut to the last `capacity`; the next fetch runs its factory
exactly when its key is not among them. -/

namespace Polyquery.StatementCache

open List

variable {α ε : Type}

/-- A call of a cache; a fetch comes with what its factory would give. -/
inductive Call (ε α : Type) where
  | fetch (key : StatementKey) (make : Except ε α)
  | clear

/-- What a call has come to; a fetch has the outcomes of its factory, one for each time it ran. -/
inductive Turn (ε α : Type) where
  | fetched (key : StatementKey) (made : List (Except ε α)) (answer : Except ε α)
  | cleared

/-- A factory that notes its outcome when it runs. -/
def noting (make : Except ε α) : StateM (List (Except ε α)) (Except ε α) := fun made => (make, made ++ [make])

/-- One call. -/
def take (cache : StatementCache α) : Call ε α → Turn ε α × StatementCache α
  | .fetch key make =>
    let ((answer, after), made) := (cache.getOrCreateBy key (noting make)).run []
    (.fetched key made answer, after)
  | .clear => (.cleared, cache.clear)

/-- One call after another. -/
def play (cache : StatementCache α) : List (Call ε α) → List (Turn ε α) × StatementCache α
  | [] => ([], cache)
  | call :: calls =>
    let (turn, after) := cache.take call
    let (turns, final) := after.play calls
    (turn :: turns, final)

/-- Whether a call is a fetch. -/
def Call.isFetch : Call ε α → Bool
  | fetch .. => true
  | clear => false

namespace Turn

/-- Whether a turn is not a clear. -/
def isFetch : Turn ε α → Bool
  | fetched .. => true
  | cleared => false

/-- The key of a successful fetch. -/
def used? : Turn ε α → Option StatementKey
  | fetched key _ (.ok _) => some key
  | _ => none

/-- The statement that a factory made for a key. -/
def built? (key : StatementKey) : Turn ε α → Option α
  | fetched other made _ => if other = key then made.findSome? (·.toOption) else none
  | cleared => none

end Turn

/-- The keys of the successful fetches since the last clear. -/
def used (turns : List (Turn ε α)) : List StatementKey :=
  (turns.rtakeWhile Turn.isFetch).filterMap Turn.used?

/-- The last `capacity` keys used, each once, in the order of their latest use. -/
def recent (capacity : Int) (turns : List (Turn ε α)) : List StatementKey :=
  (used turns).dedup.rtake capacity.toNat

/-- The statement of the latest successful run of a factory for a key. -/
def built (key : StatementKey) (turns : List (Turn ε α)) : Option α :=
  (turns.filterMap (Turn.built? key)).getLast?

section Turns

variable (turns : List (Turn ε α)) (key other : StatementKey) (made : List (Except ε α))

@[simp] theorem used_cleared : used (turns ++ [.cleared]) = [] := by
  rw [used, rtakeWhile_concat_neg _ _ _ (by simp [Turn.isFetch])]
  rfl

@[simp] theorem used_fetched_ok (statement : α) :
    used (turns ++ [.fetched key made (.ok statement)]) = used turns ++ [key] := by
  rw [used, rtakeWhile_concat_pos _ _ _ rfl, filterMap_append]
  rfl

@[simp] theorem used_fetched_error (e : ε) : used (turns ++ [.fetched key made (.error e)]) = used turns := by
  rw [used, rtakeWhile_concat_pos _ _ _ rfl, filterMap_append]
  exact append_nil _

theorem built_concat (turn : Turn ε α) : built key (turns ++ [turn]) = (turn.built? key).or (built key turns) := by
  rw [built, built, filterMap_append, getLast?_append]
  cases hbuilt : turn.built? key <;> simp [hbuilt]

/-- A fetch changes nothing for the other keys. -/
theorem built_fetched_ne (h : key ≠ other) (answer : Except ε α) :
    built other (turns ++ [.fetched key made answer]) = built other turns := by
  rw [built_concat, Turn.built?, if_neg h, Option.none_or]

@[simp] theorem built_fetched_nil (answer : Except ε α) :
    built other (turns ++ [.fetched key [] answer]) = built other turns := by
  rw [built_concat, Turn.built?]
  split <;> rfl

@[simp] theorem built_fetched_ok (statement : α) :
    built key (turns ++ [.fetched key [.ok statement] (.ok statement)]) = some statement := by
  simp [built_concat, Turn.built?, Except.toOption]

@[simp] theorem built_fetched_error (e : ε) :
    built other (turns ++ [.fetched key [.error e] (.error e)]) = built other turns := by
  rw [built_concat, Turn.built?]
  split <;> rfl

end Turns

section Latest

variable {γ : Type} [DecidableEq γ]

/-- Using a key once more moves it to the end. -/
theorem dedup_concat (keys : List γ) (key : γ) :
    (keys ++ [key]).dedup = keys.dedup.filter (· ≠ key) ++ [key] := by
  induction keys with
  | nil => simp
  | cons first keys ih =>
      rw [cons_append]
      by_cases hlater : first ∈ keys
      · rw [dedup_cons_of_mem (mem_append_left _ hlater), dedup_cons_of_mem hlater, ih]
      · rw [dedup_cons_of_notMem hlater]
        by_cases hsame : first = key
        · rw [dedup_cons_of_mem (by simp [hsame]), ih, filter_cons_of_neg (by simp [hsame])]
        · rw [dedup_cons_of_notMem (by simp [hlater, hsame]), ih, filter_cons_of_pos (by simp [hsame]), cons_append]

omit [DecidableEq γ] in
/-- Of two lists in a row only the second counts when it is long enough. -/
theorem rtake_append_of_le {n : Nat} (keys : List γ) {others : List γ} (h : n ≤ others.length) :
    (keys ++ others).rtake n = others.rtake n := by
  have hlength : keys.length + others.length - n = keys.length + (others.length - n) := by omega
  rw [rtake, rtake, length_append, hlength, drop_length_add_append]

theorem length_le_length_filter_ne {keys : List γ} (hkeys : keys.Nodup) (key : γ) :
    keys.length ≤ (keys.filter (· ≠ key)).length + 1 := by
  have herased : keys.erase key = keys.filter (· ≠ key) := by
    rw [hkeys.erase_eq_filter]
    exact filter_congr fun _ _ => by rw [decide_not]; rfl
  rw [← herased, length_erase]
  split <;> omega

/-- To move a key to the end and cut is to cut, move it and cut again. -/
theorem rtake_moved {keys : List γ} (hkeys : keys.Nodup) (key : γ) (n : Nat) :
    (keys.filter (· ≠ key) ++ [key]).rtake n = ((keys.rtake n).filter (· ≠ key) ++ [key]).rtake n := by
  by_cases hshort : keys.length ≤ n
  · rw [rtake.eq_1 keys, Nat.sub_eq_zero_of_le hshort, drop_zero]
  · have hcut : (keys.rtake n).length = n := by rw [rtake, length_drop]; omega
    have hlong : n ≤ ((keys.rtake n).filter (· ≠ key) ++ [key]).length := by
      have hone := length_le_length_filter_ne (hkeys.sublist (drop_sublist (keys.length - n) keys)) key
      rw [← rtake, hcut] at hone
      rwa [length_append]
    have hsplit : keys.filter (· ≠ key) =
        (keys.take (keys.length - n)).filter (· ≠ key) ++ (keys.rtake n).filter (· ≠ key) := by
      rw [← filter_append, rtake, take_append_drop]
    rw [hsplit, append_assoc, rtake_append_of_le _ hlong]

end Latest

@[simp] theorem recent_cleared (capacity : Int) (turns : List (Turn ε α)) :
    recent capacity (turns ++ [.cleared]) = [] := by
  rw [recent, used_cleared, dedup_nil, rtake_nil]

@[simp] theorem recent_fetched_error (capacity : Int) (turns : List (Turn ε α)) (key : StatementKey)
    (made : List (Except ε α)) (e : ε) :
    recent capacity (turns ++ [.fetched key made (.error e)]) = recent capacity turns := by
  rw [recent, used_fetched_error, ← recent]

theorem recent_fetched_ok (capacity : Int) (turns : List (Turn ε α)) (key : StatementKey)
    (made : List (Except ε α)) (statement : α) :
    recent capacity (turns ++ [.fetched key made (.ok statement)]) =
      ((recent capacity turns).filter (· ≠ key) ++ [key]).rtake capacity.toNat := by
  rw [recent, used_fetched_ok, dedup_concat, rtake_moved (nodup_dedup _), ← recent]

theorem length_recent_le (capacity : Int) (turns : List (Turn ε α)) :
    (recent capacity turns).length ≤ capacity.toNat := by
  rw [recent, rtake, length_drop]
  omega

/-- A key that is used once more while it is among the latest drives none of them out. -/
theorem recent_fetched_mem {capacity : Int} {turns : List (Turn ε α)} {key : StatementKey}
    (h : key ∈ recent capacity turns) (made : List (Except ε α)) (statement : α) :
    recent capacity (turns ++ [.fetched key made (.ok statement)]) =
      (recent capacity turns).filter (· ≠ key) ++ [key] := by
  have hfewer : ((recent capacity turns).filter (· ≠ key)).length < (recent capacity turns).length :=
    length_filter_lt_length_iff_exists.2 ⟨key, h, by simp⟩
  have hbound := length_recent_le capacity turns
  rw [recent_fetched_ok, rtake, Nat.sub_eq_zero_of_le, drop_zero]
  rw [length_append, length_singleton]
  omega

section Lookup

variable {cache : StatementCache α} {key : StatementKey} {statement : α}

theorem keys_latest (key : StatementKey) (statement : α) (entries : List (StatementKey × α)) :
    (latest key statement entries).map (·.1) = (entries.map (·.1)).filter (· ≠ key) ++ [key] := by
  rw [latest, map_append, filter_map]
  rfl

theorem mem_latest {entries : List (StatementKey × α)} {entry : StatementKey × α}
    (h : entry ∈ latest key statement entries) : entry ∈ entries ∧ entry.1 ≠ key ∨ entry = (key, statement) := by
  simpa [latest] using h

theorem get?_eq_some_mem (h : cache.get? key = some statement) : (key, statement) ∈ cache.entries := by
  obtain ⟨⟨other, _⟩, hfound, rfl⟩ := Option.map_eq_some_iff.1 h
  obtain rfl : other = key := by simpa using find?_some hfound
  exact mem_of_find?_eq_some hfound

theorem get?_isSome_iff : (cache.get? key).isSome ↔ key ∈ cache.entries.map (·.1) := by
  simp [get?]

end Lookup

/-- A cache holds what its turns so far say. -/
structure Follows (cache : StatementCache α) (turns : List (Turn ε α)) : Prop where
  keys : cache.entries.map (·.1) = recent cache.capacity turns
  statements : ∀ entry ∈ cache.entries, built entry.1 turns = some entry.2
  counts : cache.hits + cache.misses = turns.countP Turn.isFetch

namespace Follows

variable {cache : StatementCache α} {turns : List (Turn ε α)} {key : StatementKey}

/-- A key among the latest is found, with the statement built for it last; the factory does not run. -/
theorem take_hit (h : Follows cache turns) (hkey : key ∈ recent cache.capacity turns) (make : Except ε α) :
    ∃ statement, built key turns = some statement ∧ cache.take (.fetch key make) =
      (.fetched key [] (.ok statement),
        { cache with entries := latest key statement cache.entries, hits := cache.hits + 1 }) := by
  rw [← h.keys, ← get?_isSome_iff] at hkey
  obtain ⟨statement, hfound⟩ := Option.isSome_iff_exists.1 hkey
  refine ⟨statement, h.statements _ (get?_eq_some_mem hfound), ?_⟩
  simp only [take, getOrCreateBy, hfound]
  rfl

/-- For any other key the factory runs, and its outcome is the answer. -/
theorem take_miss (h : Follows cache turns) (hkey : key ∉ recent cache.capacity turns) (make : Except ε α) :
    cache.take (.fetch key make) =
      (.fetched key [make] make, match make with
        | .error _ => { cache with misses := cache.misses + 1 }
        | .ok statement =>
          { cache with
            entries := trimmed cache.capacity (latest key statement cache.entries)
            misses := cache.misses + 1 }) := by
  rw [← h.keys, ← get?_isSome_iff, Option.not_isSome_iff_eq_none] at hkey
  cases make <;> simp only [take, getOrCreateBy, hkey] <;> rfl

theorem hit (h : Follows cache turns) (hkey : key ∈ recent cache.capacity turns) {statement : α}
    (hbuilt : built key turns = some statement) :
    Follows { cache with entries := latest key statement cache.entries, hits := cache.hits + 1 }
      (turns ++ [.fetched key [] (.ok statement)]) where
  keys := by rw [keys_latest, h.keys, recent_fetched_mem hkey]
  statements entry hentry := by
    rw [built_fetched_nil]
    obtain ⟨hold, -⟩ | rfl := mem_latest hentry
    · exact h.statements entry hold
    · exact hbuilt
  counts := by
    have hcounts := h.counts
    simp only [countP_append, countP_singleton, Turn.isFetch, if_true]
    omega

theorem failed (h : Follows cache turns) (key : StatementKey) (e : ε) :
    Follows { cache with misses := cache.misses + 1 } (turns ++ [.fetched key [.error e] (.error e)]) where
  keys := by rw [h.keys, recent_fetched_error]
  statements entry hentry := by rw [built_fetched_error, h.statements entry hentry]
  counts := by
    have hcounts := h.counts
    simp only [countP_append, countP_singleton, Turn.isFetch, if_true]
    omega

theorem stored (h : Follows cache turns) (key : StatementKey) (statement : α) :
    Follows
      { cache with
        entries := trimmed cache.capacity (latest key statement cache.entries)
        misses := cache.misses + 1 }
      (turns ++ [.fetched key [.ok statement] (.ok statement)]) where
  keys := by
    rw [trimmed, map_drop, keys_latest, h.keys, recent_fetched_ok, rtake, ← h.keys, ← keys_latest, length_map]
  statements entry hentry := by
    obtain ⟨hold, hother⟩ | rfl := mem_latest (mem_of_mem_drop hentry)
    · rw [built_fetched_ne _ _ _ _ (Ne.symm hother), h.statements entry hold]
    · exact built_fetched_ok turns key statement
  counts := by
    have hcounts := h.counts
    simp only [countP_append, countP_singleton, Turn.isFetch, if_true]
    omega

theorem emptied (h : Follows cache turns) : Follows cache.clear (turns ++ [.cleared]) where
  keys := by rw [recent_cleared]; rfl
  statements entry hentry := absurd hentry not_mem_nil
  counts := by
    have hcounts := h.counts
    simpa [Turn.isFetch, clear] using hcounts

/-- Every call keeps a cache to its turns. -/
theorem step (h : Follows cache turns) (call : Call ε α) :
    Follows (cache.take call).2 (turns ++ [(cache.take call).1]) ∧
      (cache.take call).2.capacity = cache.capacity := by
  cases call with
  | clear => exact ⟨h.emptied, rfl⟩
  | fetch key make =>
      by_cases hkey : key ∈ recent cache.capacity turns
      · obtain ⟨statement, hbuilt, htaken⟩ := h.take_hit hkey make
        rw [htaken]
        exact ⟨h.hit hkey hbuilt, rfl⟩
      · rw [h.take_miss hkey]
        cases make with
        | error e => exact ⟨h.failed key e, rfl⟩
        | ok statement => exact ⟨h.stored key statement, rfl⟩

theorem play (h : Follows cache turns) (calls : List (Call ε α)) :
    Follows (cache.play calls).2 (turns ++ (cache.play calls).1) ∧
      (cache.play calls).2.capacity = cache.capacity := by
  induction calls generalizing cache turns with
  | nil => exact ⟨by rwa [StatementCache.play, append_nil], rfl⟩
  | cons call calls ih =>
      obtain ⟨hstep, hcapacity⟩ := h.step call
      obtain ⟨hrest, hsame⟩ := ih hstep
      rw [StatementCache.play]
      exact ⟨by rwa [append_assoc] at hrest, hsame.trans hcapacity⟩

end Follows

theorem countP_play (cache : StatementCache α) (calls : List (Call ε α)) :
    (cache.play calls).1.countP Turn.isFetch = calls.countP Call.isFetch := by
  induction calls generalizing cache with
  | nil => rfl
  | cons call calls ih =>
      rw [StatementCache.play, countP_cons, countP_cons, ih]
      cases call <;> rfl

@[simp] theorem recent_eq_nil {capacity : Int} (h : capacity ≤ 0) (turns : List (Turn ε α)) :
    recent capacity turns = [] := by
  rw [recent, Int.toNat_of_nonpos h, rtake_zero]

/-- After any calls of a fresh cache, its keys are the last ones used, in the order of their latest use, and the hits
and the misses together are the fetches. A fetch of one of these keys answers with the statement built for it last,
and its factory does not run; for any other key the factory runs once and its outcome is the answer, and one that
fails changes no more than the number of misses. A statement answered for a key is thus the one built for it last. -/
theorem play_recent (capacity : Int) (calls : List (Call ε α)) :
    ∃ turns cache, StatementCache.play { capacity } calls = (turns, cache) ∧
      cache.entries.map (·.1) = recent capacity turns ∧ (capacity ≤ 0 → cache.entries = []) ∧
      cache.hits + cache.misses = calls.countP Call.isFetch ∧
      ∀ (key : StatementKey) (make : Except ε α),
        (key ∈ recent capacity turns → ∃ statement after, built key turns = some statement ∧
          cache.take (.fetch key make) = (.fetched key [] (.ok statement), after)) ∧
        (key ∉ recent capacity turns → ∃ after, cache.take (.fetch key make) = (.fetched key [make] make, after) ∧
          ∀ e, make = .error e → after = { cache with misses := cache.misses + 1 }) ∧
        ∀ made statement after, cache.take (.fetch key make) = (.fetched key made (.ok statement), after) →
          built key (turns ++ [.fetched key made (.ok statement)]) = some statement := by
  have hfresh : Follows ({ capacity } : StatementCache α) ([] : List (Turn ε α)) :=
    ⟨by simp [recent, used], fun _ hentry => absurd hentry not_mem_nil, rfl⟩
  obtain ⟨hfollows, hcapacity⟩ := hfresh.play calls
  have hcounts := countP_play ({ capacity } : StatementCache α) calls
  rw [nil_append] at hfollows
  generalize StatementCache.play { capacity } calls = played at hfollows hcapacity hcounts ⊢
  obtain ⟨turns, cache⟩ := played
  obtain rfl : cache.capacity = capacity := hcapacity
  refine ⟨turns, cache, rfl, hfollows.keys, fun hnone => ?_, hfollows.counts.trans hcounts, fun key make => ?_⟩
  · rw [← map_eq_nil_iff, hfollows.keys, recent_eq_nil hnone]
  by_cases hkey : key ∈ recent cache.capacity turns
  · obtain ⟨statement, hbuilt, htaken⟩ := hfollows.take_hit hkey make
    refine ⟨fun _ => ⟨statement, _, hbuilt, htaken⟩, fun hnot => absurd hkey hnot, ?_⟩
    intro made other after hother
    rw [htaken] at hother
    cases hother
    rw [built_fetched_nil, hbuilt]
  · have htaken := hfollows.take_miss hkey make
    refine ⟨fun hin => absurd hin hkey, fun _ => ⟨_, htaken, fun e he => by rw [he]⟩, ?_⟩
    intro made statement after hother
    rw [htaken] at hother
    cases hother
    rw [built_fetched_ok]

/-- A key that is fetched again outlives an older one. -/
example :
    let key := StatementKey.mk "sqlite"
    let calls : List (Call String Nat) :=
      [.fetch (key "A") (.ok 1), .fetch (key "B") (.ok 2), .fetch (key "A") (.ok 3), .fetch (key "C") (.ok 4)]
    (StatementCache.play { capacity := 2 } calls).2.entries = [(key "A", 1), (key "C", 4)] := by decide

end Polyquery.StatementCache
