/-! A cache of prepared statements. Statements are kept under their dialect and text; the one used longest ago
leaves when there are more than the capacity. -/

namespace Polyquery

/-- What a prepared statement is kept under. -/
structure StatementKey where
  dialect : String
  sql : String
deriving DecidableEq, Repr

/-- Statements from the one used longest ago to the latest, with the numbers of hits and misses. -/
structure StatementCache (α : Type) where
  capacity : Int := 256
  entries : List (StatementKey × α) := []
  hits : Nat := 0
  misses : Nat := 0

namespace StatementCache

variable {α ε : Type}

def get? (cache : StatementCache α) (key : StatementKey) : Option α :=
  (cache.entries.find? fun entry => entry.1 = key).map (·.2)

/-- The entries with one as the latest, and none else under its key. -/
def latest (key : StatementKey) (statement : α) (entries : List (StatementKey × α)) :
    List (StatementKey × α) :=
  entries.filter (fun entry => entry.1 ≠ key) ++ [(key, statement)]

/-- The last `capacity` entries; none for a capacity below one. -/
def trimmed (capacity : Int) (entries : List (StatementKey × α)) : List (StatementKey × α) :=
  entries.drop (entries.length - capacity.toNat)

/-- The statement under a key; its factory runs when it is not there. A factory that fails only counts as a
miss. -/
def getOrCreateBy {m : Type → Type} [Monad m] (cache : StatementCache α) (key : StatementKey)
    (factory : m (Except ε α)) : m (Except ε α × StatementCache α) :=
  match cache.get? key with
  | some statement =>
    pure (.ok statement, { cache with entries := latest key statement cache.entries, hits := cache.hits + 1 })
  | none => do
    let missed := { cache with misses := cache.misses + 1 }
    match ← factory with
    | .error e => pure (.error e, missed)
    | .ok statement =>
      pure (.ok statement, { missed with entries := trimmed cache.capacity (latest key statement cache.entries) })

/-- The statement under a key, with a factory that does nothing but answer. -/
def getOrCreate (cache : StatementCache α) (key : StatementKey) (make : Except ε α) :
    Except ε α × StatementCache α :=
  Id.run (cache.getOrCreateBy key (pure make))

/-- The cache without its statements; the numbers stay. -/
def clear (cache : StatementCache α) : StatementCache α := { cache with entries := [] }

def size (cache : StatementCache α) : Nat := cache.entries.length

end StatementCache

end Polyquery
