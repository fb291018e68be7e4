import Polyquery.Registry
import Polyquery.Session.Transaction
import Polyquery.Validation.Settings
import Polyquery.Value.Pairs

/-! Opening a database: settings are read and overlaid, and the handle over them takes its modes from them. -/

namespace Polyquery

namespace Settings

/-- The failure to take an entry from a member of another size than two. -/
def notAnEntry (position size : Nat) : Failure :=
  .badValue ("dictionary update sequence element #" ++ toString position ++ " has length " ++ toString size ++
    "; 2 is required")

/-- The fields of a mapping or of a collection of pairs; a value that counts as false has none. -/
def fieldsOf (v : Value) : Except Failure (List (Value × Value)) :=
  if !v.isTruthy then .ok []
  else match v with
    | .map fields => .ok fields
    | v => v.ofPairs notAnEntry

/-- The names that overrides cannot have, as they say over what a database is opened. -/
def takenNames : List String := ["cls", "connection", "config", "read_connection", "introspector"]

/-- The fields of overrides, whose names are texts. -/
def overridesOf (v : Value) : Except Failure (List (Value × Value)) :=
  let isName : Value × Value → Bool
    | (.text name, _) => !takenNames.contains name
    | _ => false
  match v with
  | .map fields => if fields.all isName then .ok fields else .error .wrongType
  | _ => .error .wrongType

/-- Settings from data, where top-level fields give way to overrides. Settings that were read before are taken
as the data they are. -/
def overlaid (base : Settings ⊕ Value) (overrides : Value) : Except Failure Settings := do
  let overrides ← overridesOf overrides
  let fields ← match base with
    | .inl settings => pure settings.toFields
    | .inr data => fieldsOf data
  (check (.map (overrides.foldl (fun done (k, v) => Value.putEntry k v done) fields))).toExcept

/-- The first handle over settings. -/
def handle (s : Settings) : Handle := { readonly := s.readonly, testMode := s.testMode }

/-- The state of a session before its first statement. -/
def world {σ : Type} (s : Settings) (outside : σ) : World σ := { outside, cache := { capacity := s.cacheSize } }

end Settings

namespace Handle

/-- A handle that adds more equalities to every query, later ones winning. -/
def withScope (h : Handle) (scope : Row) : Handle := { h with scope := h.scope.merge scope }

/-- A handle that sends its statements by a route. -/
def routed (h : Handle) (route : Option String) : Handle := { h with route }

end Handle

namespace Database

variable {σ : Type}

/-- A database over connections: the settings name the dialect. -/
def overConnections (settings : Settings) (primary : Connection σ) (replica : Option (Connection σ))
    (catalogue : Catalogue σ) (moment : Moment) (chance : Double) : Except Failure (Database σ) := do
  let dialect ← Dialect.ofName settings.dialect
  pure {
    settings, dialect, catalogue, moment, chance
    primary := .connection primary
    replica := replica.map .connection }

/-- A database over drivers of the caller's, which know their dialect. -/
def overPorts (settings : Settings) (dialect : Dialect) (primary : Port σ) (replica : Option (Port σ))
    (catalogue : Catalogue σ) (moment : Moment) (chance : Double) : Database σ where
  settings := settings
  dialect := dialect
  primary := .port primary
  replica := replica.map .port
  catalogue := catalogue
  moment := moment
  chance := chance

end Database

end Polyquery
