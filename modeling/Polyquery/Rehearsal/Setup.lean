import Polyquery.Rehearsal.Stage
import Polyquery.Session.Opening

/-! Setting up a rehearsal: a database whose drivers or connections act on a stage. -/

namespace Polyquery.Rehearsal

/-- What a rehearsal depends on besides its settings. Columns are looked up in the list of the stage, or by
queries. -/
structure Setup where
  hasReplica : Bool := false
  hasColumnList : Bool := false
  moment : Moment
  chance : Double

namespace Setup

def catalogue {α : Type} (s : Setup) : Catalogue (Stage α) :=
  if s.hasColumnList then .listed Stage.hasColumn else .queried

/-- A database over scripted drivers of a dialect; without settings the usual ones hold. -/
def overDrivers (s : Setup) (dialect : String) (settings : Option Value) :
    Except Failure (Database (Stage Result)) := do
  let dialect ← Dialect.ofName dialect
  let settings ← match settings with
    | some settings => (Settings.check settings).toExcept
    | none => pure {}
  let replica := if s.hasReplica then some (Stage.port .replica) else none
  pure (.overPorts settings dialect (Stage.port .primary) replica s.catalogue s.moment s.chance)

/-- A database over scripted connections. The settings may be read on their own before the overrides are laid
over them. -/
def overConnections (s : Setup) (settings : Value) (readFirst : Bool) (overrides : Value) :
    Except Failure (Database (Stage (Reply × List (List Value)))) := do
  let base ← if readFirst then Sum.inl <$> (Settings.check settings).toExcept else pure (Sum.inr settings)
  let settings ← Settings.overlaid base overrides
  let replica := if s.hasReplica then some (Stage.connection .replica) else none
  Database.overConnections settings (Stage.connection .primary) replica s.catalogue s.moment s.chance

end Setup

end Polyquery.Rehearsal
