import Polyquery.Association
import Polyquery.Dialect
import Polyquery.Text.Lower

/-! The registry of dialects by name. Names and aliases are looked up in small letters; the last registration
of a name or an alias wins. -/

namespace Polyquery

/-- A registered dialect: the one whose statements it writes, and the name it goes by. -/
structure Registration where
  dialect : Dialect
  reported : String
deriving DecidableEq, Repr

/-- The registered names, and the aliases with the names they stand for. -/
structure Registry where
  names : List (String × Registration)
  aliases : List (String × String)

namespace Registry

/-- A dialect registered under a name and some aliases. -/
def register (r : Registry) (name : String) (entry : Registration) (aliases : List String) : Registry where
  names := Association.assign name entry r.names
  aliases := aliases.foldl (fun done spelling => Association.assign spelling name done) r.aliases

/-- The dialects that are always there. -/
def builtin : Registry :=
  let add (r : Registry) (d : Dialect) (aliases : List String) := r.register d.name ⟨d, d.name⟩ aliases
  [(Dialect.sqlite, []), (.postgres, ["pgsql", "postgresql"]), (.mysql, ["mariadb"]),
   (.sqlserver, ["sqlsrv", "mssql"]), (.ansi, [])].foldl (fun r (d, aliases) => add r d aliases) ⟨[], []⟩

/-- The registered names in order. -/
def registered (r : Registry) : List String := (r.names.map (·.1)).mergeSort fun a b => decide (a ≤ b)

/-- The dialect for a name or an alias. -/
def create (r : Registry) (name : String) : Except Failure Registration :=
  let key := Text.lower name
  match Association.find? ((Association.find? key r.aliases).getD key) r.names with
  | some entry => .ok entry
  | none => .error (.uncompilable (.unknownDialect name r.registered))

end Registry

/-- The dialect of a name. -/
def Dialect.ofName (name : String) : Except Failure Dialect := (Registry.builtin.create name).map (·.dialect)

end Polyquery
