import Polyquery.Query.Terminal
import Polyquery.Session.Transaction

/-! Queries on a handle: what a handle lets its queries do in a session. -/

namespace Polyquery

/-- The access that a handle gives its queries. -/
def Database.access {σ : Type} (db : Database σ) (h : Handle) : Access (Session σ) where
  dialect := db.dialect
  compiler := db.compiler h
  hasColumn := db.hasColumn
  run := db.run h
  lastKey := db.lastKey h
  transaction := db.transaction h.testMode .null

end Polyquery
