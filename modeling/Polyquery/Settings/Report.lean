import Polyquery.Report
import Polyquery.Settings.Basic

/-! What settings tell of themselves. -/

namespace Polyquery

open Report

namespace SoftDelete

def report (s : SoftDelete) : Report :=
  fields [("enabled", flag s.enabled), ("column", text s.column), ("mode", text s.mode.name),
    ("deleted_value", value s.deletedValue), ("restored_value", value s.restoredValue)]

end SoftDelete

namespace Retry

def report (r : Retry) : Report :=
  fields [("attempts", integer r.attempts), ("base_delay", value (.real r.baseDelay)),
    ("max_delay", value (.real r.maxDelay)), ("jitter", value (.real r.jitter))]

end Retry

namespace TableRules

def report (r : TableRules) : Report :=
  fields [("allowed_tables", texts r.allowed), ("denied_tables", texts r.denied),
    ("denied_operations", fields (r.deniedOperations.map fun (table, names) => (table, texts names)))]

end TableRules

namespace Settings

def report (s : Settings) : Report :=
  fields [("dialect", text s.dialect), ("prefix", text? s.tablePrefix), ("readonly", flag s.readonly),
    ("test_mode", flag s.testMode), ("max_in_params", integer s.maxInValues),
    ("soft_delete", s.softDelete.report), ("retry", s.retry.report),
    ("statement_cache_size", integer s.cacheSize), ("policy", s.rules.report)]

end Settings

end Polyquery
