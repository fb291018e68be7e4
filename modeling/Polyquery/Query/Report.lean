import Polyquery.Query.State
import Polyquery.Report

/-! What queries and their statements tell of themselves. -/

namespace Polyquery

open Report (text integer integer? flag values fields items)

namespace JoinTerm

def report (j : JoinTerm) : Report :=
  fields [("table", text j.table), ("left", text j.left), ("operator", text j.operator), ("right", text j.right),
    ("type", text j.kind.spelling)]

end JoinTerm

namespace HavingTerm

def report (h : HavingTerm) : Report :=
  fields [("expression", text h.expression), ("operator", text h.operator), ("value", .value h.value)]

end HavingTerm

namespace OrderTerm

def report (o : OrderTerm) : Report :=
  fields [("column", text o.column), ("direction", text o.direction.spelling)]

end OrderTerm

namespace QueryOf

/-- A query, its filters reported already. -/
def reportWith {φ : Type} (filters : List Report) (q : QueryOf φ) : Report :=
  fields [("table", text q.table), ("columns", values q.columns), ("filters", items filters),
    ("joins", items (q.joins.map JoinTerm.report)), ("group_by", values q.groupBy),
    ("having", items (q.having.map HavingTerm.report)), ("order_by", items (q.orderBy.map OrderTerm.report)),
    ("limit", integer? q.limit), ("offset", integer? q.offset), ("timeout_ms", integer? q.timeout),
    ("visibility", text q.visibility.name)]

end QueryOf

namespace Filter

/-- A filter of a kind, with the fields that only this kind has. -/
def reportKind (kind : String) (connective : Sql.Connective) (own : List (String × Report)) : Report :=
  fields (("kind", text kind) :: ("boolean", text connective.spelling) :: own)

mutual

def report : Filter → Report
  | basic column operator v c =>
    reportKind "basic" c [("column", text column), ("operator", text operator), ("value", .value v)]
  | isIn column vs negated c =>
    reportKind "in" c [("column", text column), ("values", values vs), ("negate", flag negated)]
  | isNull column negated c => reportKind "null" c [("column", text column), ("negate", flag negated)]
  | between column low high negated c =>
    reportKind "between" c
      [("column", text column), ("low", .value low), ("high", .value high), ("negate", flag negated)]
  | json path operator v c =>
    reportKind "json" c [("path", text path), ("operator", text operator), ("value", .value v)]
  | group query c => reportKind "group" c [("state", reportGroup query)]
  | other v => .value v

/-- The query that a group holds. -/
def reportGroup : QueryOf Filter → Report
  | ⟨table, columns, filters, joins, groupBy, having, orderBy, limit, offset, timeout, visibility⟩ =>
    QueryOf.reportWith (reportAll filters)
      (⟨table, columns, filters, joins, groupBy, having, orderBy, limit, offset, timeout, visibility⟩ : Query)

/-- Filters in order. -/
def reportAll : List Filter → List Report
  | [] => []
  | filter :: rest => filter.report :: reportAll rest

end

end Filter

namespace Query

def report (q : Query) : Report := q.reportWith (Filter.reportAll q.filters)

end Query

namespace Statement

def report (s : Statement) : Report :=
  fields [("sql", text s.sql), ("params", values s.params), ("dialect", text s.dialect.name),
    ("operation", text s.operation.name)]

end Statement

end Polyquery
