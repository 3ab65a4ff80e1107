import Funnel.Catalog.Attribution
import Funnel.Filter.Standard

/-!
# Plain queries

A metric in its own breakdown is queried as it is defined; in another one its value is counted
for each combination of the table's key columns.
-/

set_option autoImplicit false

namespace Funnel

/-- What the query of a metric with an unnamed value shows in its place. -/
def valueText (m : Metric) : String := (m.valueExpression?).getD "None"

namespace Plan

def shape (m : Metric) (t : Table) (b : Breakdown) (conditions : List Condition) : Select :=
  if b = m.breakdown then .mk m.columns m.table [] conditions m.groups m.having m.order []
  else
    let keys := t.keys b
    .mk ((keys.map fun (c, n) => c ++ " AS " ++ n) ++ [valueText m ++ " AS value"]) m.table []
      conditions (keys.map Prod.fst) [] (if keys.isEmpty then [] else ["value DESC"]) []

/-- The conditions of a plain metric: the standard ones, its own, and that rows have an owner. -/
def metricConditions (m : Metric) (applied : Applied) : List Condition :=
  sqlConditions (applied.sql ++ m.conditions ++ ownerConditions m.attribution none)

def generic (m : Metric) (f : Filters) (b : Breakdown) : Except Fault BoundQuery := do
  let t ← m.tableSpec
  let applied ← Standard.apply f t none true
  .ok {
    query := shape m t b (metricConditions m applied)
    params := applied.params
    strategy := .generic
    breakdown := b }

end Plan

end Funnel
