import Funnel.Catalog.Table
import Funnel.Text.Blank
import Funnel.Text.Case

/-!
# Metrics

A metric is counted over one table by SQL fragments, one of which is named `value`, or by a
formula over several queries.
-/

set_option autoImplicit false

namespace Funnel

structure Metric where
  key : String
  name : String
  description : String
  breakdown : Breakdown
  unit : MetricUnit
  table : String
  columns : List String
  conditions : List String
  groups : List String
  having : List String
  order : List String
  formula : Option Formula
  attribution : Option Attribution
  options : Fields
  /-- Whether an empty bucket of a chart is a gap rather than a zero. -/
  gapWhenEmpty : Bool

namespace Metric

def isSpecial (m : Metric) : Bool := m.formula.isSome

/-- The characters before a final `AS value`, case ignored, without the blanks between. -/
def aliasedAsValue? (cs : List Char) : Option (List Char) := do
  let r ← Text.dropWord? "eulav".toList (Text.trimChars cs).reverse
  let gap := r.dropWhile Text.isBlank
  if gap.length = r.length then none
  else do
    let r ← Text.dropWord? "sa".toList gap
    let gap := r.dropWhile Text.isBlank
    if gap.length = r.length ∨ gap = [] then none else some gap.reverse

def valueOf? (column : String) : Option String :=
  (aliasedAsValue? column.toList).map String.ofList

/-- The aggregation named `value`, without its name. -/
def valueExpression? (m : Metric) : Option String := m.columns.findSome? valueOf?

def tableSpec (m : Metric) : Except Fault Table := Table.named m.table

end Metric

end Funnel
