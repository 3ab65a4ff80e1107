import Funnel.Catalog.Metric
import Funnel.Query.Bound
import Funnel.Text.Case

/-!
# How a request is answered

The options of a request decide, together with the metric, whether it is answered as a chart, by
a formula or by a plain query, and by what the result is broken down.
-/

set_option autoImplicit false

namespace Funnel

structure Options where
  vizType : Option String
  breakdown : Option Breakdown
  settings : Fields

namespace Options

def none : Options := ⟨Option.none, Option.none, []⟩

def wantsChart (o : Options) : Bool :=
  (match o.vizType with
    | some s => s != "" && Text.lower s != "kpi"
    | Option.none => false) || o.breakdown == some .time

end Options

def specialBreakdown (m : Metric) (o : Options) : Breakdown :=
  if o.wantsChart then .time
  else if o.breakdown = some .total then .total
  else if m.formula = some .workTimeframe ∧ o.breakdown = some .setter then .setter
  else m.breakdown

def plainBreakdown (m : Metric) (o : Options) : Except Fault Breakdown :=
  match o.breakdown with
  | none => .ok m.breakdown
  | some b =>
    if b = m.breakdown then .ok b
    else do
      let t ← m.tableSpec
      .ok (if t.supports b then b else m.breakdown)

def selectStrategy (m : Metric) (o : Options) : Except Fault (Strategy × Breakdown) :=
  if m.isSpecial then .ok (.special, specialBreakdown m o)
  else if o.wantsChart then .ok (.timeSeries, .time)
  else do .ok (.generic, ← plainBreakdown m o)

end Funnel
