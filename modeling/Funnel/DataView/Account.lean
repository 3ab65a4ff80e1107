import Funnel.DataView.Users

/-!
# Figures of an account

A single figure of the whole account with its display string, or its chart.
-/

set_option autoImplicit false

namespace Funnel

structure AccountFigure where
  metricName : String
  value : Float
  display : String
  unit : MetricUnit

namespace Engine

def accountFigure (e : Engine) (v : View) (metric : String) : Session AccountFigure := do
  match Registry.find? metric with
  | none => .ofExcept (.error (.invalidRequest [notFound metric]))
  | some m => do
    let response ← e.execute (v.request metric [] []) none
    let value := response.result.single
    let display ← Session.ofExcept (v.shown m value)
    pure ⟨metric, value, display, m.unit⟩

def accountChart (e : Engine) (v : View) (metric : String) : Session Result := do
  let response ← e.execute ⟨metric, v.filters, some ⟨some "line", none, v.settings⟩⟩ none
  pure response.result

end Engine

end Funnel
