import Funnel.Proofs.DataView.Profiles
import Funnel.Proofs.Engine.Answer
import Funnel.Proofs.Engine.Steady

/-!
# Figures of people

A figure of a person is made of requests that never ask for a chart and always for one number.
-/

set_option autoImplicit false

namespace Funnel

def View.narrowed (v : View) (s : Side) (user : String) : Filters :=
  { v.filters with repIds := s.repIds user, setterIds := s.setterIds user }

def View.options (v : View) : Options := ⟨some "kpi", some .total, v.settings⟩

namespace View

variable {v : View} {m : Metric}

theorem wantsChart_options (v : View) : v.options.wantsChart = false := by
  have hkpi : (Text.lower "kpi" != "kpi") = false := by decide +kernel
  have htotal : ((some Breakdown.total : Option Breakdown) == some .time) = false := by decide
  simp only [options, Options.wantsChart, hkpi, htotal, Bool.and_false, Bool.or_false]

/-- A request for one number is answered without a breakdown, by a formula or by a plain query. -/
theorem selectStrategy_options {t : Table} (ht : m.tableSpec = .ok t) :
    selectStrategy m v.options =
      .ok (if m.isSpecial then .special else .generic, .total) := by
  have hchart := v.wantsChart_options
  have hbreakdown : v.options.breakdown = some .total := rfl
  unfold selectStrategy
  split
  · rw [specialBreakdown, hchart, if_neg Bool.false_ne_true, if_pos hbreakdown]
  · rw [hchart, if_neg Bool.false_ne_true, plainBreakdown, hbreakdown]
    simp only
    split
    · rfl
    · rw [ht]
      rfl

end View

end Funnel
