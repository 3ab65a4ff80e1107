import Funnel.Proofs.Engine.Steady
import Funnel.Proofs.Plan.Reps

/-!
# Formulas over queries without rows

Where no query has a row, a formula still has a figure: zero, or none where numbers are averaged
that are not there. Which of the two it is depends on the step that combines the rows.
-/

set_option autoImplicit false

namespace Funnel

open Number

def Formula.figureOfNothing : Formula → Option Float
  | .speedToLead | .bookingLeadTime => none
  | _ => some 0.0

/-- Ratios that are zero where there is nothing to divide. -/
def Formula.zeroedRatios : List Formula :=
  [.leadToAppointment, .dataCompletionRate, .overduePercentage, .cashPerDial]

namespace Plan

open Engine (optional)

theorem plainSum_replicate (n : Nat) : plainSum (List.replicate n 0.0) = 0.0 := by
  induction n with
  | zero => rfl
  | succ n ih =>
    have hzero : (0.0 : Float) + 0.0 = 0.0 := by decide
    rw [List.replicate_succ, plainSum, List.foldl_cons, hzero]
    exact ih

/-- Reps who are only requested have no cash and no appointments. -/
theorem repRoi_requested (ids : List String) (asMultiple : Bool) :
    repRoi (plainSum ((withRequested [] ids).map fun p => p.2.cash))
      (plainSum ((withRequested [] ids).map fun p => p.2.appointments)) 0.0 0.0 asMultiple =
      0.0 := by
  have hzero : repRoi 0.0 0.0 0.0 0.0 asMultiple = 0.0 := by cases asMultiple <;> decide
  have hcash : (withRequested [] ids).map (fun p => p.2.cash) =
      List.replicate (withRequested [] ids).length 0.0 := by
    rw [withRequested_eq]
    simp [Function.comp_def, RepStats.none]
  have happointments : (withRequested [] ids).map (fun p => p.2.appointments) =
      List.replicate (withRequested [] ids).length 0.0 := by
    rw [withRequested_eq]
    simp [Function.comp_def, RepStats.none]
  rw [hcash, happointments, plainSum_replicate, hzero]

variable {m : Metric} {fm : Formula} {f : Filters} {settings : Fields} {plan : FormulaPlan}

theorem combine_nothing (hm : m.formula = some fm) (h : formula m f settings .total = .ok plan)
    (known : Calendar.Zones) :
    plan.combine known (fun _ => .list []) = .ok (valueRow (optional fm.figureOfNothing)) := by
  unfold formula at h
  rw [hm] at h
  cases fm with
  | roi =>
    obtain ⟨cash, -, h⟩ := Fault.bind_eq_ok_iff.mp h
    obtain ⟨spend, -, h⟩ := Fault.bind_eq_ok_iff.mp h
    cases h
    rfl
  | repRoi =>
    obtain ⟨stats, -, h⟩ := Fault.bind_eq_ok_iff.mp h
    obtain ⟨total, -, h⟩ := Fault.bind_eq_ok_iff.mp h
    obtain ⟨spend, -, h⟩ := Fault.bind_eq_ok_iff.mp h
    cases h
    exact congrArg (fun x => Except.ok (doubleRow x)) (repRoi_requested _ _)
  | costPerBookedCall =>
    obtain ⟨total, -, h⟩ := Fault.bind_eq_ok_iff.mp h
    obtain ⟨spend, -, h⟩ := Fault.bind_eq_ok_iff.mp h
    obtain ⟨entities, -, h⟩ := Fault.bind_eq_ok_iff.mp h
    cases h
    rfl
  | speedToLead =>
    obtain ⟨pairs, -, h⟩ := Fault.bind_eq_ok_iff.mp h
    cases h
    rfl
  | leadToAppointment =>
    obtain ⟨conversion, -, h⟩ := Fault.bind_eq_ok_iff.mp h
    cases h
    rfl
  | dataCompletionRate =>
    obtain ⟨completion, -, h⟩ := Fault.bind_eq_ok_iff.mp h
    cases h
    rfl
  | overdueItems | overduePercentage =>
    obtain ⟨query, -, h⟩ := Fault.bind_eq_ok_iff.mp h
    cases h
    rfl
  | cashPerDial =>
    obtain ⟨applied, -, h⟩ := Fault.bind_eq_ok_iff.mp h
    cases h
    rfl
  | bookingLeadTime =>
    obtain ⟨times, -, h⟩ := Fault.bind_eq_ok_iff.mp h
    cases h
    rfl
  | workTimeframe => cases h

theorem find?_zip_nothing (names : List String) {answers : List Value}
    (h : ∀ v ∈ answers, v = .list []) (name : String) :
    (Named.find? (names.zip answers) name).getD (.list []) = .list [] := by
  cases hfind : Named.find? (names.zip answers) name with
  | none => rfl
  | some v => exact h v (List.of_mem_zip (Named.mem_of_find? hfind)).2

theorem rows_nothing (known : Calendar.Zones) (plan : FormulaPlan) :
    plan.rows known (fun _ _ => .ok (.list [])) = plan.combine known fun _ => .list [] := by
  have hanswers : plan.queries.mapM (fun _ => .ok (.list [])) =
      (.ok (plan.queries.map fun _ => .list []) : Except Fault (List Value)) :=
    Fault.mapM_eq_ok fun _ _ => rfl
  have hnothing : ∀ v ∈ plan.queries.map (fun _ => Value.list []), v = .list [] :=
    List.forall_mem_map.mpr fun _ _ => rfl
  rw [FormulaPlan.rows, hanswers]
  change plan.combine known _ = _
  congr 1
  funext name
  exact find?_zip_nothing plan.queries.names hnothing name

end Plan

end Funnel
