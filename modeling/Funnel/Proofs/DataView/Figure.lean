import Funnel.Proofs.DataView.Cells
import Funnel.Proofs.Display

/-!
# Every figure of a person is answered

The requests of a figure end with finite numbers whatever the store does. A duration is only ever
counted on one side, so the figure that is made of them can be shown.
-/

set_option autoImplicit false

namespace Funnel

open Session Number

theorem length_sidesByRole_le (role : String) {admin : List Side} {n : Nat} (hn : 1 ≤ n)
    (h : admin.length ≤ n) : (sidesByRole role admin).length ≤ n := by
  unfold sidesByRole
  split
  · exact hn
  · split
    · exact hn
    · split
      · exact h
      · exact Nat.zero_le n

/-- Only appointments are counted on two sides. -/
theorem Metric.length_sides_le {m : Metric} {n : Nat} (hn : 1 ≤ n)
    (h : m.table = "appointments" → 2 ≤ n) (role : String) : (m.sides role).length ≤ n := by
  have hzero := Nat.zero_le n
  unfold sides
  split
  · exact hzero
  · split
    · exact hn
    · exact hn
    · exact hn
    · split
      · exact hn
      · split
        · rename_i happointments
          split
          · exact hn
          · exact length_sidesByRole_le role hn (h happointments)
        · split
          · exact length_sidesByRole_le role hn hn
          · split
            · split
              · exact hn
              · exact hzero
            · exact hzero

theorem Registry.table_of_seconds {name : String} {m : Metric} (h : find? name = some m)
    (hunit : m.unit = .seconds) : m.table ≠ "appointments" := by
  have hbase : ∀ m ∈ baseMetrics, m.unit = .seconds → m.table ≠ "appointments" := by
    decide
  have hspecial : ∀ m ∈ specialMetrics, m.unit = .seconds → m.table ≠ "appointments" := by
    decide
  rcases variant_or_special h with ⟨base, hmem, hvariant⟩ | hmem
  · rw [hvariant.table]
    exact hbase base hmem (hvariant.unit ▸ hunit)
  · exact hspecial m hmem hunit

theorem isFinite_combineSides {unit : MetricUnit} {values : List Float}
    (hlength : values.length ≤ 1) (h : ∀ x ∈ values, isFinite x = true) :
    isFinite (combineSides unit values) = true := by
  match values with
  | [] => exact isFinite_zero
  | [x] => exact h x List.mem_cons_self
  | _ :: _ :: _ => simp at hlength

namespace Engine

variable {answer : String → Fields → Except Fault Value} {e : Engine} {v : View} {name : String}
  {m : Metric}

/-- A request for one number, whosever it is, ends with a finite one, whatever the store does. -/
theorem answers_request (e : Engine) (hf : v.filters.reasons = [])
    (hm : Registry.find? name = some m) (reps setters : List String) :
    (e.execute (v.request name reps setters) none).Answers
      fun response => isFinite response.result.single = true := by
  obtain ⟨t, ht⟩ := Registry.exists_table hm
  have hs := View.selectStrategy_options (v := v) ht
  have hreasons : (v.request name reps setters).reasons = [] := reasons_of_checked hf hm
  have hfind : Registry.find? (v.request name reps setters).metricName = some m := hm
  rw [execute, hreasons, hfind]
  refine answers_bind (answers_ofExcept hs rfl) ?_
  rintro _ rfl
  refine answers_bind (answers_orElse (yields_run e (Registry.breakdown_of_workTimeframe hm) hs _)
    ⟨Result.breakdown_empty .total, Result.sound_empty _ .total⟩) fun result hresult => ?_
  obtain ⟨hbreakdown, hsound⟩ := hresult
  cases result with
  | total x =>
    have hfill : e.fillNames (.total x) = pure (.total x) := by
      unfold fillNames
      rw [Result.userIds_total]
    rw [hfill]
    exact answers_bind (answers_pure rfl) fun _ h => h ▸ answers_pure hsound
  | rep rows | setter rows | link rows | time rows => cases hbreakdown

theorem answers_sideValue (e : Engine) (hf : v.filters.reasons = [])
    (hm : Registry.find? name = some m) (user : String) (s : Side) :
    (e.sideValue v name user s).Answers fun x => isFinite x = true :=
  answers_bind (answers_request e hf hm _ _) fun _ h => answers_pure h

theorem steady_sideValue (he : e.store = .ofFunction answer) (v : View) (name user : String)
    (s : Side) : (e.sideValue v name user s).Steady :=
  steady_bind (steady_execute he _ _) fun _ => steady_pure _

theorem answers_userCell (e : Engine) (hf : v.filters.reasons = [])
    (hm : Registry.find? name = some m) {p : Profile} {role : String}
    (hrole : roleOf p.role = .ok role) : (e.userCell v p name).Answers fun _ => True := by
  have hshown : ∀ x, (m.unit = .seconds → isFinite x = true) → ∃ s, v.shown m x = .ok s :=
    fun _ => Display.exists_ofDouble m.unit v.timeFormat
  have hvalues : (gather ((m.sides role).map (e.sideValue v name p.userId))).Answers fun values =>
      values.length = (m.sides role).length ∧ ∀ x ∈ values, isFinite x = true := by
    have hside : ∀ x ∈ (m.sides role).map (e.sideValue v name p.userId),
        x.Answers fun y => isFinite y = true := by
      intro x hx
      obtain ⟨s, -, rfl⟩ := List.mem_map.mp hx
      exact e.answers_sideValue hf hm p.userId s
    simpa using answers_gather hside
  obtain ⟨zero, hzero⟩ := hshown 0.0 fun _ => isFinite_zero
  unfold userCell
  rw [hm]
  refine answers_bind (answers_ofExcept hrole rfl) ?_
  rintro _ rfl
  split
  · exact answers_bind (answers_ofExcept hzero rfl) fun _ _ => answers_pure trivial
  · refine answers_bind hvalues fun values ⟨hlength, hfinite⟩ => ?_
    obtain ⟨display, hdisplay⟩ := hshown (combineSides m.unit values) fun hunit =>
      isFinite_combineSides (hlength ▸ Metric.length_sides_le (Nat.le_refl 1)
        (fun h => absurd h (Registry.table_of_seconds hm hunit)) role) hfinite
    refine answers_bind (answers_ofExcept hdisplay rfl) fun _ _ => ?_
    split <;> exact answers_pure trivial

theorem steady_userCell (he : e.store = .ofFunction answer) (v : View) (p : Profile)
    (name : String) : (e.userCell v p name).Steady := by
  unfold userCell
  split
  · exact steady_ofExcept _
  · refine steady_bind (steady_ofExcept _) fun role => ?_
    split
    · exact steady_bind (steady_ofExcept _) fun _ => steady_pure _
    · refine steady_bind (steady_gather fun s _ => steady_sideValue he v name p.userId s) ?_
      refine fun values => steady_bind (steady_ofExcept _) fun display => ?_
      split <;> exact steady_pure _

theorem exists_gives_userCell (he : e.store = .ofFunction answer) (hf : v.filters.reasons = [])
    (hm : Registry.find? name = some m) {p : Profile} {role : String}
    (hrole : roleOf p.role = .ok role) : ∃ cell, (e.userCell v p name).Gives (.ok cell) :=
  ((steady_userCell he v p name).answers (e.answers_userCell hf hm hrole)).imp fun _ h => h.1

end Engine

end Funnel
