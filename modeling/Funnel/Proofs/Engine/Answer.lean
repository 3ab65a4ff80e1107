import Funnel.Engine
import Funnel.Proofs.Plan.Form
import Funnel.Proofs.Result
import Funnel.Proofs.Store.Asks

/-!
# Every checked request is answered

Whatever the store answers and whatever goes wrong on the way, a checked request for a metric of the
registry has a response: a sound result of the breakdown that was decided on, with a name for
everyone in it.
-/

set_option autoImplicit false

namespace Funnel

theorem Registry.breakdown_of_workTimeframe {name : String} {m : Metric} (h : find? name = some m)
    (hwork : m.formula = some .workTimeframe) : m.breakdown = .total := by
  have hspecial : ∀ m ∈ specialMetrics, m.formula = some .workTimeframe →
      m.breakdown = .total := by decide
  exact hspecial m (special_of_formula h hwork) hwork

theorem exists_selectStrategy {m : Metric} {t : Table} (ht : m.tableSpec = .ok t) (o : Options) :
    ∃ s b, selectStrategy m o = .ok (s, b) := by
  unfold selectStrategy
  split
  · exact ⟨_, _, rfl⟩
  · split
    · exact ⟨_, _, rfl⟩
    · unfold plainBreakdown
      split
      · exact ⟨_, _, rfl⟩
      · split
        · exact ⟨_, _, rfl⟩
        · rw [ht]
          exact ⟨_, _, rfl⟩

theorem breakdown_of_timeSeries {m : Metric} {o : Options} {b : Breakdown}
    (h : selectStrategy m o = .ok (.timeSeries, b)) : b = .time := by
  unfold selectStrategy at h
  split at h
  · cases h
  · split at h
    · cases h
      rfl
    · obtain ⟨_, -, h⟩ := Fault.bind_eq_ok_iff.mp h
      cases h

/-- Metrics over work days are broken down by time, by setters or not at all. -/
theorem breakdown_of_special {m : Metric} {o : Options} {b : Breakdown}
    (hm : m.breakdown = .total) (h : selectStrategy m o = .ok (.special, b)) :
    b = .time ∨ b = .setter ∨ b = .total := by
  unfold selectStrategy at h
  split at h
  · cases h
    unfold specialBreakdown
    split
    · exact .inl rfl
    · split
      · exact .inr (.inr rfl)
      · split
        · exact .inr (.inl rfl)
        · exact .inr (.inr hm)
  · split at h
    · cases h
    · obtain ⟨_, -, h⟩ := Fault.bind_eq_ok_iff.mp h
      cases h

namespace Engine

def Fits (b : Breakdown) (gap : Bool) (r : Result) : Prop := r.breakdown = b ∧ r.Sound gap

theorem yields_shape (b : Breakdown) (rows : Value) (series : Option (List Calendar.Date))
    (gap : Bool) : (Session.ofExcept (Result.shape b rows series gap)).Yields (Fits b gap) :=
  Session.yields_ofExcept fun _ => Result.sound_shape

theorem Fits.of_false {b : Breakdown} {r : Result} (h : Fits b false r) (gap : Bool) :
    Fits b gap r := ⟨h.1, h.2.of_false gap⟩

theorem yields_shape_of_false (b : Breakdown) (rows : Value)
    (series : Option (List Calendar.Date)) (gap : Bool) :
    (Session.ofExcept (Result.shape b rows series false)).Yields (Fits b gap) :=
  Session.yields_ofExcept fun _ h => Fits.of_false (Result.sound_shape h) gap

theorem yields_runGeneric (e : Engine) (m : Metric) (f : Filters) (b : Breakdown) (gap : Bool) :
    (e.runGeneric m f b).Yields (Fits b gap) :=
  Session.yields_bind_last fun _ => Session.yields_bind_last fun rows =>
    yields_shape_of_false b rows none gap

theorem yields_runChart (e : Engine) (m : Metric) (f : Filters) :
    (e.runChart m f).Yields (Fits .time m.gapWhenEmpty) :=
  Session.yields_bind_last fun (_, series) => Session.yields_bind_last fun rows =>
    yields_shape .time rows (some series) m.gapWhenEmpty

theorem yields_runFormulaChart (e : Engine) (m : Metric) (f : Filters) (settings : Fields) :
    (e.runFormulaChart m f settings).Yields (Fits .time m.gapWhenEmpty) :=
  Session.yields_bind_last fun _ => Session.yields_bind_last fun _ => yields_shape .time _ _ _

theorem yields_runFormula (e : Engine) (m : Metric) (f : Filters) (settings : Fields)
    (b : Breakdown) : (e.runFormula m f settings b).Yields (Fits b m.gapWhenEmpty) :=
  Session.yields_bind_last fun _ => Session.yields_bind_last fun _ => yields_shape b _ _ _

theorem fits_workResult {m : Metric} {f : Filters} {b : Breakdown} {days : List Work.WorkDay}
    {r : Result} (hb : b = .time ∨ b = .setter ∨ b = .total) (gap : Bool)
    (h : workResult m f b days = .ok r) : Fits b gap r := by
  rcases hb with rfl | rfl | rfl
  · obtain ⟨ws, -, h⟩ := Fault.bind_eq_ok_iff.mp h
    exact Fits.of_false (Result.sound_shape h) gap
  · exact Fits.of_false (@Result.sound_shape .setter _ none false r h) gap
  · exact Fits.of_false (@Result.sound_shape .total _ none false r h) gap

/-- Every strategy gives sound results of the breakdown that was decided on. -/
theorem yields_run (e : Engine) {m : Metric} {o : Options} {s : Strategy} {b : Breakdown}
    (hwork : m.formula = some .workTimeframe → m.breakdown = .total)
    (h : selectStrategy m o = .ok (s, b)) (f : Filters) :
    (e.run m f o s b).Yields (Fits b m.gapWhenEmpty) := by
  cases s with
  | generic => exact yields_runGeneric e m f b m.gapWhenEmpty
  | timeSeries =>
    rw [breakdown_of_timeSeries h]
    exact yields_runChart e m f
  | special =>
    rw [run]
    split
    · rename_i hformula
      have hb := breakdown_of_special (hwork hformula) h
      exact Session.yields_bind_last fun days =>
        Session.yields_ofExcept fun _ => fits_workResult hb m.gapWhenEmpty
    · split
      · rename_i htime
        rw [htime]
        exact yields_runFormulaChart e m f o.settings
      · exact yields_runFormula e m f o.settings b

/-- A lookup that ends leaves the result of nobody as it is, and puts names into any other. -/
theorem answers_fillNames_or (e : Engine)
    (hnames : ∀ ids, ∃ names, e.names.resolve ids = .ok names) (r : Result) :
    (e.fillNames r).Answers fun filled =>
      (r.userIds = [] ∧ filled = r) ∨ ∃ names, filled = r.withNames names := by
  unfold fillNames
  split
  · rename_i hnobody
    exact Session.answers_pure (.inl ⟨hnobody, rfl⟩)
  · split
    · exact Session.answers_pure (.inr ⟨[], rfl⟩)
    · obtain ⟨names, hresolve⟩ := hnames r.userIds
      refine Session.answers_bind (Q := fun _ => True) (fun t => ⟨_, _, rfl, trivial⟩) fun _ _ => ?_
      refine Session.answers_bind (Session.answers_ofExcept hresolve rfl) ?_
      rintro _ rfl
      exact Session.answers_pure (.inr ⟨names, rfl⟩)

/-- A lookup that ends leaves a sound result in which everyone has a name. -/
theorem answers_fillNames (e : Engine) (hnames : ∀ ids, ∃ names, e.names.resolve ids = .ok names)
    {b : Breakdown} {gap : Bool} {r : Result} (h : Fits b gap r) :
    (e.fillNames r).Answers fun r => Fits b gap r ∧ r.Displayed := by
  refine (answers_fillNames_or e hnames r).mono ?_
  rintro _ (⟨hnobody, rfl⟩ | ⟨names, rfl⟩)
  · exact ⟨h, Result.displayed_of_userIds_eq_nil hnobody⟩
  · refine ⟨⟨?_, h.2.withNames names⟩, h.2.displayed names⟩
    rw [Result.breakdown_withNames]
    exact h.1

/-- Every checked request for a metric of the registry is answered, whatever its options are and
whatever the store does, as long as looking up names ends with some names. The response has the
strategy and the breakdown that were decided on, its result is of that breakdown with nothing but
finite numbers and, in charts that may have them, gaps, and everyone in it has an identifier and a
name. -/
theorem execute_answers (e : Engine) (hnames : ∀ ids, ∃ names, e.names.resolve ids = .ok names)
    {r : Request} {m : Metric} (hf : r.filters.reasons = [])
    (hm : Registry.find? r.metricName = some m) (o : Option Options) :
    (e.execute r o).Answers fun response =>
      response.metricName = r.metricName ∧ response.filters = r.filters ∧
      selectStrategy m ((o.or r.options).getD .none) =
        .ok (response.strategy, response.breakdown) ∧
      response.result.breakdown = response.breakdown ∧ response.result.Sound m.gapWhenEmpty ∧
      response.result.Displayed := by
  obtain ⟨t, ht⟩ := Registry.exists_table hm
  obtain ⟨s, b, hs⟩ := exists_selectStrategy ht ((o.or r.options).getD .none)
  have hreasons : r.reasons = [] := by
    rw [Request.reasons, hf, metricReasons, List.filter_cons_of_neg (by simp [hm])]
    rfl
  have hwork := Registry.breakdown_of_workTimeframe hm
  rw [execute, hreasons, hm]
  refine Session.answers_bind (Session.answers_ofExcept hs rfl) ?_
  rintro _ rfl
  refine Session.answers_bind (Session.answers_orElse (yields_run e hwork hs r.filters)
    ⟨Result.breakdown_empty b, Result.sound_empty _ b⟩) fun result hresult => ?_
  refine Session.answers_bind (answers_fillNames e hnames hresult) fun named hnamed => ?_
  exact Session.answers_pure ⟨rfl, rfl, hs, hnamed.1.1, hnamed.1.2, hnamed.2⟩

/-- A store that refuses every query, and a directory that knows one person. -/
theorem execute_answers_refused : ∃ m, Registry.find? "rep_roi" = some m ∧
    ∃ r : Request, r.metricName = "rep_roi" ∧ r.filters.reasons = [] ∧ ∃ e : Engine,
      (∀ ids, ∃ names, e.names.resolve ids = .ok names) ∧
      (e.execute r none).Answers fun response =>
        selectStrategy m .none = .ok (response.strategy, response.breakdown) ∧
        response.result.breakdown = response.breakdown := by
  let f := Filters.between "north" "2024-01-01" "2024-01-31" [] []
  let r : Request := ⟨"rep_roi", f, none⟩
  let e : Engine := ⟨⟨fun _ _ => .error (.queryFailed "refused")⟩,
    .directory [("11111111-2222-3333-4444-555555555555", "Ann")], fun _ => none, 10, fun _ => 0⟩
  have hkey : Registry.specialMetrics[1].key = "rep_roi" := rfl
  have hmem : Registry.specialMetrics[1] ∈ Registry.specialMetrics := List.getElem_mem _
  have hm := Registry.find?_special hmem
  rw [hkey] at hm
  have hf : r.filters.reasons = [] := by decide
  have hnames : ∀ ids, ∃ names, e.names.resolve ids = .ok names := fun _ => ⟨_, rfl⟩
  refine ⟨_, hm, r, rfl, hf, e, hnames, fun t => ?_⟩
  obtain ⟨response, u, hrun, -, -, hs, hb, -⟩ := execute_answers e hnames hf hm none t
  exact ⟨response, u, hrun, hs, hb⟩

end Engine

end Funnel
