import Funnel.Proofs.Engine.Answer
import Funnel.Proofs.Engine.Pointwise
import Funnel.Proofs.Plan.Nothing
import Funnel.Proofs.Work.Callers

/-!
# Charts of a store without rows

A metric says whether an empty bucket of its chart is a gap or a zero. Plain metrics and metrics
over work days show what theirs says. A formula shows it unless it has a figure of its own where
there is nothing, and four ratios that ask for gaps have one: they are zero.
-/

set_option autoImplicit false

namespace Funnel

open Calendar Session

/-- No query has rows. Whom the store lists as callers is left open where a metric is counted over
their days. -/
def Store.HasNothing (s : Store) (m : Metric) : Prop :=
  ∀ earlier c, (m.formula = some .workTimeframe → c.query.source ≠ "account_access") →
    s.answer earlier c = .ok (.list [])

/-- No query has rows but for those about access to accounts, where callers are listed. -/
def Store.HasOnlyAccess (s : Store) : Prop :=
  ∀ earlier c, c.query.source ≠ "account_access" → s.answer earlier c = .ok (.list [])

/-- The callers that the store lists can be read, whenever it is asked. -/
def Store.ListsCallers (s : Store) (f : Filters) : Prop :=
  ∀ earlier, ∃ rows callers, s.answer earlier (Work.callersCall f) = .ok rows ∧
    Work.callersOfRows rows = .ok callers

/-- Whether the metric is a ratio that is zero where there is nothing to divide. -/
def Metric.isZeroedRatio (m : Metric) : Bool :=
  m.formula.any fun fm => Formula.zeroedRatios.contains fm

/-- What the chart of a metric shows where there are no rows. -/
def Metric.figureOfNothing (m : Metric) : Option Float :=
  if m.isZeroedRatio then some 0.0 else Result.missing m.gapWhenEmpty

/-- A chart that shows the same in every bucket of a range. -/
def Result.ShowsEverywhere (f : Filters) (x : Option Float) (r : Result) : Prop :=
  ∃ ws, Engine.windows f = .ok ws ∧ r = .time (ws.map fun w => ⟨w.bucket.iso, x⟩)

/-- A chart that shows one thing only, and a row for each window of a range if it is whole. -/
def Result.ShowsOnly (f : Filters) (x : Option Float) (whole : Prop) (r : Result) : Prop :=
  ∃ rows, r = .time rows ∧ (∀ row ∈ rows, row.value = x) ∧ (whole → ∃ ws,
    Engine.windows f = .ok ws ∧ rows.map (·.date) = ws.map fun w => w.bucket.iso)

variable {m : Metric} {f : Filters} {start finish : Date}

theorem Result.ShowsEverywhere.showsOnly {x : Option Float} {r : Result}
    (h : r.ShowsEverywhere f x) (whole : Prop) : r.ShowsOnly f x whole := by
  obtain ⟨ws, hws, rfl⟩ := h
  refine ⟨_, rfl, List.forall_mem_map.mpr fun _ _ => rfl, fun _ => ⟨ws, hws, ?_⟩⟩
  rw [List.map_map]
  rfl

theorem Result.showsOnly_nil {x : Option Float} {whole : Prop} (h : ¬whole) :
    (Result.time []).ShowsOnly f x whole :=
  ⟨[], rfl, nofun, fun hwhole => absurd hwhole h⟩

theorem Store.HasNothing.answer {s : Store} (h : s.HasNothing m)
    (hwork : m.formula ≠ some .workTimeframe) (earlier : List Call) (c : Call) :
    s.answer earlier c = .ok (.list []) :=
  h earlier c fun hm => absurd hm hwork

theorem Store.HasNothing.onlyAccess {s : Store} (h : s.HasNothing m) : s.HasOnlyAccess :=
  fun earlier c hother => h earlier c fun _ => hother

theorem Store.HasNothing.eq {s : Store} (h : s.HasNothing m)
    (hwork : m.formula ≠ some .workTimeframe) : s = .ofFunction fun _ _ => .ok (.list []) := by
  obtain ⟨answer⟩ := s
  exact congrArg Store.mk (funext fun earlier => funext fun c => h.answer hwork earlier c)

namespace Work

variable {s : Store}

theorem source_zoneCall (f : Filters) : (zoneCall f).query.source ≠ "account_access" := by
  change "accounts" ≠ "account_access"
  decide

theorem source_of_dialsCall {callers : List String} {c : Call} (h : dialsCall f callers = .ok c) :
    c.query.source ≠ "account_access" := by
  obtain ⟨_, _, -, rfl⟩ := of_dialsCall h
  change "dials" ≠ "account_access"
  decide

theorem group_nil (z : Zone) : group [] z = .ok [] :=
  congrArg Except.ok (List.mergeSort_nil (r := comesBefore))

theorem gives_daysOf_nothing (hs : s.HasOnlyAccess) (hdays : f.days = .ok (start, finish))
    (known : Zones) (callers : List String) : (daysOf known s f callers).Gives (.ok []) := by
  have hcall := dialsCall_eq hdays callers
  have hzoneRows := fun earlier => hs earlier _ (source_zoneCall f)
  have hrows := fun earlier => hs earlier _ (source_of_dialsCall hcall)
  refine gives_bind_ok (gives_ask_of_answer hzoneRows) ?_
  refine gives_bind_ok (a := .text "UTC") (gives_ofExcept _) ?_
  refine gives_bind_ok (gives_ofExcept_of_eq hcall) ?_
  refine gives_bind_ok (gives_ask_of_answer hrows) ?_
  exact gives_ofExcept_of_eq (group_nil (Zone.named known "UTC"))

theorem yields_derive_nothing (hs : s.HasOnlyAccess) (hdays : f.days = .ok (start, finish))
    (known : Zones) : (derive known s f).Yields (· = []) := by
  rw [derive_eq]
  refine yields_bind_last fun callers => ?_
  split
  · exact yields_pure rfl
  · exact (gives_daysOf_nothing hs hdays known callers).yields

theorem answers_derive_nothing (hs : s.HasOnlyAccess) (hdays : f.days = .ok (start, finish))
    (hlist : s.ListsCallers f) (known : Zones) : (derive known s f).Answers (· = []) := by
  have hfind : (findCallers s f).Answers fun _ => True := by
    unfold findCallers
    split
    · intro t
      obtain ⟨rows, callers, hrows, hcallers⟩ := hlist t.calls
      refine ⟨callers, { t with calls := t.calls ++ [callersCall f] }, ?_, trivial⟩
      rw [run_bind, run_ask, hrows]
      exact congrArg (·, _) hcallers
    · exact answers_pure trivial
  rw [derive_eq]
  refine answers_bind hfind fun callers _ => ?_
  split
  · exact answers_pure rfl
  · exact (gives_daysOf_nothing hs hdays known callers).answers

theorem figure_nothing (first last : Date) (key : String) :
    (between [] first last).figure key = 0.0 := by
  have hnone : between [] first last = .zero := rfl
  have hperHour : ∀ count, Totals.zero.perHour count = 0.0 := fun _ => rfl
  have hrounded : Totals.zero.roundedHours = 0.0 := by decide +kernel
  rw [hnone, Totals.figure]
  split
  · exact hperHour _
  · split
    · exact hperHour _
    · exact hrounded

end Work

theorem Result.shape_nothing (series : List Date) (gap : Bool) :
    shape .time (.list []) (some series) gap =
      .ok (.time (series.map fun d => ⟨d.iso, missing gap⟩)) := rfl

namespace Engine

variable {e : Engine} {ws : List BucketWindow} {settings : Fields}

theorem of_windows (hc : f.Checked start finish) (hws : windows f = .ok ws) :
    bucketSeries start finish (.select start finish) = .ok (ws.map (·.bucket)) ∧
      (ws.map (·.bucket)).Nodup := by
  rw [windows_eq hc.days] at hws
  obtain ⟨hseries, hnodup, -⟩ := of_bucketWindows hc.ordered hws
  exact ⟨hseries, hnodup⟩

theorem windows_ne_nil (hc : f.Checked start finish) (hws : windows f = .ok ws) : ws ≠ [] := by
  rintro rfl
  have hhead := (isSeries_of_bucketSeries hc.ordered (of_windows hc hws).1).head
  cases hhead

theorem exists_plan_chart {t : Table} (ht : m.tableSpec = .ok t) (hc : f.Checked start finish)
    (hws : windows f = .ok ws) : ∃ q, Plan.chart m f none = .ok (q, ws.map (·.bucket)) := by
  obtain ⟨hseries, -⟩ := of_windows hc hws
  have hfound := isSeries_of_bucketSeries hc.ordered hseries
  exact ⟨_, Plan.chart_eq (g := none) ht hc.days hseries hfound.head hfound.last⟩

theorem exists_windows_march :
    ∃ ws, windows (.between "north" "2024-03-04" "2024-03-10" [] []) = .ok ws := by
  let monday : Date := ⟨738949, by decide, by decide⟩
  let sunday : Date := ⟨738955, by decide, by decide⟩
  have hfirst : dateOfText? "2024-03-04" = some monday := by decide
  have hlast : dateOfText? "2024-03-10" = some sunday := by decide
  rw [windows_eq (Filters.days_of_texts rfl hfirst hlast)]
  exact exists_bucketWindows (by decide) (by decide)

/-- The chart of a plain metric, once its query is planned along the buckets of the windows. -/
theorem gives_runChart_nothing (hs : ∀ earlier c, e.store.answer earlier c = .ok (.list []))
    {q : BoundQuery} (h : Plan.chart m f none = .ok (q, ws.map (·.bucket))) :
    (e.runChart m f).Gives
      (.ok (.time (ws.map fun w => ⟨w.bucket.iso, Result.missing m.gapWhenEmpty⟩))) := by
  refine gives_bind_ok (gives_ofExcept_of_eq h) ?_
  refine gives_bind_ok (gives_ask_of_answer fun earlier => hs earlier q.toCall) ?_
  apply gives_ofExcept_of_eq
  rw [Result.shape_nothing, List.map_map]
  rfl

theorem yields_runChart_nothing (hs : ∀ earlier c, e.store.answer earlier c = .ok (.list []))
    (hc : f.Checked start finish) :
    (e.runChart m f).Yields (Result.ShowsEverywhere f (Result.missing m.gapWhenEmpty)) := by
  cases hchart : Plan.chart m f none with
  | error fault =>
    rw [runChart, hchart]
    exact yields_ofExcept_bind nofun
  | ok planned =>
    obtain ⟨q, series⟩ := planned
    obtain ⟨_, _, _, _, _, -, hdays, hseries, -, -⟩ := Plan.of_chart hchart
    obtain ⟨rfl, rfl⟩ := Prod.mk.inj (Except.ok.inj (hc.days.symm.trans hdays))
    obtain ⟨ws, hws, rfl, -⟩ := bucketWindows_of_bucketSeries hc.ordered hseries
    refine (gives_runChart_nothing hs hchart).yields.mono ?_
    rintro _ rfl
    exact ⟨ws, (windows_eq hc.days).trans hws, rfl⟩

theorem answers_runChart_nothing (hs : ∀ earlier c, e.store.answer earlier c = .ok (.list []))
    {t : Table} (ht : m.tableSpec = .ok t) (hc : f.Checked start finish)
    (hws : windows f = .ok ws) :
    (e.runChart m f).Answers (Result.ShowsEverywhere f (Result.missing m.gapWhenEmpty)) := by
  obtain ⟨q, hchart⟩ := exists_plan_chart ht hc hws
  refine (gives_runChart_nothing hs hchart).answers.mono ?_
  rintro _ rfl
  exact ⟨ws, hws, rfl⟩

/-- A formula without rows shows its own figure in every bucket, and a gap or a zero where it has
none. -/
theorem gives_runFormulaChart_nothing {fm : Formula} (hfm : m.formula = some fm)
    (hwork : fm ≠ .workTimeframe) (he : e.store = .ofFunction fun _ _ => .ok (.list []))
    (hc : f.Checked start finish) (hws : windows f = .ok ws) :
    (e.runFormulaChart m f settings).Gives (.ok (.time (ws.map fun w =>
      ⟨w.bucket.iso, fm.figureOfNothing.or (Result.missing m.gapWhenEmpty)⟩))) := by
  have hfigures : ∀ w, ∃ plan, Evaluates e.zones (fun _ _ => .ok (.list [])) m f settings w plan
      fm.figureOfNothing := by
    intro w
    obtain ⟨plan, hplan, -⟩ := Plan.exact_of_formula hfm hwork (days_narrowed f w.start w.finish)
      settings .total
    refine ⟨plan, evaluates_of_rows hplan ?_⟩
    rw [Plan.rows_nothing, Plan.combine_nothing hfm hplan]
  have hfinite : fm.figureOfNothing.bind Value.finite? = fm.figureOfNothing := by
    cases fm <;> rfl
  have hchart := gives_runFormulaChart he hws (of_windows hc hws).2 fun w _ =>
    let ⟨plan, hplan⟩ := hfigures w
    ⟨plan, _, hplan⟩
  have hrows : ∀ w,
      figure e.zones (fun _ _ => .ok (.list [])) m f settings w = fm.figureOfNothing := by
    intro w
    obtain ⟨plan, hplan⟩ := hfigures w
    rw [hplan.figure, hfinite]
  simpa only [hrows] using hchart

theorem yields_runFormulaChart_nothing {fm : Formula} (hfm : m.formula = some fm)
    (hwork : fm ≠ .workTimeframe) (he : e.store = .ofFunction fun _ _ => .ok (.list []))
    (hc : f.Checked start finish) : (e.runFormulaChart m f settings).Yields
      (Result.ShowsEverywhere f (fm.figureOfNothing.or (Result.missing m.gapWhenEmpty))) := by
  cases hws : windows f with
  | error fault =>
    rw [runFormulaChart, hws]
    exact yields_ofExcept_bind nofun
  | ok ws =>
    refine (gives_runFormulaChart_nothing hfm hwork he hc hws).yields.mono ?_
    rintro _ rfl
    exact ⟨ws, hws, rfl⟩

/-- Without work days a metric over them is zero in every bucket. -/
theorem workResult_nothing (hc : f.Checked start finish) (hws : windows f = .ok ws) :
    workResult m f .time [] = .ok (.time (ws.map fun w => ⟨w.bucket.iso, some 0.0⟩)) := by
  have hfinite : ∀ w ∈ ws, (some (0.0 : Float)).bind Value.finite? = some 0.0 := fun _ _ => rfl
  have hrows : ws.map (fun w =>
      chartRow w.bucket (.double ((Work.between [] w.start w.finish).figure m.key))) =
      ws.map fun w => chartRow w.bucket (optional (some 0.0)) := by
    simp only [Work.figure_nothing, optional]
  refine Fault.bind_eq_ok_iff.mpr ⟨ws, hws, ?_⟩
  rw [hrows]
  exact shape_chartRows (of_windows hc hws).2 hfinite false

theorem yields_runWork_nothing (hs : e.store.HasOnlyAccess) (hc : f.Checked start finish) :
    (e.runWork m f .time).Yields (Result.ShowsEverywhere f (some 0.0)) := by
  refine yields_bind (Work.yields_derive_nothing hs hc.days _) ?_
  rintro _ rfl
  refine yields_ofExcept fun r hr => ?_
  obtain ⟨ws, hws, -⟩ := Fault.bind_eq_ok_iff.mp hr
  rw [workResult_nothing hc hws] at hr
  cases hr
  exact ⟨ws, hws, rfl⟩

theorem answers_runWork_nothing (hs : e.store.HasOnlyAccess) (hc : f.Checked start finish)
    (hlist : e.store.ListsCallers f) (hws : windows f = .ok ws) :
    (e.runWork m f .time).Answers (Result.ShowsEverywhere f (some 0.0)) := by
  refine answers_bind (Work.answers_derive_nothing hs hc.days hlist _) ?_
  rintro _ rfl
  exact answers_ofExcept (workResult_nothing hc hws) ⟨ws, hws, rfl⟩

end Engine

namespace Registry

theorem zeroedRatios_ask_for_gaps {name : String} (hm : find? name = some m)
    (hzeroed : m.isZeroedRatio = true) : m.gapWhenEmpty = true := by
  have hspecial : ∀ m ∈ specialMetrics, m.isZeroedRatio = true → m.gapWhenEmpty = true := by
    decide
  obtain ⟨fm, hfm, -⟩ := (Option.any_eq_true _ _).mp hzeroed
  exact hspecial m (special_of_formula hm hfm) hzeroed

/-- Only zeroed ratios have a figure where their charts should have gaps. -/
theorem figureOfNothing_of_formula {name : String} (hm : find? name = some m) {fm : Formula}
    (hfm : m.formula = some fm) :
    fm.figureOfNothing.or (Result.missing m.gapWhenEmpty) = m.figureOfNothing := by
  have hspecial : ∀ m ∈ specialMetrics, ∀ fm ∈ m.formula,
      fm.figureOfNothing.or (Result.missing m.gapWhenEmpty) = m.figureOfNothing := by
    decide
  exact hspecial m (special_of_formula hm hfm) fm hfm

end Registry

theorem Metric.figureOfNothing_of_plain (h : m.formula = none) :
    m.figureOfNothing = Result.missing m.gapWhenEmpty := by
  rw [figureOfNothing, isZeroedRatio, h]
  rfl

theorem selectStrategy_chart {o : Options} (ho : o.wantsChart = true) :
    selectStrategy m o = .ok (if m.isSpecial then .special else .timeSeries, .time) := by
  unfold selectStrategy
  split
  · rw [specialBreakdown, if_pos ho]
  · rfl

namespace Engine

variable {e : Engine} {o : Options} {name : String} {ws : List BucketWindow}

def runAsChart (e : Engine) (m : Metric) (f : Filters) (o : Options) : Session Result :=
  e.run m f o (if m.isSpecial then .special else .timeSeries) .time

theorem runAsChart_plain (h : m.formula = none) : e.runAsChart m f o = e.runChart m f := by
  rw [runAsChart, Metric.isSpecial, h]
  rfl

theorem runAsChart_work (h : m.formula = some .workTimeframe) :
    e.runAsChart m f o = e.runWork m f .time := by
  rw [runAsChart, Metric.isSpecial, h]
  exact if_pos h

theorem ne_workTimeframe {fm : Formula} (hfm : m.formula = some fm) (hwork : fm ≠ .workTimeframe) :
    m.formula ≠ some .workTimeframe := by
  rw [hfm]
  exact fun h => hwork (Option.some.inj h)

theorem runAsChart_formula {fm : Formula} (h : m.formula = some fm) (hwork : fm ≠ .workTimeframe) :
    e.runAsChart m f o = e.runFormulaChart m f o.settings := by
  have hne := ne_workTimeframe h hwork
  rw [runAsChart, Metric.isSpecial, h]
  exact if_neg (h ▸ hne)

/-- What is shown when the store has no rows is the same in every bucket. -/
theorem yields_runAsChart_nothing (hm : Registry.find? name = some m)
    (hs : e.store.HasNothing m) (hc : f.Checked start finish) :
    (e.runAsChart m f o).Yields (Result.ShowsEverywhere f m.figureOfNothing) := by
  cases hfm : m.formula with
  | none =>
    rw [runAsChart_plain hfm, Metric.figureOfNothing_of_plain hfm]
    exact yields_runChart_nothing (hs.answer (by rw [hfm]; nofun)) hc
  | some fm =>
    rw [← Registry.figureOfNothing_of_formula hm hfm]
    by_cases hwork : fm = .workTimeframe
    · subst hwork
      rw [runAsChart_work hfm]
      exact yields_runWork_nothing hs.onlyAccess hc
    · rw [runAsChart_formula hfm hwork]
      exact yields_runFormulaChart_nothing hfm hwork (hs.eq (ne_workTimeframe hfm hwork)) hc

/-- Where the windows of the range are found, and callers that are needed can be read, the chart is
made. -/
theorem answers_runAsChart_nothing (hm : Registry.find? name = some m)
    (hs : e.store.HasNothing m) (hc : f.Checked start finish) (hws : windows f = .ok ws)
    (hlist : m.formula = some .workTimeframe → e.store.ListsCallers f) :
    (e.runAsChart m f o).Answers (Result.ShowsEverywhere f m.figureOfNothing) := by
  cases hfm : m.formula with
  | none =>
    obtain ⟨t, ht⟩ := Registry.exists_table hm
    rw [runAsChart_plain hfm, Metric.figureOfNothing_of_plain hfm]
    exact answers_runChart_nothing (hs.answer (by rw [hfm]; nofun)) ht hc hws
  | some fm =>
    rw [← Registry.figureOfNothing_of_formula hm hfm]
    by_cases hwork : fm = .workTimeframe
    · subst hwork
      rw [runAsChart_work hfm]
      exact answers_runWork_nothing hs.onlyAccess hc (hlist hfm) hws
    · rw [runAsChart_formula hfm hwork]
      refine (gives_runFormulaChart_nothing hfm hwork (hs.eq (ne_workTimeframe hfm hwork)) hc
        hws).answers.mono ?_
      rintro _ rfl
      exact ⟨ws, hws, rfl⟩

theorem answers_chart_nothing (hm : Registry.find? name = some m) (hs : e.store.HasNothing m)
    (hc : f.Checked start finish) : ((e.runAsChart m f o).orElse (.time [])).Answers
      (Result.ShowsOnly f m.figureOfNothing ((∃ ws, windows f = .ok ws) ∧
        (m.formula = some .workTimeframe → e.store.ListsCallers f))) := by
  by_cases hwhole : (∃ ws, windows f = .ok ws) ∧
      (m.formula = some .workTimeframe → e.store.ListsCallers f)
  · obtain ⟨⟨ws, hws⟩, hlist⟩ := hwhole
    exact ((answers_runAsChart_nothing hm hs hc hws hlist).mono fun _ h => h.showsOnly _).orElse _
  · exact answers_orElse ((yields_runAsChart_nothing hm hs hc).mono fun _ h => h.showsOnly _)
      (Result.showsOnly_nil hwhole)

theorem execute_chart {r : Request} (hm : Registry.find? r.metricName = some m)
    (hf : r.filters.reasons = []) (p : Option Options)
    (ho : ((p.or r.options).getD .none).wantsChart = true) :
    e.execute r p = (do
      let result ← (e.runAsChart m r.filters ((p.or r.options).getD .none)).orElse (.time [])
      let result ← e.fillNames result
      pure ⟨r.metricName, r.filters, result, .time,
        if m.isSpecial then .special else .timeSeries⟩) :=
  execute_eq hm hf (selectStrategy_chart ho)

end Engine

/-- Where nothing happened, a chart shows gaps or zeros as its metric asks, on every path alike, but
for four ratios of the registry, which ask for gaps and show zeros. For a store that answers every
query without rows, whomever it lists as callers, a checked request for the chart of a metric of the
registry is answered with a chart that shows nothing else. It has a row for each window of the range
if these are found, as long as callers that are needed can be read. -/
theorem empty_buckets_shown {e : Engine} {r : Request} {p : Option Options}
    (hm : Registry.find? r.metricName = some m) (hf : r.filters.reasons = [])
    (ho : ((p.or r.options).getD .none).wantsChart = true) (hs : e.store.HasNothing m) :
    (m.isZeroedRatio = true → m.gapWhenEmpty = true) ∧
      (e.execute r p).Answers fun response => response.result.ShowsOnly r.filters
        (if m.isZeroedRatio then some 0.0 else Result.missing m.gapWhenEmpty)
        ((∃ ws, Engine.windows r.filters = .ok ws) ∧
          (m.formula = some .workTimeframe → e.store.ListsCallers r.filters)) := by
  obtain ⟨start, finish, hc⟩ := Filters.checked_of_reasons hf
  refine ⟨Registry.zeroedRatios_ask_for_gaps hm, ?_⟩
  rw [Engine.execute_chart hm hf p ho]
  refine answers_bind (Engine.answers_chart_nothing hm hs hc) ?_
  rintro _ ⟨rows, rfl, hrows⟩
  have hfill : e.fillNames (.time rows) = pure (.time rows) := by
    rw [Engine.fillNames, Result.userIds_time]
  rw [hfill]
  exact answers_pure ⟨rows, rfl, hrows⟩

/-- The hours worked in a week, where the store lists one caller and has no other rows. -/
theorem empty_buckets_shown_hoursWorked : ∃ (e : Engine) (r : Request),
    r.metricName = "hours_worked" ∧ r.filters.reasons = [] ∧ (e.execute r none).Answers
      fun response => ∃ rows, response.result = .time rows ∧ rows ≠ [] ∧
        ∀ row ∈ rows, row.value = some 0.0 := by
  let caller := "11111111-2222-3333-4444-555555555555"
  let rows : Value := .list [.object [("user_id", .text caller)]]
  let store : Store := ⟨fun _ c =>
    if c.query.source = "account_access" then .ok rows else .ok (.list [])⟩
  let e : Engine := ⟨store, .nowhere, fun _ => none, 10, fun _ => 0⟩
  let f := Filters.between "north" "2024-03-04" "2024-03-10" [] []
  let r : Request := ⟨"hours_worked", f, some ⟨some "line", none, []⟩⟩
  have hkey : Registry.specialMetrics[16].key = "hours_worked" := rfl
  have hmem : Registry.specialMetrics[16] ∈ Registry.specialMetrics := List.getElem_mem _
  have hm := Registry.find?_special hmem
  rw [hkey] at hm
  have hf : r.filters.reasons = [] := by decide
  have hs : e.store.HasNothing Registry.specialMetrics[16] :=
    fun _ c hother => if_neg (hother rfl)
  have hlist : e.store.ListsCallers f := fun _ =>
    ⟨rows, [caller], rfl, congrArg Except.ok (List.mergeSort_singleton caller)⟩
  obtain ⟨ws, hws⟩ := Engine.exists_windows_march
  obtain ⟨_, _, hc⟩ := Filters.checked_of_reasons hf
  obtain ⟨-, hshown⟩ := empty_buckets_shown (e := e) (r := r) (p := none) hm hf
    (by decide +kernel) hs
  refine ⟨e, r, rfl, hf, hshown.mono fun response => ?_⟩
  rintro ⟨shown, hresult, hvalues, hdates⟩
  obtain ⟨vs, hvs, hlabels⟩ := hdates ⟨⟨ws, hws⟩, fun _ => hlist⟩
  refine ⟨shown, hresult, ?_, hvalues⟩
  rintro rfl
  exact Engine.windows_ne_nil hc hvs (List.map_eq_nil_iff.mp hlabels.symm)

/-- The cash of each dial asks for gaps. Without rows its chart of a week shows none. -/
theorem gaps_lost_cashPerDial : ∃ (e : Engine) (m : Metric) (f : Filters) (rows : List TimeRow),
    Registry.find? "cash_per_dial" = some m ∧ m.gapWhenEmpty = true ∧ f.reasons = [] ∧
    (∀ earlier c, e.store.answer earlier c = .ok (.list [])) ∧
    (e.execute ⟨"cash_per_dial", f, some ⟨some "line", none, []⟩⟩ none).Gives
      (.ok ⟨"cash_per_dial", f, .time rows, .time, .special⟩) ∧
    rows ≠ [] ∧ ∀ row ∈ rows, row.value = some 0.0 := by
  let e : Engine := .plain fun _ _ => .ok (.list [])
  let f := Filters.between "north" "2024-03-04" "2024-03-10" [] []
  let o : Options := ⟨some "line", none, []⟩
  have hformula : Registry.specialMetrics[12].formula = some .cashPerDial := rfl
  have hf : f.reasons = [] := by decide
  have hs : selectStrategy Registry.specialMetrics[12] o = .ok (.special, .time) :=
    selectStrategy_chart (by decide +kernel)
  obtain ⟨_, _, hc⟩ := Filters.checked_of_reasons hf
  obtain ⟨ws, hws⟩ := Engine.exists_windows_march
  have hrun := @Engine.gives_runFormulaChart_nothing _ f _ _ e ws o.settings _ hformula
    (by decide) rfl hc hws
  have hzero : ∀ row ∈ ws.map fun w => (⟨w.bucket.iso, some 0.0⟩ : TimeRow),
      row.value = some 0.0 := List.forall_mem_map.mpr fun _ _ => rfl
  refine ⟨e, _, f, _, Registry.find?_cashPerDial, rfl, hf, fun _ _ => rfl,
    Engine.gives_execute Registry.find?_cashPerDial hf hs hrun (Result.userIds_time _), ?_, hzero⟩
  exact fun hnil => Engine.windows_ne_nil hc hws (List.map_eq_nil_iff.mp hnil)

end Funnel
