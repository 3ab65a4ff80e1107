import Funnel.Proofs.Engine.Gaps
import Funnel.Proofs.Engine.Isolation
import Funnel.Proofs.Store.Between

/-!
# Charts cover their range

A chart has one row for each bucket of its range, in order and each once, whatever rows the store
gives. It is made in three ways: of rows that the store labelled, of a formula for each bucket, or
of work days. They meet where rows are laid along the series. None fails but where a call is
refused, or where what was answered can not be read or combined.
-/

set_option autoImplicit false

namespace Funnel

open Calendar Session

namespace Result

/-- A chart with a row for each bucket of a series, in order. -/
def Covers (series : List Date) (r : Result) : Prop :=
  ∃ rows, r = .time rows ∧ rows.map (·.date) = series.map Date.iso

def isOutside (series : List Date) (row : Value) : Bool :=
  match labelled? row with
  | .ok (some (label, _)) => !(series.map Date.iso).contains label
  | _ => false

variable {series : List Date} {gap : Bool} {r : Result}

theorem shape_time_eq_ok_iff {rows : Value} : shape .time rows (some series) gap = .ok r ↔
    ∃ items found, rowsOf rows = .ok items ∧ items.mapM labelled? = .ok found ∧
      r = .time (chart (byLabel (found.filterMap id)) (some series) gap) := by
  constructor
  · intro h
    obtain ⟨items, hitems, h⟩ := Fault.bind_eq_ok_iff.mp h
    obtain ⟨found, hfound, h⟩ := Fault.bind_eq_ok_iff.mp h
    cases h
    exact ⟨items, found, hitems, hfound, rfl⟩
  · rintro ⟨items, found, hitems, hfound, rfl⟩
    exact Fault.bind_eq_ok_iff.mpr ⟨items, hitems, Fault.bind_eq_ok_iff.mpr ⟨found, hfound, rfl⟩⟩

theorem covers_of_shape {rows : Value} (h : shape .time rows (some series) gap = .ok r) :
    r.Covers series := by
  obtain ⟨_, found, -, -, rfl⟩ := shape_time_eq_ok_iff.mp h
  refine ⟨_, rfl, ?_⟩
  rw [chart, List.map_map]
  rfl

theorem exists_shape {rows : List Value} (h : ∀ row ∈ rows, ∃ label, labelled? row = .ok label) :
    ∃ r, shape .time (.list rows) (some series) gap = .ok r := by
  obtain ⟨found, hfound⟩ := Fault.exists_mapM_eq_ok h
  exact ⟨_, shape_time_eq_ok_iff.mpr ⟨rows, found, Engine.rowsOf_list rows, hfound, rfl⟩⟩

theorem isOutside_of_labelled? {row : Value} {p : String × Option Float}
    (h : labelled? row = .ok (some p)) :
    (!isOutside series row) = (series.map Date.iso).contains p.1 := by
  rw [isOutside, h, Bool.not_not]

/-- Labels that no bucket has do not show. -/
theorem chart_filter (labels : List (String × Option Float)) :
    chart (byLabel (labels.filter fun p => (series.map Date.iso).contains p.1)) (some series) gap =
      chart (byLabel labels) (some series) gap := by
  refine List.map_congr_left fun d hd => ?_
  have hkeep : (series.map Date.iso).contains d.iso = true :=
    List.contains_iff_mem.mpr (List.mem_map_of_mem hd)
  have hfind : (byLabel (labels.filter fun p => (series.map Date.iso).contains p.1)).find? d.iso =
      (byLabel labels).find? d.iso :=
    Named.find?_putAll_filter hkeep rfl labels
  rw [hfind]

end Result

def Value.without (drop : Value → Bool) : Value → Value
  | .list rows => .list (rows.filter fun row => !drop row)
  | v => v

/-- The store without some of the rows that it answers with. -/
def Store.without (drop : Value → Bool) (s : Store) : Store :=
  ⟨fun earlier c => (s.answer earlier c).map (·.without drop)⟩

theorem Store.answer_without {s : Store} {earlier : List Call} {c : Call} {rows : Value}
    (h : s.answer earlier c = .ok rows) (drop : Value → Bool) :
    (s.without drop).answer earlier c = .ok (rows.without drop) :=
  congrArg (Except.map (Value.without drop)) h

/-- A chart is made of the rows that are labelled with its buckets. -/
theorem Result.shape_without_outside {series : List Date} {gap : Bool} {r : Result} {rows : Value}
    (h : shape .time rows (some series) gap = .ok r) :
    shape .time (rows.without (isOutside series)) (some series) gap = .ok r := by
  cases rows with
  | list rows =>
    obtain ⟨items, found, hitems, hfound, rfl⟩ := shape_time_eq_ok_iff.mp h
    obtain rfl : rows = items := Except.ok.inj ((Engine.rowsOf_list rows).symm.trans hitems)
    have hkeep : ∀ row p, labelled? row = .ok (some p) →
        (!isOutside series row) = (series.map Date.iso).contains p.1 :=
      fun _ _ => isOutside_of_labelled?
    obtain ⟨kept, hkept, hfilter⟩ := Fault.mapM_filter hkeep hfound
    refine shape_time_eq_ok_iff.mpr ⟨_, kept, Engine.rowsOf_list _, hkept, ?_⟩
    rw [hfilter, chart_filter]
  | null | bool | int | double | decimal | text | date | moment | object => exact h

namespace Engine

/-- What keeps the chart of a metric from being made, in the calls that its run adds to the first
ones: the store refuses a call, or what it answers can not be read or combined. -/
inductive ChartFault (e : Engine) (m : Metric) (f : Filters) (settings : Fields)
    (first last : List Call) : Prop
  | refused {c : Call} {fault : Fault} (h : e.store.Answered first last c (.error fault))
  | unreadable {q : BoundQuery} {series : List Date} {rows : Value} {fault : Fault}
      (hm : m.formula = none) (hplan : Plan.chart m f none = .ok (q, series))
      (hrows : e.store.Answered first last q.toCall (.ok rows))
      (hshape : Result.shape .time rows (some series) m.gapWhenEmpty = .error fault)
  | uncombined {w : BucketWindow} {plan : Plan.FormulaPlan} {answers : List Value} {fault : Fault}
      (hplan : Plan.formula m (narrowed f w.start w.finish) settings .total = .ok plan)
      (hanswers : List.Forall₂ (fun p v => e.store.Answered first last p.2.toCall (.ok v))
        plan.queries answers)
      (hcombine : plan.combine e.zones (fun name =>
        (Named.find? (plan.queries.names.zip answers) name).getD (.list [])) = .error fault)
  | callers {rows : Value} {fault : Fault} (hm : m.formula = some .workTimeframe)
      (hrows : e.store.Answered first last (Work.callersCall f) (.ok rows))
      (hread : Work.callersOfRows rows = .error fault)
  | zone {rows : Value} {fault : Fault} (hm : m.formula = some .workTimeframe)
      (hrows : e.store.Answered first last (Work.zoneCall f) (.ok rows))
      (hread : Work.zoneOfRows rows = .error fault)
  | dials {callers : List String} {c : Call} {zoneRows zone rows : Value} {fault : Fault}
      (hm : m.formula = some .workTimeframe)
      (hzoneRows : e.store.Answered first last (Work.zoneCall f) (.ok zoneRows))
      (hzone : Work.zoneOfRows zoneRows = .ok zone) (hcall : Work.dialsCall f callers = .ok c)
      (hrows : e.store.Answered first last c (.ok rows))
      (hread : (do
        let z ← Hours.zoneIn e.zones zone
        Work.group (← rows.entries) z) = .error fault)

variable {e : Engine} {m : Metric} {f : Filters} {settings : Fields} {first last : List Call}
  {start finish : Date} {ws : List BucketWindow} {P : Prop}

theorem answersUnless_runChart (hfm : m.formula = none) {t : Table} (ht : m.tableSpec = .ok t)
    (hc : f.Checked start finish) (hws : windows f = .ok ws) :
    (e.runChart m f).AnswersUnless first last (e.ChartFault m f settings first last)
      (Result.Covers (ws.map (·.bucket))) := by
  obtain ⟨q, hchart⟩ := exists_plan_chart ht hc hws
  refine answersUnless_ofExcept_bind hchart ?_
  refine answersUnless_bind (answersUnless_ask fun _ => .refused) (grows_ask _ _)
    (fun _ => grows_ofExcept _) fun rows hrows => ?_
  exact answersUnless_ofExcept (fun _ h => .unreadable hfm hchart hrows h)
    fun _ => Result.covers_of_shape

/-- The queries of a plan are all asked before their rows are combined. -/
theorem answersUnless_runPlan {plan : Plan.FormulaPlan}
    (hrefused : ∀ c fault, e.store.Answered first last c (.error fault) → P)
    (hcombine : ∀ answers fault, List.Forall₂ (fun p v =>
        e.store.Answered first last p.2.toCall (.ok v)) plan.queries answers →
      plan.combine e.zones (fun name =>
        (Named.find? (plan.queries.names.zip answers) name).getD (.list [])) = .error fault → P) :
    (e.runPlan plan).AnswersUnless first last P fun rows =>
      ∃ results, plan.combine e.zones results = .ok rows := by
  have hasked : ∀ p ∈ plan.queries, (ask e.store p.2.toCall).AnswersUnless first last P
      fun v => e.store.Answered first last p.2.toCall (.ok v) :=
    fun p _ => answersUnless_ask (hrefused _)
  have hgrows : ∀ p : String × BoundQuery, (ask e.store p.2.toCall).Grows :=
    fun p => grows_ask _ _
  have hgather : ∀ x ∈ plan.queries.map fun p => ask e.store p.2.toCall, x.Asks fun _ => True :=
    List.forall_mem_map.mpr fun p _ => (hgrows p).asks
  refine answersUnless_bind (answersUnless_gather hgrows hasked) (asks_gather hgather).grows
    (fun _ => grows_ofExcept _) fun answers hanswers => ?_
  exact answersUnless_ofExcept (fun fault => hcombine answers fault hanswers) fun _ h => ⟨_, h⟩

/-- A row that is labelled with the bucket of a window. -/
def IsRowOf (w : BucketWindow) (row : Value) : Prop := ∃ x, row = chartRow w.bucket (optional x)

theorem exists_labelled? {rows : List Value} (h : List.Forall₂ IsRowOf ws rows) :
    ∀ row ∈ rows, ∃ label, Result.labelled? row = .ok label := by
  induction h with
  | nil => exact nofun
  | @cons w row _ _ hrow _ ih =>
    obtain ⟨x, rfl⟩ := hrow
    rw [List.forall_mem_cons]
    exact ⟨⟨_, labelled?_chartRow w.bucket (Value.number?_optional x)⟩, ih⟩

theorem answersUnless_runBucket {fm : Formula} (hfm : m.formula = some fm)
    (hwork : fm ≠ .workTimeframe) (w : BucketWindow) :
    (e.runBucket m f settings w).AnswersUnless first last (e.ChartFault m f settings first last)
      (IsRowOf w) := by
  obtain ⟨plan, hplan, -⟩ := Plan.exact_of_formula hfm hwork (days_narrowed f w.start w.finish)
    settings .total
  have hrows : (e.runPlan plan).AnswersUnless first last (e.ChartFault m f settings first last)
      fun rows => ∃ results, plan.combine e.zones results = .ok rows :=
    answersUnless_runPlan (fun _ _ => .refused) fun _ _ => .uncombined hplan
  have hgrows : (e.runPlan plan).Grows :=
    (e.asks_runPlan (P := fun _ => True) fun _ _ => trivial).grows
  refine answersUnless_ofExcept_bind hplan ?_
  refine answersUnless_bind hrows hgrows
    (fun _ => grows_bind (grows_ofExcept _) fun _ => grows_pure _) ?_
  rintro rows ⟨results, hcombine⟩
  obtain ⟨x, rfl⟩ := Plan.isSingle_combine hplan _ results rows hcombine
  refine answersUnless_ofExcept_bind (firstNumber_valueRow x) ?_
  exact answersUnless_pure ⟨_, rfl⟩

theorem yields_runBucket (w : BucketWindow) :
    (e.runBucket m f settings w).Yields (IsRowOf w) := by
  refine yields_bind_last fun plan => ?_
  refine yields_bind_last fun rows => ?_
  refine yields_bind_last fun x => ?_
  exact yields_pure ⟨x, rfl⟩

theorem answersUnless_runFormulaChart {fm : Formula} (hfm : m.formula = some fm)
    (hwork : fm ≠ .workTimeframe) (hws : windows f = .ok ws) :
    (e.runFormulaChart m f settings).AnswersUnless first last
      (e.ChartFault m f settings first last) (Result.Covers (ws.map (·.bucket))) := by
  have hgrows : ∀ w, (e.runBucket m f settings w).Grows :=
    fun w => (e.asksFor_runBucket f settings w).grows
  have hbucket : ∀ w, (e.runBucket m f settings w).AnswersUnless first last
      (e.ChartFault m f settings first last) (IsRowOf w) := answersUnless_runBucket hfm hwork
  have hpool := Pool.answersUnless_run hgrows hbucket
    (fun w (_ : w ∈ ws) => yields_runBucket w) e.limit e.schedule
  refine answersUnless_ofExcept_bind hws ?_
  refine answersUnless_bind hpool (Pool.asks_run (fun w => (hgrows w).asks) _ _ _).grows
    (fun _ => grows_ofExcept _) fun rows hrows => ?_
  obtain ⟨r, hr⟩ := Result.exists_shape (exists_labelled? hrows)
  rw [hr]
  exact answersUnless_pure (Result.covers_of_shape hr)

theorem exists_workResult (hws : windows f = .ok ws) (days : List Work.WorkDay) :
    ∃ r, workResult m f .time days = .ok r ∧ r.Covers (ws.map (·.bucket)) := by
  have hlabelled : ∀ row ∈ ws.map fun w => chartRow w.bucket
      (.double ((Work.between days w.start w.finish).figure m.key)),
      ∃ label, Result.labelled? row = .ok label :=
    List.forall_mem_map.mpr fun w _ => ⟨_, labelled?_chartRow w.bucket rfl⟩
  obtain ⟨r, hr⟩ := Result.exists_shape hlabelled
  exact ⟨r, Fault.bind_eq_ok_iff.mpr ⟨ws, hws, hr⟩, Result.covers_of_shape hr⟩

theorem answersUnless_findCallers (hfm : m.formula = some .workTimeframe) :
    (Work.findCallers e.store f).AnswersUnless first last (e.ChartFault m f settings first last)
      fun _ => True := by
  unfold Work.findCallers
  split
  · refine answersUnless_bind (answersUnless_ask fun _ => .refused) (grows_ask _ _)
      (fun _ => grows_ofExcept _) fun rows hrows => ?_
    exact answersUnless_ofExcept (fun _ => .callers hfm hrows) fun _ _ => trivial
  · exact answersUnless_pure trivial

theorem answersUnless_daysOf (hfm : m.formula = some .workTimeframe)
    (hdays : f.days = .ok (start, finish)) (callers : List String) :
    (Work.daysOf e.zones e.store f callers).AnswersUnless first last
      (e.ChartFault m f settings first last) fun _ => True := by
  have hcall := Work.dialsCall_eq hdays callers
  refine answersUnless_bind (answersUnless_ask fun _ => .refused) (grows_ask _ _) ?_
    fun zoneRows hzoneRows => ?_
  · intro zoneRows
    refine grows_bind (grows_ofExcept _) fun zone => ?_
    refine grows_bind (grows_ofExcept _) fun call => ?_
    exact grows_bind (grows_ask _ _) fun rows => grows_ofExcept _
  refine answersUnless_bind (answersUnless_ofExcept (fun _ => .zone hfm hzoneRows) fun _ h => h)
    (grows_ofExcept _) ?_ fun zone hzone => ?_
  · intro zone
    refine grows_bind (grows_ofExcept _) fun call => ?_
    exact grows_bind (grows_ask _ _) fun rows => grows_ofExcept _
  refine answersUnless_ofExcept_bind hcall ?_
  refine answersUnless_bind (answersUnless_ask fun _ => .refused) (grows_ask _ _)
    (fun _ => grows_ofExcept _) fun rows hrows => ?_
  exact answersUnless_ofExcept (fun _ => .dials hfm hzoneRows hzone hcall hrows) fun _ _ => trivial

theorem answersUnless_runWork (hfm : m.formula = some .workTimeframe)
    (hdays : f.days = .ok (start, finish)) (hws : windows f = .ok ws) :
    (e.runWork m f .time).AnswersUnless first last (e.ChartFault m f settings first last)
      (Result.Covers (ws.map (·.bucket))) := by
  have hderive : (Work.derive e.zones e.store f).AnswersUnless first last
      (e.ChartFault m f settings first last) fun _ => True := by
    rw [Work.derive_eq]
    have hasked : (Work.findCallers e.store f).Asks (· = Work.callersCall f) :=
      Work.asks_findCallers (P := (· = Work.callersCall f)) rfl e.store
    refine answersUnless_bind (answersUnless_findCallers hfm) hasked.grows
      (fun callers => ?_) fun callers _ => ?_
    · split
      · exact grows_pure _
      · exact (Work.asks_daysOf e.zones e.store f callers).grows
    · split
      · exact answersUnless_pure trivial
      · exact answersUnless_daysOf hfm hdays callers
  refine answersUnless_bind hderive (Work.asksFor_derive e.zones e.store f).grows
    (fun _ => grows_ofExcept _) fun days _ => ?_
  obtain ⟨r, hr, hcovers⟩ := exists_workResult (m := m) hws days
  rw [hr]
  exact answersUnless_pure hcovers

end Engine

theorem Registry.breakdown_ne_time {name : String} {m : Metric} (h : find? name = some m) :
    m.breakdown ≠ .time := by
  have hbase : ∀ m ∈ baseMetrics, m.breakdown ≠ .time := by decide
  have hspecial : ∀ m ∈ specialMetrics, m.breakdown ≠ .time := by decide
  rcases variant_or_special h with ⟨base, hmem, hvariant⟩ | hmem
  · rw [hvariant.breakdown]
    exact hbase base hmem
  · exact hspecial m hmem

/-- A breakdown by time that the metric does not have is one that the options ask for. -/
theorem wantsChart_of_time {m : Metric} {o : Options} {s : Strategy} (hm : m.breakdown ≠ .time)
    (h : selectStrategy m o = .ok (s, .time)) : o.wantsChart = true := by
  cases hchart : o.wantsChart with
  | true => rfl
  | false =>
    have hbreakdown : o.breakdown ≠ some .time := by
      intro htime
      rw [Options.wantsChart, htime, Bool.or_eq_false_iff] at hchart
      cases hchart.2
    have hspecial : specialBreakdown m o ≠ .time := by
      rw [specialBreakdown, hchart, if_neg Bool.false_ne_true]
      split
      · intro h
        cases h
      · split
        · intro h
          cases h
        · exact hm
    have hplain : plainBreakdown m o ≠ .ok .time := by
      intro h
      unfold plainBreakdown at h
      split at h
      · exact hm (Except.ok.inj h)
      · rename_i b hb
        split at h
        · rename_i heq
          exact hm (heq ▸ Except.ok.inj h)
        · obtain ⟨t, -, h⟩ := Fault.bind_eq_ok_iff.mp h
          split at h
          · exact hbreakdown (Except.ok.inj h ▸ hb)
          · exact hm (Except.ok.inj h)
    unfold selectStrategy at h
    rw [hchart] at h
    split at h
    · exact absurd (Prod.mk.inj (Except.ok.inj h)).2 hspecial
    · obtain ⟨b, hb, h⟩ := Fault.bind_eq_ok_iff.mp h
      cases h
      exact absurd hb hplain

namespace Engine

variable {e : Engine} {m : Metric} {f : Filters} {o : Options} {first last : List Call}
  {start finish : Date} {ws : List BucketWindow} {name : String}

/-- On each of the three ways a chart is made that covers the range, unless there is a reason. -/
theorem answersUnless_runAsChart (hm : Registry.find? name = some m)
    (hc : f.Checked start finish) (hws : windows f = .ok ws) :
    (e.runAsChart m f o).AnswersUnless first last (e.ChartFault m f o.settings first last)
      (Result.Covers (ws.map (·.bucket))) := by
  cases hfm : m.formula with
  | none =>
    obtain ⟨t, ht⟩ := Registry.exists_table hm
    rw [runAsChart_plain hfm]
    exact answersUnless_runChart hfm ht hc hws
  | some fm =>
    by_cases hwork : fm = .workTimeframe
    · subst hwork
      rw [runAsChart_work hfm]
      exact answersUnless_runWork hfm hc.days hws
    · rw [runAsChart_formula hfm hwork]
      exact answersUnless_runFormulaChart hfm hwork hws

theorem run_execute_chart {r : Request} {p : Option Options} {t u : Trace} {rows : List TimeRow}
    (hm : Registry.find? r.metricName = some m) (hf : r.filters.reasons = [])
    (ho : ((p.or r.options).getD .none).wantsChart = true)
    (h : (e.runAsChart m r.filters ((p.or r.options).getD .none)).run t = (.ok (.time rows), u)) :
    (e.execute r p).run t = (.ok ⟨r.metricName, r.filters, .time rows, .time,
      if m.isSpecial then .special else .timeSeries⟩, u) := by
  have hfill : e.fillNames (.time rows) = pure (.time rows) := by
    rw [fillNames, Result.userIds_time]
  rw [execute_chart hm hf p ho, run_bind_of_ok (run_orElse_of_ok _ h), hfill]
  rfl

theorem prefix_calls_execute {r : Request} {p : Option Options}
    (hm : Registry.find? r.metricName = some m) (hf : r.filters.reasons = [])
    (ho : ((p.or r.options).getD .none).wantsChart = true) (t : Trace) :
    ((e.runAsChart m r.filters ((p.or r.options).getD .none)).run t).2.calls <+:
      ((e.execute r p).run t).2.calls := by
  rw [execute_chart hm hf p ho, ← calls_orElse _ (.time [])]
  refine prefix_calls_bind _ (fun result => ?_) t
  exact grows_bind (e.asks_fillNames (P := fun _ => True) result).grows fun _ => grows_pure _

/-- Without the rows that are labelled outside its series the chart is the same. -/
theorem run_runChart_without {q : BoundQuery} {series : List Date} {r : Result} {t u : Trace}
    (hplan : Plan.chart m f none = .ok (q, series)) (h : (e.runChart m f).run t = (.ok r, u)) :
    (Engine.runChart { e with store := e.store.without (Result.isOutside series) } m f).run t =
      (.ok r, u) := by
  rw [runChart, hplan, run_bind_of_ok (run_ofExcept _ t)] at h ⊢
  dsimp only at h ⊢
  rw [run_bind, run_ask] at h ⊢
  cases hanswer : e.store.answer t.calls q.toCall with
  | error fault =>
    rw [hanswer] at h
    cases h
  | ok rows =>
    rw [hanswer] at h
    rw [Store.answer_without hanswer]
    obtain ⟨hshape, hcalls⟩ := Prod.mk.inj h
    exact Prod.ext (Result.shape_without_outside hshape) hcalls

end Engine

/-- A chart covers its range on every path. Take a checked request whose breakdown is by time, where
the calendar holds the first day after its last bucket, and a run in which no call was refused and
all that was answered could be read and combined. It is answered with a chart whose dates are those
of the series of its range, in order and each once, whatever rows the store gave. Rows that are
labelled outside the series do not count: without them the rows make the same chart, and the chart
of a plain metric is answered in the same way by a store that leaves them out. -/
theorem chart_covers_range {e : Engine} {r : Request} {m : Metric} {p : Option Options}
    {s : Strategy} {start finish : Date} {t : Trace} (hm : Registry.find? r.metricName = some m)
    (hf : r.filters.reasons = [])
    (hs : selectStrategy m ((p.or r.options).getD .none) = .ok (s, .time))
    (hdays : r.filters.days = .ok (start, finish))
    (hend : bucketEnd finish (.select start finish) ≤ lastDay)
    (hfault : ¬ e.ChartFault m r.filters ((p.or r.options).getD .none).settings t.calls
      ((e.execute r p).run t).2.calls) :
    ∃ series response rows u, bucketSeries start finish (.select start finish) = .ok series ∧
      (e.execute r p).run t = (.ok response, u) ∧ response.result = .time rows ∧
      rows.map (·.date) = series.map Date.iso ∧ (rows.map (·.date)).Nodup ∧
      (∀ given gap chart, Result.shape .time given (some series) gap = .ok chart →
        Result.shape .time (given.without (Result.isOutside series)) (some series) gap =
          .ok chart) ∧
      (m.formula = none →
        (Engine.execute { e with store := e.store.without (Result.isOutside series) } r p).run t =
          (.ok response, u)) := by
  obtain ⟨_, _, hc⟩ := Filters.checked_of_reasons hf
  obtain ⟨rfl, rfl⟩ := Prod.mk.inj (Except.ok.inj (hc.days.symm.trans hdays))
  have ho := wantsChart_of_time (Registry.breakdown_ne_time hm) hs
  obtain ⟨ws, hws⟩ := exists_bucketWindows hc.ordered hend
  rw [← Engine.windows_eq hdays] at hws
  obtain ⟨hseries, hnodup⟩ := Engine.of_windows hc hws
  rcases Engine.answersUnless_runAsChart hm hc hws t (List.prefix_refl _)
    (Engine.prefix_calls_execute hm hf ho t) with hreason | ⟨result, hresult, rows, rfl, hdates⟩
  · exact absurd hreason hfault
  obtain ⟨u, hrun⟩ : ∃ u, (e.runAsChart m r.filters ((p.or r.options).getD .none)).run t =
      (.ok (.time rows), u) := ⟨_, Prod.ext hresult rfl⟩
  refine ⟨_, _, rows, u, hseries, Engine.run_execute_chart hm hf ho hrun, rfl, hdates, ?_,
    fun _ _ _ => Result.shape_without_outside, fun hplain => ?_⟩
  · rw [hdates, List.map_map]
    exact nodup_labels hnodup
  · obtain ⟨tab, htab⟩ := Registry.exists_table hm
    obtain ⟨q, hchart⟩ := Engine.exists_plan_chart htab hc hws
    refine Engine.run_execute_chart hm hf ho ?_
    rw [Engine.runAsChart_plain hplain] at hrun ⊢
    exact Engine.run_runChart_without hchart hrun

/-- A week of show-ups, where the store gives a day twice and one after the week. -/
theorem chart_covers_range_showUps : ∃ (e : Engine) (r : Request) (rows : List TimeRow)
    (response : Response) (u : Trace), r.metricName = "show_ups" ∧
    (e.execute r none).run .start = (.ok response, u) ∧ response.result = .time rows ∧
    rows.map (·.date) = ["2024-03-04", "2024-03-05", "2024-03-06", "2024-03-07", "2024-03-08",
      "2024-03-09", "2024-03-10"] := by
  let monday : Date := ⟨738949, by decide, by decide⟩
  let wednesday : Date := ⟨738951, by decide, by decide⟩
  let sunday : Date := ⟨738955, by decide, by decide⟩
  let after : Date := ⟨738956, by decide, by decide⟩
  let given := [wednesday, after, monday, wednesday].map fun d => Engine.chartRow d (.double 1.0)
  let e : Engine := .plain fun _ _ => .ok (.list given)
  let o : Options := ⟨some "line", none, []⟩
  let r : Request := ⟨"show_ups", .between "north" "2024-03-04" "2024-03-10" [] [], some o⟩
  have hplain : (Registry.find? "show_ups").map (·.formula) = some none := by decide +kernel
  obtain ⟨m, hm, hformula⟩ := Option.map_eq_some_iff.mp hplain
  have hf : r.filters.reasons = [] := by decide
  have hfirst : dateOfText? "2024-03-04" = some monday := by decide
  have hlast : dateOfText? "2024-03-10" = some sunday := by decide
  have hreadable : ∀ row ∈ given, ∃ label, Result.labelled? row = .ok label :=
    List.forall_mem_map.mpr fun d _ => ⟨_, Engine.labelled?_chartRow d rfl⟩
  have hfault : ¬ e.ChartFault m r.filters o.settings Trace.start.calls
      ((e.execute r none).run .start).2.calls := by
    intro h
    cases h with
    | refused h =>
      obtain ⟨_, -, -, h⟩ := h
      cases h
    | unreadable _ _ hrows hshape =>
      obtain ⟨_, -, -, h⟩ := hrows
      cases h
      obtain ⟨_, hmade⟩ := Result.exists_shape hreadable
      cases hmade.symm.trans hshape
    | uncombined hplan =>
      obtain ⟨_, _, _, hsome, -⟩ := Plan.of_formula hplan
      cases hformula.symm.trans hsome
    | callers hwork | zone hwork | dials hwork => cases hformula.symm.trans hwork
  obtain ⟨series, response, rows, u, hseries, hrun, hresult, hdates, -⟩ :=
    chart_covers_range (e := e) (r := r) (p := none) hm hf
      (selectStrategy_chart (by decide +kernel)) (Filters.days_of_texts rfl hfirst hlast)
      (by decide) hfault
  have hweek : ((bucketSeries monday sunday (.select monday sunday)).map fun series =>
      series.map Date.iso).toOption = some ["2024-03-04", "2024-03-05", "2024-03-06",
        "2024-03-07", "2024-03-08", "2024-03-09", "2024-03-10"] := by decide
  rw [hseries] at hweek
  exact ⟨e, r, rows, response, u, rfl, hrun, hresult, hdates.trans (Option.some.inj hweek)⟩

end Funnel
