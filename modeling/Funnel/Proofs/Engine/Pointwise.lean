import Funnel.Proofs.Calendar.Iso
import Funnel.Proofs.Engine.Steady
import Funnel.Proofs.Plan.Narrowing
import Funnel.Proofs.Plan.Speed
import Funnel.Proofs.Result
import Funnel.Proofs.Series.Partition

/-!
# Charts of formulas, bucket by bucket

The chart of a formula evaluates the formula once for each bucket. What it shows there is the figure
of a request of its own for the days of the bucket, except that a gap stands where such a request
has no figure and so answers zero.
-/

set_option autoImplicit false

namespace Funnel

open Calendar Session

namespace Plan

open Engine (optional)

/-- Rows that are made, if they are made, are a single one with a number or with none. -/
def IsSingle (rows : Except Fault Rows) : Prop :=
  ∀ made, rows = .ok made → ∃ x, made = valueRow (optional x)

theorem isSingle_double (x : Float) : IsSingle (.ok (doubleRow x)) := by
  rintro _ ⟨rfl⟩
  exact ⟨some x, rfl⟩

theorem isSingle_bind {α : Type} {x : Except Fault α} {k : α → Except Fault Rows}
    (hk : ∀ a, x = .ok a → IsSingle (k a)) : IsSingle (x >>= k) := by
  intro made h
  obtain ⟨a, ha, h⟩ := Fault.bind_eq_ok_iff.mp h
  exact hk a ha made h

theorem isSingle_scalar {rows : Value} {g : Float → Float} :
    IsSingle (do .ok (doubleRow (g (← scalarValue rows)))) :=
  isSingle_bind fun _ _ => isSingle_double _

/-- An average or a median of no numbers is no number. -/
theorem isSingle_apply (a : Aggregate) (xs : List Float) :
    IsSingle (do .ok (valueRow (← a.apply xs))) := by
  refine isSingle_bind fun v hv => ?_
  rcases apply_cases hv with ⟨-, rfl⟩ | ⟨-, x, rfl⟩
  · rintro _ ⟨rfl⟩
    exact ⟨none, rfl⟩
  · exact isSingle_double x

variable {m : Metric} {f : Filters} {settings : Fields} {plan : FormulaPlan}

theorem isSingle_repRoi (h : repRoiPlan m f settings .total = .ok plan) (known : Zones)
    (results : Results) : IsSingle (plan.combine known results) := by
  obtain ⟨stats, -, h⟩ := Fault.bind_eq_ok_iff.mp h
  obtain ⟨total, -, h⟩ := Fault.bind_eq_ok_iff.mp h
  obtain ⟨spend, -, h⟩ := Fault.bind_eq_ok_iff.mp h
  cases h
  refine isSingle_bind fun spend _ => isSingle_bind fun total _ => isSingle_bind fun rows _ =>
    isSingle_bind fun stats _ => ?_
  exact isSingle_double _

theorem isSingle_costPerBookedCall (h : costPerBookedCallPlan f .total = .ok plan)
    (known : Zones) (results : Results) : IsSingle (plan.combine known results) := by
  obtain ⟨total, -, h⟩ := Fault.bind_eq_ok_iff.mp h
  obtain ⟨spend, -, h⟩ := Fault.bind_eq_ok_iff.mp h
  obtain ⟨entities, -, h⟩ := Fault.bind_eq_ok_iff.mp h
  cases h
  exact isSingle_bind fun spend _ => isSingle_bind fun total _ => isSingle_double _

theorem isSingle_speedToLead (h : speedToLeadPlan f settings = .ok plan) (known : Zones)
    (results : Results) : IsSingle (plan.combine known results) := by
  obtain ⟨pairs, -, h⟩ := Fault.bind_eq_ok_iff.mp h
  cases h
  dsimp only
  split
  all_goals
    refine isSingle_bind fun account _ => isSingle_bind fun zone _ => isSingle_bind fun hours _ =>
      isSingle_bind fun windows _ => isSingle_bind fun rows _ => isSingle_bind fun seconds _ => ?_
    exact isSingle_apply _ _

theorem isSingle_bookingLeadTime (h : bookingLeadTimePlan f settings = .ok plan)
    (known : Zones) (results : Results) : IsSingle (plan.combine known results) := by
  obtain ⟨times, -, h⟩ := Fault.bind_eq_ok_iff.mp h
  cases h
  refine isSingle_bind fun rows _ => isSingle_bind fun days _ => ?_
  exact isSingle_apply _ _

/-- Without a breakdown every formula has one row with a number, or with none. -/
theorem isSingle_combine (h : formula m f settings .total = .ok plan) (known : Zones)
    (results : Results) : IsSingle (plan.combine known results) := by
  unfold formula at h
  split at h
  · cases h
  · cases h
  · obtain ⟨cash, -, h⟩ := Fault.bind_eq_ok_iff.mp h
    obtain ⟨spend, -, h⟩ := Fault.bind_eq_ok_iff.mp h
    cases h
    exact isSingle_bind fun cash _ => isSingle_bind fun spend _ => isSingle_double _
  · exact isSingle_repRoi h known results
  · exact isSingle_costPerBookedCall h known results
  · exact isSingle_speedToLead h known results
  · obtain ⟨conversion, -, h⟩ := Fault.bind_eq_ok_iff.mp h
    cases h
    exact isSingle_scalar
  · obtain ⟨completion, -, h⟩ := Fault.bind_eq_ok_iff.mp h
    cases h
    exact isSingle_scalar
  · obtain ⟨query, -, h⟩ := Fault.bind_eq_ok_iff.mp h
    cases h
    exact isSingle_scalar
  · obtain ⟨query, -, h⟩ := Fault.bind_eq_ok_iff.mp h
    cases h
    exact isSingle_scalar
  · obtain ⟨applied, -, h⟩ := Fault.bind_eq_ok_iff.mp h
    cases h
    exact isSingle_bind fun cash _ => isSingle_bind fun dials _ => isSingle_double _
  · exact isSingle_bookingLeadTime h known results

end Plan

theorem Value.bind_finite? (x : Option Float) :
    (x.bind finite?).bind finite? = x.bind finite? := by
  cases x with
  | none => rfl
  | some x =>
    cases hx : finite? x with
    | none => simp [hx]
    | some y =>
      have hy := isFinite_of_finite? hx
      rw [Option.bind_some, hx, Option.bind_some, finite?, if_pos hy]

theorem Value.number?_optional (x : Option Float) :
    (Engine.optional x).number? = .ok (x.bind finite?) := by
  cases x <;> rfl

namespace Engine

theorem firstNumber_valueRow (x : Option Float) :
    firstNumber (Plan.valueRow (optional x)) = .ok (x.bind Value.finite?) :=
  Value.number?_optional x

theorem shape_valueRow (x : Option Float) (gap : Bool) :
    Result.shape .total (.list (Plan.valueRow (optional x))) none gap =
      .ok (.total (Value.orZero (x.bind Value.finite?))) := by
  have hnumber : Result.numberOf (.object [("value", optional x)]) =
      .ok (Value.orZero (x.bind Value.finite?)) := by
    change ((optional x).number? >>= fun y => .ok (Value.orZero y)) = _
    rw [Value.number?_optional]
    rfl
  have htotal : Result.totalOf (.list (Plan.valueRow (optional x))) =
      Result.numberOf (.object [("value", optional x)]) := rfl
  rw [Result.shape, htotal, hnumber]
  rfl

theorem labelled?_chartRow (d : Date) {v : Value} {x : Option Float} (hv : v.number? = .ok x) :
    Result.labelled? (chartRow d v) = .ok (some (d.iso, x)) := by
  have hgiven : Value.isGiven (.text d.iso) = true := by
    simpa [Value.isGiven] using d.iso_ne_empty
  have hlabel : (chartRow d v).get "date" = .ok (.text d.iso) := rfl
  have hvalue : (chartRow d v).get "value" = .ok v := rfl
  refine Fault.bind_eq_ok_iff.mpr ⟨_, hlabel, ?_⟩
  rw [if_pos hgiven]
  refine Fault.bind_eq_ok_iff.mpr ⟨_, hvalue, ?_⟩
  refine Fault.bind_eq_ok_iff.mpr ⟨x, hv, ?_⟩
  rw [Value.toText, d.take_iso]

theorem rowsOf_list (rows : List Value) : Result.rowsOf (.list rows) = .ok rows := by
  cases rows <;> rfl

end Engine

theorem nodup_labels {ws : List BucketWindow} (h : (ws.map (·.bucket)).Nodup) :
    (ws.map fun w => w.bucket.iso).Nodup := by
  have hiso : ((ws.map (·.bucket)).map Date.iso).Nodup :=
    List.Pairwise.map Date.iso (fun a b hne h => hne (Date.iso_injective h)) h
  rwa [List.map_map] at hiso

theorem Result.chart_byLabel {ws : List BucketWindow} (hws : (ws.map (·.bucket)).Nodup)
    (value : BucketWindow → Option Float) (gap : Bool) :
    chart (byLabel (ws.map fun w => (w.bucket.iso, value w))) (some (ws.map (·.bucket))) gap =
      ws.map fun w => ⟨w.bucket.iso, (value w).or (missing gap)⟩ := by
  have hnames : (Named.names (ws.map fun w => (w.bucket.iso, value w))).Nodup := by
    rw [Named.names, List.map_map]
    exact nodup_labels hws
  simp only [chart, List.map_map]
  refine List.map_congr_left fun w hw => ?_
  have hfind : (byLabel (ws.map fun w => (w.bucket.iso, value w))).find? w.bucket.iso =
      some (value w) :=
    Named.find?_putAll_of_mem hnames (List.mem_map_of_mem hw)
  simp only [Function.comp_apply, hfind, Option.getD_some]

namespace Engine

variable {known : Zones} {answer : String → Fields → Except Fault Value} {e : Engine} {m : Metric}
  {f : Filters} {settings : Fields} {start finish : Date}

def figure? (known : Zones) (answer : String → Fields → Except Fault Value) (m : Metric)
    (f : Filters) (settings : Fields) (w : BucketWindow) : Except Fault (Option Float) := do
  let plan ← Plan.formula m (narrowed f w.start w.finish) settings .total
  firstNumber (← plan.rows known answer)

def figure (known : Zones) (answer : String → Fields → Except Fault Value) (m : Metric)
    (f : Filters) (settings : Fields) (w : BucketWindow) : Option Float :=
  match figure? known answer m f settings w with
  | .ok x => x
  | .error _ => none

/-- The plan of a window and the row that it ends with. -/
structure Evaluates (known : Zones) (answer : String → Fields → Except Fault Value) (m : Metric)
    (f : Filters) (settings : Fields) (w : BucketWindow) (plan : Plan.FormulaPlan)
    (x : Option Float) : Prop where
  planned : Plan.formula m (narrowed f w.start w.finish) settings .total = .ok plan
  rows : plan.rows known answer = .ok (Plan.valueRow (optional x))
  figure : figure known answer m f settings w = x.bind Value.finite?

theorem days_narrowed (f : Filters) (first last : Date) :
    (narrowed f first last).days = .ok (first, last) :=
  Filters.days_of_texts rfl (dateOfText?_iso first) (dateOfText?_iso last)

/-- Filters stay checked when their range is replaced by some of its days. -/
theorem reasons_narrowed (hf : f.reasons = []) {first last : Date} (hle : first ≤ last) :
    (narrowed f first last).reasons = [] := by
  have haccount : given f.accountId = true := by
    simp only [Filters.reasons, List.append_eq_nil_iff] at hf
    exact Filters.eq_nil_of_ite_eq_nil hf.1.2
  have hgiven : ∀ d : Date, given (some d.iso) = true := by
    intro d
    simp [given, d.iso_ne_empty]
  have hnot : ¬ last < first := Nat.not_lt.mpr hle
  simp only [narrowed, Filters.reasons, Filters.range, Option.getD_some, hgiven, haccount, if_true,
    Date.iso_ne_empty, or_self, if_false, Filters.rangeReasons, dateOfText?_iso, hnot,
    List.append_nil]

/-- The figure of a window is read off the single row of its plan. -/
theorem evaluates_of_rows {w : BucketWindow} {plan : Plan.FormulaPlan} {x : Option Float}
    (hplan : Plan.formula m (narrowed f w.start w.finish) settings .total = .ok plan)
    (hrows : plan.rows known answer = .ok (Plan.valueRow (optional x))) :
    Evaluates known answer m f settings w plan x := by
  have hfigure : figure? known answer m f settings w = .ok (x.bind Value.finite?) :=
    Fault.bind_eq_ok_iff.mpr ⟨plan, hplan,
      Fault.bind_eq_ok_iff.mpr ⟨_, hrows, firstNumber_valueRow x⟩⟩
  exact ⟨hplan, hrows, by rw [figure, hfigure]⟩

theorem exists_evaluates (hspecial : m.isSpecial = true) (hwork : m.formula ≠ some .workTimeframe)
    {w : BucketWindow}
    (hanswered : ∀ plan, Plan.formula m (narrowed f w.start w.finish) settings .total = .ok plan →
      ∃ rows, plan.rows known answer = .ok rows) :
    ∃ plan x, Evaluates known answer m f settings w plan x := by
  obtain ⟨fm, hfm⟩ := Option.isSome_iff_exists.mp hspecial
  have hne : fm ≠ .workTimeframe := fun h => hwork (h ▸ hfm)
  obtain ⟨plan, hplan, -⟩ := Plan.exact_of_formula hfm hne (days_narrowed f w.start w.finish)
    settings .total
  obtain ⟨rows, hrows⟩ := hanswered plan hplan
  obtain ⟨answers, -, hcombine⟩ := Fault.bind_eq_ok_iff.mp hrows
  obtain ⟨x, rfl⟩ := Plan.isSingle_combine hplan _ _ rows hcombine
  exact ⟨plan, x, evaluates_of_rows hplan hrows⟩

theorem gives_runBucket (he : e.store = .ofFunction answer) {w : BucketWindow}
    {plan : Plan.FormulaPlan} {x : Option Float}
    (h : Evaluates e.zones answer m f settings w plan x) :
    (e.runBucket m f settings w).Gives
      (.ok (chartRow w.bucket (optional (figure e.zones answer m f settings w)))) := by
  have hrows : (e.runPlan plan).Gives (.ok (Plan.valueRow (optional x))) :=
    h.rows ▸ gives_runPlan he plan
  refine gives_bind_ok (a := plan) (fun _ => h.planned) ?_
  refine gives_bind_ok hrows ?_
  refine gives_bind_ok (a := x.bind Value.finite?) (fun _ => firstNumber_valueRow x) ?_
  rw [h.figure]
  exact gives_pure _

theorem gives_runFormula (he : e.store = .ofFunction answer) {w : BucketWindow}
    {plan : Plan.FormulaPlan} {x : Option Float}
    (h : Evaluates e.zones answer m f settings w plan x) :
    (e.runFormula m (narrowed f w.start w.finish) settings .total).Gives
      (.ok (.total (Value.orZero (figure e.zones answer m f settings w)))) := by
  have hrows : (e.runPlan plan).Gives (.ok (Plan.valueRow (optional x))) :=
    h.rows ▸ gives_runPlan he plan
  refine gives_bind_ok (a := plan) (fun _ => h.planned) ?_
  refine gives_bind_ok hrows ?_
  rw [h.figure]
  exact fun _ => shape_valueRow x m.gapWhenEmpty

theorem mapM_labelled?_chartRow {ws : List BucketWindow} {value : BucketWindow → Option Float}
    (hvalue : ∀ w ∈ ws, (value w).bind Value.finite? = value w) :
    (ws.map fun w => chartRow w.bucket (optional (value w))).mapM Result.labelled? =
      .ok (ws.map fun w => some (w.bucket.iso, value w)) := by
  induction ws with
  | nil => rfl
  | cons w ws ih =>
    have hnumber : (optional (value w)).number? = .ok (value w) := by
      rw [Value.number?_optional, hvalue w List.mem_cons_self]
    rw [List.map_cons, List.mapM_cons, labelled?_chartRow _ hnumber,
      ih fun v hv => hvalue v (List.mem_cons_of_mem w hv)]
    rfl

theorem shape_chartRows {ws : List BucketWindow} (hws : (ws.map (·.bucket)).Nodup)
    {value : BucketWindow → Option Float}
    (hvalue : ∀ w ∈ ws, (value w).bind Value.finite? = value w) (gap : Bool) :
    Result.shape .time (.list (ws.map fun w => chartRow w.bucket (optional (value w))))
        (some (ws.map (·.bucket))) gap =
      .ok (.time (ws.map fun w => ⟨w.bucket.iso, (value w).or (Result.missing gap)⟩)) := by
  have hlabels : (ws.map fun w => some (w.bucket.iso, value w)).filterMap id =
      ws.map fun w => (w.bucket.iso, value w) := by
    simp [List.filterMap_map]
  refine Fault.bind_eq_ok_iff.mpr ⟨_, rowsOf_list _, ?_⟩
  refine Fault.bind_eq_ok_iff.mpr ⟨_, mapM_labelled?_chartRow hvalue, ?_⟩
  simp only [hlabels, Result.chart_byLabel hws]

theorem windows_eq (hdays : f.days = .ok (start, finish)) :
    windows f = bucketWindows start finish (.select start finish) := by
  rw [windows, hdays]
  rfl

/-- The chart of a formula shows the figures of its windows, whatever the limit is and in whatever
order the buckets are done. -/
theorem gives_runFormulaChart (he : e.store = .ofFunction answer) {ws : List BucketWindow}
    (hws : windows f = .ok ws) (hnodup : (ws.map (·.bucket)).Nodup)
    (h : ∀ w ∈ ws, ∃ plan x, Evaluates e.zones answer m f settings w plan x) :
    (e.runFormulaChart m f settings).Gives (.ok (.time (ws.map fun w => ⟨w.bucket.iso,
      (figure e.zones answer m f settings w).or (Result.missing m.gapWhenEmpty)⟩))) := by
  have hbuckets : ∀ w ∈ ws, (e.runBucket m f settings w).Gives
      (.ok (chartRow w.bucket (optional (figure e.zones answer m f settings w)))) := by
    intro w hw
    obtain ⟨plan, x, hplan⟩ := h w hw
    exact gives_runBucket he hplan
  have hfinite : ∀ w ∈ ws, (figure e.zones answer m f settings w).bind Value.finite? =
      figure e.zones answer m f settings w := by
    intro w hw
    obtain ⟨plan, x, hplan⟩ := h w hw
    rw [hplan.figure, Value.bind_finite?]
  refine gives_bind_ok (a := ws) (fun _ => hws) ?_
  refine gives_bind_ok (Pool.gives_run hbuckets e.limit e.schedule) ?_
  exact fun _ => shape_chartRows hnodup hfinite m.gapWhenEmpty

end Engine

/-- A gap stands for no amount, and a bucket without a figure may be shown as zero. -/
theorem Value.orZero_or_missing (x : Option Float) (gap : Bool) :
    orZero (x.or (Result.missing gap)) = orZero x := by
  cases x with
  | some x => rfl
  | none =>
    cases gap with
    | true => rfl
    | false => decide

/-- The chart of a formula is, bucket by bucket, what the formula gives without a breakdown. With a
store that answers by text and parameters alone, a checked request for the chart of a formula has a
row for each window of its range, under the first day of the bucket; and the request for the days of
that window alone, with the same settings and people, is answered with the amount of that row, which
is zero where the row is a gap. This holds for every limit of the engine and every order in which
the evaluations of buckets end, as long as the store answers the queries of every window and their
rows can be combined. -/
theorem chart_pointwise_total {answer : String → Fields → Except Fault Value} {e : Engine}
    (he : e.store = .ofFunction answer) {name : String} {m : Metric}
    (hm : Registry.find? name = some m) (hspecial : m.isSpecial = true)
    (hwork : m.formula ≠ some .workTimeframe) {f : Filters} (hf : f.reasons = [])
    {start finish : Date} (hdays : f.days = .ok (start, finish))
    (hend : bucketEnd finish (.select start finish) ≤ lastDay) {o p : Options}
    (ho : o.wantsChart = true) (hp : p.wantsChart = false) (htotal : p.breakdown = some .total)
    (hsettings : p.settings = o.settings)
    (hanswered : ∀ ws, bucketWindows start finish (.select start finish) = .ok ws → ∀ w ∈ ws,
      ∀ plan, Plan.formula m (Engine.narrowed f w.start w.finish) o.settings .total = .ok plan →
        ∃ rows, plan.rows e.zones answer = .ok rows) :
    ∃ ws, bucketWindows start finish (.select start finish) = .ok ws ∧
      ∃ row : BucketWindow → TimeRow,
        (e.execute ⟨name, f, some o⟩ none).Gives
          (.ok ⟨name, f, .time (ws.map row), .time, .special⟩) ∧
        ∀ w ∈ ws, (row w).date = w.bucket.iso ∧
          (e.execute ⟨name, Engine.narrowed f w.start w.finish, some p⟩ none).Gives
            (.ok ⟨name, Engine.narrowed f w.start w.finish, .total (Value.orZero (row w).value),
              .total, .special⟩) := by
  obtain ⟨_, _, hchecked⟩ := Filters.checked_of_reasons hf
  obtain ⟨rfl, rfl⟩ := Prod.mk.inj (Except.ok.inj (hdays.symm.trans hchecked.days))
  obtain ⟨ws, hws⟩ := exists_bucketWindows hchecked.ordered hend
  obtain ⟨-, hnodup, hparts⟩ := of_bucketWindows hchecked.ordered hws
  have hfigures : ∀ w ∈ ws, ∃ plan x, Engine.Evaluates e.zones answer m f o.settings w plan x :=
    fun w hw => Engine.exists_evaluates hspecial hwork (hanswered ws hws w hw)
  refine ⟨ws, hws, fun w => ⟨w.bucket.iso, (Engine.figure e.zones answer m f o.settings w).or
    (Result.missing m.gapWhenEmpty)⟩, ?_, fun w hw => ⟨rfl, ?_⟩⟩
  · have hs : selectStrategy m o = .ok (.special, .time) := by
      rw [selectStrategy, if_pos hspecial, specialBreakdown, if_pos ho]
    refine Engine.gives_execute hm hf hs ?_ (Result.userIds_time _)
    rw [Engine.run, if_neg hwork, if_pos rfl]
    exact Engine.gives_runFormulaChart he (by rw [Engine.windows_eq hdays, hws]) hnodup hfigures
  · have hs : selectStrategy m p = .ok (.special, .total) := by
      rw [selectStrategy, if_pos hspecial, specialBreakdown, hp, if_neg Bool.false_ne_true,
        if_pos htotal]
    have hnarrowed := Engine.reasons_narrowed hf (hparts.nonempty w hw)
    obtain ⟨plan, x, hplan⟩ := hfigures w hw
    refine Engine.gives_execute hm hnarrowed hs ?_ (Result.userIds_total _)
    rw [Engine.run, if_neg hwork, if_neg (by decide), hsettings, Value.orZero_or_missing]
    exact Engine.gives_runFormula he hplan

/-- The cash of each dial over three weeks, with a store that counts two in every query. -/
theorem chart_pointwise_total_cashPerDial : ∃ (e : Engine) (f : Filters) (o p : Options),
    f.reasons = [] ∧ o.wantsChart = true ∧ p.wantsChart = false ∧ ∃ ws : List BucketWindow,
      ∃ row : BucketWindow → TimeRow,
        (e.execute ⟨"cash_per_dial", f, some o⟩ none).Gives
          (.ok ⟨"cash_per_dial", f, .time (ws.map row), .time, .special⟩) ∧
        ∀ w ∈ ws,
          (e.execute ⟨"cash_per_dial", Engine.narrowed f w.start w.finish, some p⟩ none).Gives
            (.ok ⟨"cash_per_dial", Engine.narrowed f w.start w.finish,
              .total (Value.orZero (row w).value), .total, .special⟩) := by
  let answer : String → Fields → Except Fault Value :=
    fun _ _ => .ok (.list [.object [("value", .int 2)]])
  let e : Engine := .plain answer
  let f := Filters.between "north" "2024-01-29" "2024-02-20" [] []
  let start : Date := ⟨738914, by decide, by decide⟩
  let finish : Date := ⟨738936, by decide, by decide⟩
  let o : Options := ⟨some "line", none, []⟩
  let p : Options := ⟨some "kpi", some .total, []⟩
  obtain ⟨m, hm, hformula⟩ : ∃ m, Registry.find? "cash_per_dial" = some m ∧
      m.formula = some .cashPerDial := ⟨_, Registry.find?_cashPerDial, rfl⟩
  have hf : f.reasons = [] := by decide
  have hs : dateOfText? "2024-01-29" = some start := by decide
  have he : dateOfText? "2024-02-20" = some finish := by decide
  have hdays : f.days = .ok (start, finish) := by
    simp only [f, Filters.between, Filters.days, Filters.bounds, Option.bind_some, hs, he]
    rfl
  have hend : bucketEnd finish (.select start finish) ≤ lastDay := by decide
  have ho : o.wantsChart = true := by decide +kernel
  have hp : p.wantsChart = false := by decide +kernel
  have hanswered : ∀ ws, bucketWindows start finish (.select start finish) = .ok ws → ∀ w ∈ ws,
      ∀ plan, Plan.formula m (Engine.narrowed f w.start w.finish)
        o.settings .total = .ok plan → ∃ rows, plan.rows e.zones answer = .ok rows := by
    intro ws _ w _ plan hplan
    rw [Plan.formula, hformula] at hplan
    obtain ⟨applied, -, hplan⟩ := Fault.bind_eq_ok_iff.mp hplan
    cases hplan
    exact ⟨_, rfl⟩
  obtain ⟨ws, -, row, hchart, hrows⟩ := chart_pointwise_total (e := e) rfl hm
    (by rw [Metric.isSpecial, hformula]; rfl) (by rw [hformula]; decide) hf hdays
    hend ho hp rfl rfl hanswered
  exact ⟨e, f, o, p, hf, ho, hp, ws, row, hchart, fun w hw => (hrows w hw).2⟩

end Funnel
