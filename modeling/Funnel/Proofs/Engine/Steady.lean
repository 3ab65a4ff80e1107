import Funnel.Engine
import Funnel.Proofs.Pool

/-!
# Requests to a store without memory

With a store that answers by text and parameters alone, a request is answered the same way whatever
was asked before, and a formula plan has one value.
-/

set_option autoImplicit false

namespace Funnel

open Session

theorem Result.userIds_total (x : Float) : (total x).userIds = [] := by
  simp [userIds]

theorem Result.userIds_time (rows : List TimeRow) : (time rows).userIds = [] := by
  simp [userIds]

variable {answer : String → Fields → Except Fault Value}

namespace Plan.FormulaPlan

def rows (known : Calendar.Zones) (answer : String → Fields → Except Fault Value)
    (plan : FormulaPlan) : Except Fault Rows := do
  let answers ← plan.queries.mapM fun (_, q) => answer q.sql q.params
  let results : Named Value := plan.queries.names.zip answers
  plan.combine known fun name => (results.find? name).getD (.list [])

end Plan.FormulaPlan

namespace Work

variable {s : Store}

theorem steady_findCallers (hs : s = .ofFunction answer) (f : Filters) :
    (findCallers s f).Steady := by
  subst hs
  unfold findCallers
  split
  · exact steady_bind (gives_ask answer _).steady fun _ => steady_ofExcept _
  · exact steady_pure _

theorem steady_derive (hs : s = .ofFunction answer) (known : Calendar.Zones) (f : Filters) :
    (derive known s f).Steady := by
  unfold derive
  refine steady_bind (steady_findCallers hs f) fun callers => ?_
  subst hs
  split
  · exact steady_pure _
  · refine steady_bind (gives_ask answer _).steady fun _ => ?_
    refine steady_bind (steady_ofExcept _) fun _ => ?_
    refine steady_bind (steady_ofExcept _) fun call => ?_
    exact steady_bind (gives_ask answer call).steady fun _ => steady_ofExcept _

end Work

namespace Engine

variable {e : Engine}

theorem gives_runPlan (he : e.store = .ofFunction answer) (plan : Plan.FormulaPlan) :
    (e.runPlan plan).Gives (plan.rows e.zones answer) := by
  unfold runPlan
  rw [he]
  exact gives_bind (gives_gather fun p _ => gives_ask answer p.2.toCall) fun _ _ =>
    gives_ofExcept _

theorem steady_ask (he : e.store = .ofFunction answer) (c : Call) : (ask e.store c).Steady := by
  rw [he]
  exact (gives_ask answer c).steady

theorem steady_runGeneric (he : e.store = .ofFunction answer) (m : Metric) (f : Filters)
    (b : Breakdown) : (e.runGeneric m f b).Steady :=
  steady_bind (steady_ofExcept _) fun query =>
    steady_bind (steady_ask he query.toCall) fun _ => steady_ofExcept _

theorem steady_runChart (he : e.store = .ofFunction answer) (m : Metric) (f : Filters) :
    (e.runChart m f).Steady :=
  steady_bind (steady_ofExcept _) fun (query, _) =>
    steady_bind (steady_ask he query.toCall) fun _ => steady_ofExcept _

theorem steady_runBucket (he : e.store = .ofFunction answer) (m : Metric) (f : Filters)
    (settings : Fields) (w : BucketWindow) : (e.runBucket m f settings w).Steady :=
  steady_bind (steady_ofExcept _) fun plan =>
    steady_bind (gives_runPlan he plan).steady fun _ =>
      steady_bind (steady_ofExcept _) fun _ => steady_pure _

theorem steady_runFormulaChart (he : e.store = .ofFunction answer) (m : Metric) (f : Filters)
    (settings : Fields) : (e.runFormulaChart m f settings).Steady :=
  steady_bind (steady_ofExcept _) fun ws =>
    steady_bind (Pool.steady_run (steady_runBucket he m f settings) e.limit e.schedule ws)
      fun _ => steady_ofExcept _

theorem steady_runFormula (he : e.store = .ofFunction answer) (m : Metric) (f : Filters)
    (settings : Fields) (b : Breakdown) : (e.runFormula m f settings b).Steady :=
  steady_bind (steady_ofExcept _) fun plan =>
    steady_bind (gives_runPlan he plan).steady fun _ => steady_ofExcept _

theorem steady_run (he : e.store = .ofFunction answer) (m : Metric) (f : Filters) (o : Options)
    (s : Strategy) (b : Breakdown) : (e.run m f o s b).Steady := by
  cases s with
  | generic => exact steady_runGeneric he m f b
  | timeSeries => exact steady_runChart he m f
  | special =>
    rw [run]
    split
    · exact steady_bind (Work.steady_derive he e.zones f) fun _ => steady_ofExcept _
    · split
      · exact steady_runFormulaChart he m f o.settings
      · exact steady_runFormula he m f o.settings b

theorem steady_fillNames (e : Engine) (r : Result) : (e.fillNames r).Steady := by
  unfold fillNames
  split
  · exact steady_pure r
  · split
    · exact steady_pure _
    · refine steady_bind (gives_noteLookup _).steady fun _ => ?_
      exact steady_bind (steady_ofExcept _) fun _ => steady_pure _

theorem steady_execute (he : e.store = .ofFunction answer) (r : Request) (o : Option Options) :
    (e.execute r o).Steady := by
  unfold execute
  split
  · refine steady_bind (steady_ofExcept _) fun chosen => ?_
    refine steady_bind (steady_orElse (steady_run he _ r.filters _ _ _) _) fun result => ?_
    exact steady_bind (steady_fillNames e result) fun _ => steady_pure _
  · exact steady_ofExcept _

theorem reasons_of_checked {r : Request} {m : Metric} (hf : r.filters.reasons = [])
    (hm : Registry.find? r.metricName = some m) : r.reasons = [] := by
  rw [Request.reasons, hf, metricReasons, List.filter_cons_of_neg (by simp [hm])]
  rfl

variable {name : String} {m : Metric} {f : Filters} {o : Options} {s : Strategy} {b : Breakdown}

theorem execute_eq {r : Request} {p : Option Options} (hm : Registry.find? r.metricName = some m)
    (hf : r.filters.reasons = [])
    (hs : selectStrategy m ((p.or r.options).getD .none) = .ok (s, b)) : e.execute r p = (do
      let result ← (e.run m r.filters ((p.or r.options).getD .none) s b).orElse (.empty b)
      let result ← e.fillNames result
      pure ⟨r.metricName, r.filters, result, b, s⟩) := by
  rw [execute, reasons_of_checked hf hm, hm]
  simp only [hs]
  rfl

theorem execute_of_checked (hm : Registry.find? name = some m) (hf : f.reasons = [])
    (hs : selectStrategy m o = .ok (s, b)) : e.execute ⟨name, f, some o⟩ none = (do
      let result ← (e.run m f o s b).orElse (.empty b)
      let result ← e.fillNames result
      pure ⟨name, f, result, b, s⟩) :=
  @execute_eq e m s b ⟨name, f, some o⟩ none hm hf hs

/-- A checked request is answered by the result of its strategy. Names are looked up only where
there is somebody. -/
theorem gives_execute (hm : Registry.find? name = some m) (hf : f.reasons = [])
    (hs : selectStrategy m o = .ok (s, b)) {result : Result}
    (hrun : (e.run m f o s b).Gives (.ok result)) (hnobody : result.userIds = []) :
    (e.execute ⟨name, f, some o⟩ none).Gives (.ok ⟨name, f, result, b, s⟩) := by
  have hfill : (e.fillNames result).Gives (.ok result) := by
    unfold fillNames
    rw [hnobody]
    exact gives_pure result
  rw [execute_of_checked hm hf hs]
  refine gives_bind_ok (gives_orElse hrun (.empty b)) ?_
  exact gives_bind_ok hfill (gives_pure _)

/-- An engine that knows neither names nor zones. -/
def plain (answer : String → Fields → Except Fault Value) : Engine :=
  ⟨.ofFunction answer, .nowhere, fun _ => none, 10, fun _ => 0⟩

end Engine

end Funnel
