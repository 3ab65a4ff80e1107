import Funnel.Catalog.Registry
import Funnel.Names
import Funnel.Plan.Chart
import Funnel.Plan.Formula
import Funnel.Plan.Options
import Funnel.Pool
import Funnel.Work.Derive

/-!
# Answering a request

A request is checked first, with every reason against it, then answered by one of three
strategies. What goes wrong after the check is counted and answered with the empty result of the
breakdown, so that whoever asks always has a result of the right form.
-/

set_option autoImplicit false

namespace Funnel

open Calendar

structure Request where
  metricName : String
  filters : Filters
  options : Option Options

structure Response where
  metricName : String
  filters : Filters
  result : Result
  breakdown : Breakdown
  strategy : Strategy

/-- What an engine works with: a store, a source of names, the zones that are known, and how many
calls of a chart may be pending and in which order they end. -/
structure Engine where
  store : Store
  names : NameSource
  zones : Zones
  limit : Int
  schedule : Nat → Nat

def notFound (name : String) : String := "Metric '" ++ name ++ "' not found"

def metricReasons (names : List String) : List String :=
  (names.filter fun n => (Registry.find? n).isNone).map notFound

def Request.reasons (r : Request) : List String :=
  r.filters.reasons ++ metricReasons [r.metricName]

namespace Engine

def runPlan (e : Engine) (plan : Plan.FormulaPlan) : Session Plan.Rows := do
  let answers ← Session.gather (plan.queries.map fun (_, q) => Session.ask e.store q.toCall)
  let results : Named Value := plan.queries.names.zip answers
  .ofExcept (plan.combine e.zones fun name => (results.find? name).getD (.list []))

def runGeneric (e : Engine) (m : Metric) (f : Filters) (b : Breakdown) : Session Result := do
  let query ← Session.ofExcept (Plan.generic m f b)
  let rows ← Session.ask e.store query.toCall
  .ofExcept (Result.shape b rows none false)

def runChart (e : Engine) (m : Metric) (f : Filters) : Session Result := do
  let (query, series) ← Session.ofExcept (Plan.chart m f none)
  let rows ← Session.ask e.store query.toCall
  .ofExcept (Result.shape .time rows (some series) m.gapWhenEmpty)

/-- The buckets of a request, cut to its range. -/
def windows (f : Filters) : Except Fault (List BucketWindow) := do
  let (start, finish) ← f.days
  bucketWindows start finish (.select start finish)

def narrowed (f : Filters) (first last : Date) : Filters :=
  { f with dateRange := some ⟨some first.iso, some last.iso⟩ }

def chartRow (d : Date) (v : Value) : Value := .object [("date", .text d.iso), ("value", v)]

def optional (x : Option Float) : Value :=
  match x with
  | some x => .double x
  | none => .null

/-- The value of the first row of a formula. -/
def firstNumber (rows : Plan.Rows) : Except Fault (Option Float) :=
  match rows with
  | [] => .ok none
  | row :: _ => do (← row.get "value").number?

def runBucket (e : Engine) (m : Metric) (f : Filters) (settings : Fields) (w : BucketWindow) :
    Session Value := do
  let plan ← Session.ofExcept (Plan.formula m (narrowed f w.start w.finish) settings .total)
  let rows ← e.runPlan plan
  let value ← Session.ofExcept (firstNumber rows)
  pure (chartRow w.bucket (optional value))

def runFormulaChart (e : Engine) (m : Metric) (f : Filters) (settings : Fields) :
    Session Result := do
  let ws ← Session.ofExcept (windows f)
  let rows ← Pool.run e.limit e.schedule ws (e.runBucket m f settings)
  .ofExcept (Result.shape .time (.list rows) (some (ws.map (·.bucket))) m.gapWhenEmpty)

def runFormula (e : Engine) (m : Metric) (f : Filters) (settings : Fields) (b : Breakdown) :
    Session Result := do
  let plan ← Session.ofExcept (Plan.formula m f settings b)
  let rows ← e.runPlan plan
  .ofExcept (Result.shape b (.list rows) none m.gapWhenEmpty)

def workResult (m : Metric) (f : Filters) (b : Breakdown) (days : List Work.WorkDay) :
    Except Fault Result := do
  match b with
  | .time =>
    let ws ← windows f
    let rows := ws.map fun w =>
      chartRow w.bucket (.double ((Work.between days w.start w.finish).figure m.key))
    Result.shape .time (.list rows) (some (ws.map (·.bucket))) false
  | .setter =>
    let rows := (Work.perUser days).map fun (id, totals) =>
      .object [("setter_id", .text id), ("value", .double (totals.figure m.key))]
    Result.shape .setter (.list rows) none false
  | _ =>
    let figure := (Work.Totals.ofDays days).figure m.key
    Result.shape .total (.list [.object [("value", .double figure)]]) none false

def runWork (e : Engine) (m : Metric) (f : Filters) (b : Breakdown) : Session Result := do
  let days ← Work.derive e.zones e.store f
  .ofExcept (workResult m f b days)

def run (e : Engine) (m : Metric) (f : Filters) (o : Options) (s : Strategy) (b : Breakdown) :
    Session Result :=
  match s with
  | .generic => e.runGeneric m f b
  | .timeSeries => e.runChart m f
  | .special =>
    if m.formula = some .workTimeframe then e.runWork m f b
    else if b = .time then e.runFormulaChart m f o.settings
    else e.runFormula m f o.settings b

/-- A result with its names, which are only looked up where there are people. -/
def fillNames (e : Engine) (r : Result) : Session Result :=
  match r.userIds with
  | [] => pure r
  | ids => do
    match e.names with
    | .nowhere => pure (r.withNames [])
    | source => do
      Session.noteLookup ids
      let names ← Session.ofExcept (source.resolve ids)
      pure (r.withNames names)

/-- Answers a request with options, or else with its own. -/
def execute (e : Engine) (r : Request) (o : Option Options) : Session Response := do
  let o := (o.or r.options).getD .none
  match r.reasons, Registry.find? r.metricName with
  | [], some m => do
    let (s, b) ← Session.ofExcept (selectStrategy m o)
    let result ← (e.run m r.filters o s b).orElse (.empty b)
    let result ← e.fillNames result
    pure ⟨r.metricName, r.filters, result, b, s⟩
  | reasons, _ => .ofExcept (.error (.invalidRequest reasons))

end Engine

end Funnel
