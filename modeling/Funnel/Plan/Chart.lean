import Funnel.Plan.Generic
import Funnel.Series.Bucket

/-!
# Chart queries

A chart has one row for each bucket, also where the store has nothing: the buckets are generated,
the metric is counted by bucket, and the two are joined. Tables with precomputed bucket columns
are grouped by those, others by the truncated day.
-/

set_option autoImplicit false

namespace Funnel.Plan

open Calendar

def bucketExpression (t : Table) (g : Granularity) : String :=
  if t.hasLocalBuckets then g.localColumn
  else "date_trunc('" ++ g.text ++ "', " ++ Standard.dayExpression t none ++ ")::date"

def bucketsQuery (g : Granularity) : Select :=
  .simple
    ["generate_series($series_start::date, $series_end::date, " ++ g.interval ++
      ")::date AS bucket"]
    "(SELECT 1) AS seed" []

def countedQuery (m : Metric) (t : Table) (g : Granularity) (conditions : List Condition) :
    Select :=
  let bucket := bucketExpression t g
  .mk [bucket ++ " AS bucket", valueText m ++ " AS value"] m.table [] conditions [bucket] [] [] []

def chartQuery (m : Metric) (t : Table) (g : Granularity) (conditions : List Condition) : Select :=
  let value := if m.gapWhenEmpty then "agg.value" else "COALESCE(agg.value, 0)"
  .mk ["to_char(b.bucket, 'YYYY-MM-DD') AS date", value ++ " AS value"] "buckets b"
    [⟨"agg", "agg.bucket = b.bucket", some "LEFT"⟩] [] [] [] ["b.bucket"]
    [.mk "buckets" (.one (bucketsQuery g)), .mk "agg" (.one (countedQuery m t g conditions))]

/-- The two days of a chart's range. Without them the granularity, or else the first bucket,
cannot be worked out. -/
def chartDays (f : Filters) (g : Option Granularity) : Except Fault (Date × Date) := do
  match ← f.bounds with
  | (some s, some e) => .ok (s, e)
  | _ => .error (match g with
    | some .week | some .month => .noSuchField
    | _ => .wrongKind)

def chart (m : Metric) (f : Filters) (g : Option Granularity) :
    Except Fault (BoundQuery × List Date) := do
  let (start, finish) ← chartDays f g
  let g := g.getD (.select start finish)
  let series ← bucketSeries start finish g
  let t ← m.tableSpec
  let applied := Standard.conditions f start finish t none true
  match series.head?, series.getLast? with
  | some first, some last =>
    let params := Named.put applied.params "series_start" (.text first.iso)
    .ok ({
      query := chartQuery m t g (metricConditions m applied)
      params := Named.put params "series_end" (.text last.iso)
      strategy := .timeSeries
      breakdown := .time }, series)
  | _, _ => .error .outOfBounds

end Funnel.Plan
