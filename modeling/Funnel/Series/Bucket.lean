import Funnel.Calendar.Date
import Funnel.Catalog.Terms

/-!
# Buckets of a chart

A range of days is cut into days, Monday weeks or calendar months. A series holds the first day of
every bucket that touches the range; a window is the part of a bucket inside the range.
-/

set_option autoImplicit false

namespace Funnel

open Calendar

/-- The length of a bucket. -/
inductive Granularity where
  | day | week | month
deriving DecidableEq, Repr

namespace Granularity

def all : List Granularity := [.day, .week, .month]

def text : Granularity → String
  | .day => "day"
  | .week => "week"
  | .month => "month"

def ofValue : Value → Except Fault Granularity := memberOf "Granularity" all text

def interval (g : Granularity) : String := "interval '1 " ++ g.text ++ "'"

def localColumn : Granularity → String
  | .day => "local_date"
  | .week => "local_week"
  | .month => "local_month"

/-- The granularity for a span of days. A span of 28 to 31 days counts as one month. -/
def ofSpan (span : Int) : Granularity :=
  if 28 ≤ span ∧ span ≤ 31 then .month
  else if span < 14 then .day
  else if span < 60 then .week
  else .month

def select (start finish : Date) : Granularity := ofSpan (start.daysTo finish)

end Granularity

namespace Calendar.Date

def weekStart (d : Date) : Date :=
  ⟨d.dayNumber - d.weekday, by
    have := d.one_le
    unfold weekday
    omega, by
    have := d.le_last
    omega⟩

theorem day_le_dayNumber (d : Date) : d.day ≤ d.dayNumber := by
  unfold day yearDay
  omega

def monthStart (d : Date) : Date :=
  ⟨d.dayNumber - (d.day - 1), by
    have := d.one_le
    have := d.day_le_dayNumber
    omega, by
    have := d.le_last
    omega⟩

end Calendar.Date

def bucketStart (d : Date) : Granularity → Date
  | .day => d
  | .week => d.weekStart
  | .month => d.monthStart

/-- The first day of the next month, if the calendar holds it. -/
def nextMonth? (d : Date) : Option Date :=
  if d.month = 12 then Date.ofCivil? (d.year + 1) 1 1 else Date.ofCivil? d.year (d.month + 1) 1

/-- The day one bucket after a day, or the first day of the next month. -/
def nextBucket (d : Date) (g : Granularity) : Except Fault Date :=
  match g with
  | .day => (d.addDays? 1).elim (.error .outOfRange) .ok
  | .week => (d.addDays? 7).elim (.error .outOfRange) .ok
  | .month => (nextMonth? d).elim (.error .badValue) .ok

/-- Bucket starts from `current` to `last`; each step goes at least a day further. -/
def seriesFrom (g : Granularity) (last : Date) :
    (fuel : Nat) → (current : Date) → Except Fault (List Date)
  | 0, _ => .ok []
  | n + 1, current =>
    if current ≤ last then do
      let next ← nextBucket current g
      let rest ← seriesFrom g last n next
      .ok (current :: rest)
    else .ok []

def bucketSeries (start finish : Date) (g : Granularity) : Except Fault (List Date) :=
  let first := bucketStart start g
  let last := bucketStart finish g
  seriesFrom g last (last.dayNumber + 2 - first.dayNumber) first

/-- The part of a bucket inside a range. -/
structure BucketWindow where
  bucket : Date
  start : Date
  finish : Date

def clip (start finish : Date) (g : Granularity) (bucket : Date) : Except Fault BucketWindow := do
  let next ← nextBucket bucket g
  match next.addDays? (-1) with
  | some last => .ok ⟨bucket, bucket.max start, last.min finish⟩
  | none => .error .outOfRange

/-- Every bucket that touches the range, with the part inside it. -/
def bucketWindows (start finish : Date) (g : Granularity) : Except Fault (List BucketWindow) := do
  (← bucketSeries start finish g).mapM (clip start finish g)

end Funnel
