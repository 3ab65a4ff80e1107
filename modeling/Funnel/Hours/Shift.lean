import Funnel.Hours.Window

/-!
# The next open moment

A moment outside its window counts as the next opening. The window's days and times are those of
its own zone; the answer is in UTC.
-/

set_option autoImplicit false

namespace Funnel.Hours

open Calendar

/-- Seconds of a time of day on the UTC clock, whole, and its microseconds. -/
def utcParts (t : ClockTime) (offset : Int) : Int × Int :=
  ((t.micros : Int).fdiv microsPerSecond - offset.fdiv microsPerSecond,
    (t.micros : Int).fmod microsPerSecond)

/-- Whether a time of day comes before another. Times with an offset are compared on the UTC
clock; a time with an offset and one without cannot be compared. -/
def isBefore (a b : ClockTime) : Except Fault Bool :=
  match a.offset, b.offset with
  | none, none => .ok (decide (a.micros < b.micros))
  | some o, some p =>
    if o = p then .ok (decide (a.micros < b.micros))
    else
      let (s, u) := utcParts a o
      let (t, v) := utcParts b p
      .ok (decide (s < t) || (decide (s = t) && decide (u < v)))
  | _, _ => .error .wrongKind

def inUtc (m : Moment) : Except Fault Moment :=
  match m.toUtc? with
  | some m => .ok m
  | none => .error .outOfRange

def wallInUtc (z : Zone) (wall : Int) : Except Fault Moment :=
  match Moment.ofWall? (wall - z.offsetOfWall wall) (some 0) with
  | some m => .ok m
  | none => .error .outOfRange

def wallAt (d : Date) (t : ClockTime) : Int := d.dayNumber * microsPerDay + t.micros

def nextOpening (z : Zone) (w : Window) (fallback : Moment) : (left : Nat) → (day : Date) →
    Except Fault Moment
  | 0, _ => inUtc fallback
  | left + 1, day =>
    let opening := wallAt day w.opening
    let midnight := wallAt day .midnight
    if (day.isoWeekday : Int) ∈ w.workingDays ∧ midnight < wallAt day w.closing then
      wallInUtc z (max midnight opening)
    else
      match day.addDays? 1 with
      | some next => nextOpening z w fallback left next
      | none => .error .outOfRange

/-- The next open moment from `ts` on by the clock of a zone, for a window with working days that
opens before it closes. -/
def shiftIn (z : Zone) (ts : Moment) (w : Window) : Except Fault Moment :=
  match ts.inZone? z with
  | none => .error .outOfRange
  | some here =>
    let opening := wallAt here.date w.opening
    if (here.date.isoWeekday : Int) ∈ w.workingDays ∧ here.wall < wallAt here.date w.closing then
      if here.wall < opening then wallInUtc z opening else inUtc here
    else
      match here.date.addDays? 1 with
      | some next => nextOpening z w ts 7 next
      | none => .error .outOfRange

/-- The next open moment of a window from a moment on, the window's zone being one of those that
are known. -/
def shiftBy (known : Zones) (m : Moment) (w : Window) : Except Fault Moment := do
  let ts := m.assumeUtc
  if w.workingDays = [] then inUtc ts
  else if !(← isBefore w.opening w.closing) then inUtc ts
  else shiftIn (← zoneIn known w.zone) ts w

end Funnel.Hours
