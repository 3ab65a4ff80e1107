import Funnel.Calendar.Date

/-!
# Times of day and moments

A time of day counts microseconds from midnight and may carry a UTC offset. A moment is a date
and a time of day; with an offset it names an instant, which is counted in microseconds on the
calendar's own axis.
-/

set_option autoImplicit false

namespace Funnel.Calendar

def microsPerSecond : Nat := 1000000
def microsPerDay : Nat := 86400000000

/-- A time of day, in microseconds since midnight, and its UTC offset in microseconds, if known. -/
structure ClockTime where
  micros : Nat
  lt_day : micros < microsPerDay
  offset : Option Int
deriving DecidableEq

namespace ClockTime

def ofFields? (hour minute second micros : Nat) (offset : Option Int) : Option ClockTime :=
  if h : hour < 24 ∧ minute < 60 ∧ second < 60 ∧ micros < microsPerSecond then
    some ⟨((hour * 60 + minute) * 60 + second) * microsPerSecond + micros, by
      simp only [microsPerSecond, microsPerDay] at *
      omega, offset⟩
  else none

def midnight : ClockTime := ⟨0, by decide, none⟩

def hour (h : Nat) (lt : h < 24 := by decide) : ClockTime :=
  ⟨h * 3600 * microsPerSecond, by
    simp only [microsPerSecond, microsPerDay]
    omega, none⟩

end ClockTime

/-- A date and a time of day, with a UTC offset in microseconds unless it is unknown. -/
structure Moment where
  date : Date
  micros : Nat
  lt_day : micros < microsPerDay
  offset : Option Int
deriving DecidableEq

namespace Moment

def onDay (date : Date) (t : ClockTime) : Moment := ⟨date, t.micros, t.lt_day, t.offset⟩

/-- Microseconds of the date and time of day, whatever the offset. -/
def wall (m : Moment) : Int := m.date.dayNumber * microsPerDay + m.micros

/-- The instant: the wall time less the offset, which counts as zero when unknown. -/
def instant (m : Moment) : Int := m.wall - m.offset.getD 0

/-- The moment with a given wall time, if the calendar holds its day. -/
def ofWall? (wall : Int) (offset : Option Int) : Option Moment :=
  let micros := wall.fmod microsPerDay
  match Date.ofDayNumber? (wall.fdiv microsPerDay) with
  | none => none
  | some date =>
    if h : micros.toNat < microsPerDay then some ⟨date, micros.toNat, h, offset⟩ else none

/-- The same instant at another offset, if the calendar holds it. -/
def atOffset? (m : Moment) (offset : Int) : Option Moment :=
  ofWall? (m.instant + offset) (some offset)

/-- The same instant in UTC, if the calendar holds it. -/
def toUtc? (m : Moment) : Option Moment := m.atOffset? 0

def assumeUtc (m : Moment) : Moment := { m with offset := some (m.offset.getD 0) }

theorem instant_assumeUtc (m : Moment) : m.assumeUtc.instant = m.instant := by
  cases h : m.offset <;> simp [instant, assumeUtc, wall, h]

end Moment

end Funnel.Calendar
