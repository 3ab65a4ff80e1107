/-!
# Calendar dates

A date is the number of its day in the proleptic Gregorian calendar, counted from 0001-01-01 as
day 1; the last one is 9999-12-31. Year, month and day of the month are read off that number.
-/

set_option autoImplicit false

namespace Funnel.Calendar

def lastDay : Nat := 3652059

/-- A day of the years 1 to 9999. -/
structure Date where
  dayNumber : Nat
  one_le : 1 ≤ dayNumber
  le_last : dayNumber ≤ lastDay
deriving DecidableEq

def isLeap (year : Nat) : Bool := year % 4 == 0 && (year % 100 != 0 || year % 400 == 0)

/-- Days of the years before `year`, which is at least 1. -/
def daysBeforeYear (year : Nat) : Nat :=
  let y := year - 1
  365 * y + y / 4 - y / 100 + y / 400

def daysInMonth (year month : Nat) : Nat :=
  match month with
  | 2 => if isLeap year then 29 else 28
  | 4 | 6 | 9 | 11 => 30
  | _ => 31

/-- Days of the year before the first of a month, 1 to 12. -/
def daysBeforeMonth (year : Nat) : (month : Nat) → Nat
  | 0 | 1 => 0
  | m + 2 => daysBeforeMonth year (m + 1) + daysInMonth year (m + 1)

def yearOfDay (n : Nat) : Nat :=
  let y := (n - 1) * 400 / 146097 + 1
  if n ≤ daysBeforeYear y then y - 1
  else if daysBeforeYear (y + 1) < n then y + 1
  else y

/-- The month of the `k`-th day of a year, counted from 1, searched from month `m` on. -/
def monthOfYearDay (year k : Nat) : (left m : Nat) → Nat
  | 0, m => m
  | left + 1, m =>
    if k ≤ daysBeforeMonth year (m + 1) then m else monthOfYearDay year k left (m + 1)

namespace Date

instance : LT Date := ⟨fun a b => a.dayNumber < b.dayNumber⟩
instance : LE Date := ⟨fun a b => a.dayNumber ≤ b.dayNumber⟩
instance (a b : Date) : Decidable (a < b) := inferInstanceAs (Decidable (a.dayNumber < b.dayNumber))
instance (a b : Date) : Decidable (a ≤ b) := inferInstanceAs (Decidable (a.dayNumber ≤ b.dayNumber))

theorem le_iff {a b : Date} : a ≤ b ↔ a.dayNumber ≤ b.dayNumber := Iff.rfl
theorem lt_iff {a b : Date} : a < b ↔ a.dayNumber < b.dayNumber := Iff.rfl

theorem ext_day {a b : Date} (h : a.dayNumber = b.dayNumber) : a = b := by
  cases a
  cases b
  simp_all

def min (a b : Date) : Date := if b < a then b else a
def max (a b : Date) : Date := if a < b then b else a

/-- The day with a given number, if the calendar holds it. -/
def ofDayNumber? (n : Int) : Option Date :=
  if h : 1 ≤ n ∧ n ≤ lastDay then some ⟨n.toNat, by omega, by omega⟩ else none

theorem dayNumber_of_ofDayNumber? {n : Int} {d : Date} (h : ofDayNumber? n = some d) :
    (d.dayNumber : Int) = n := by
  unfold ofDayNumber? at h
  split at h
  · simp only [Option.some.injEq] at h
    subst h
    simp only
    omega
  · simp at h

theorem ofDayNumber?_isSome {n : Int} :
    (ofDayNumber? n).isSome = true ↔ 1 ≤ n ∧ n ≤ lastDay := by
  unfold ofDayNumber?
  split <;> simp_all

def year (d : Date) : Nat := yearOfDay d.dayNumber

/-- The place of the day in its year, counted from 1. -/
def yearDay (d : Date) : Nat := d.dayNumber - daysBeforeYear d.year

def month (d : Date) : Nat := monthOfYearDay d.year d.yearDay 11 1

/-- The place of the day in its month, counted from 1. -/
def day (d : Date) : Nat := d.yearDay - daysBeforeMonth d.year d.month

def dayNumberOf (year month day : Nat) : Nat :=
  daysBeforeYear year + daysBeforeMonth year month + day

/-- The date of a year, month and day, if the calendar has it. -/
def ofCivil? (year month day : Nat) : Option Date :=
  if 1 ≤ year ∧ year ≤ 9999 ∧ 1 ≤ month ∧ month ≤ 12 ∧ 1 ≤ day ∧ day ≤ daysInMonth year month then
    ofDayNumber? (dayNumberOf year month day : Nat)
  else none

def addDays? (d : Date) (n : Int) : Option Date := ofDayNumber? (d.dayNumber + n)

def daysTo (a b : Date) : Int := (b.dayNumber : Int) - a.dayNumber

def weekday (d : Date) : Nat := (d.dayNumber + 6) % 7

def isoWeekday (d : Date) : Nat := d.weekday + 1

/-- The date of a weekday in an ISO week; week 53 only in the years that have it. -/
def ofIsoWeek? (year week weekday : Nat) : Option Date :=
  if 1 ≤ year ∧ year ≤ 9999 ∧ 1 ≤ week ∧ 1 ≤ weekday ∧ weekday ≤ 7 then
    let firstDay := daysBeforeYear year + 1
    let firstWeekday := (firstDay + 6) % 7
    let long := firstWeekday == 3 || (firstWeekday == 2 && isLeap year)
    if week ≤ 52 ∨ (week = 53 ∧ long) then
      let firstMonday : Int := firstDay - firstWeekday + if 3 < firstWeekday then 7 else 0
      ofDayNumber? (firstMonday + (week - 1) * 7 + (weekday - 1))
    else none
  else none

end Date

end Funnel.Calendar
