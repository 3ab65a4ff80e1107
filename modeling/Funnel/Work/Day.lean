import Funnel.Hours.Window
import Funnel.Number.Sum

/-!
# Work days

Hours worked are not stored. They are derived from dials: a caller's day lasts from the first
dial to the last one, on the account's calendar, and at least a tenth of an hour.
-/

set_option autoImplicit false

namespace Funnel.Work

open Calendar Number

/-- One caller's dials on one day. -/
structure WorkDay where
  userId : String
  day : Date
  firstDial : Moment
  lastDial : Moment
  dials : Nat
  bookings : Nat

def seconds (micros : Int) : Float := nearest (decide (micros < 0)) micros.natAbs microsPerSecond

def leastHours : Float := 0.1

def WorkDay.hours (d : WorkDay) : Float :=
  larger (seconds (d.lastDial.instant - d.firstDial.instant) / 3600) leastHours

structure Totals where
  hoursWorked : Float
  dials : Nat
  bookings : Nat

namespace Totals

def zero : Totals := ⟨0.0, 0, 0⟩

def add (t : Totals) (d : WorkDay) : Totals :=
  ⟨t.hoursWorked + d.hours, t.dials + d.dials, t.bookings + d.bookings⟩

def ofDays (days : List WorkDay) : Totals := days.foldl add zero

/-- A count for each hour, rounded to two places; zero where no hours were worked. -/
def perHour (t : Totals) (count : Nat) : Float :=
  if t.hoursWorked == 0 then 0.0 else roundPlaces 2 (ofInt count / t.hoursWorked)

def dialsPerHour (t : Totals) : Float := t.perHour t.dials
def bookingsPerHour (t : Totals) : Float := t.perHour t.bookings
def roundedHours (t : Totals) : Float := roundPlaces 2 t.hoursWorked

def figure (t : Totals) (metric : String) : Float :=
  if metric = "dials_per_hour" then t.dialsPerHour
  else if metric = "bookings_per_hour" then t.bookingsPerHour
  else t.roundedHours

end Totals

def between (days : List WorkDay) (start finish : Date) : Totals :=
  .ofDays (days.filter fun d => start ≤ d.day ∧ d.day ≤ finish)

def callers (days : List WorkDay) : List String := (days.map WorkDay.userId).eraseDups

def perUser (days : List WorkDay) : Named Totals :=
  (callers days).map fun u => (u, .ofDays (days.filter fun d => d.userId == u))

/-- A dial: who called, when, on which day, and whether it was booked. -/
structure Dial where
  userId : String
  day : Date
  called : Moment
  booked : Bool

/-- The dial of a row; a row without caller or time is none. -/
def Dial.ofRow? (z : Zone) (row : Value) : Except Fault (Option Dial) := do
  let user ← row.get "setter_user_id"
  let called ← row.get "date_called"
  match called.timestamp? with
  | none => .ok none
  | some called =>
    if user.isGiven then
      match called.inZone? z with
      | none => .error .outOfRange
      | some here => do
        let booked ← (← row.get "booked").flag
        .ok (some ⟨user.toText, here.date, called, booked⟩)
    else .ok none

def earlier (a b : Moment) : Moment := if b.instant < a.instant then b else a

/-- The later of two moments, the first where they are the same instant. -/
def later (a b : Moment) : Moment := if a.instant < b.instant then b else a

def WorkDay.extend (d : WorkDay) (dial : Dial) : WorkDay :=
  { d with
    firstDial := earlier d.firstDial dial.called
    lastDial := later d.lastDial dial.called
    dials := d.dials + 1
    bookings := d.bookings + if dial.booked then 1 else 0 }

def WorkDay.ofDial (dial : Dial) : WorkDay :=
  ⟨dial.userId, dial.day, dial.called, dial.called, 1, if dial.booked then 1 else 0⟩

def addDial : List WorkDay → Dial → List WorkDay
  | [], dial => [.ofDial dial]
  | d :: ds, dial =>
    if d.userId = dial.userId ∧ d.day = dial.day then d.extend dial :: ds else d :: addDial ds dial

def comesBefore (a b : WorkDay) : Bool :=
  decide (a.userId < b.userId) || (a.userId == b.userId && decide (a.day ≤ b.day))

def ofDials (dials : List Dial) : List WorkDay := (dials.foldl addDial []).mergeSort comesBefore

def group (rows : List Value) (z : Zone) : Except Fault (List WorkDay) := do
  .ok (ofDials ((← rows.mapM (Dial.ofRow? z)).filterMap id))

end Funnel.Work
