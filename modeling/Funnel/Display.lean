import Funnel.Catalog.Terms
import Funnel.Value.Figure

/-!
# Display strings

A number with its unit, as tables and cards show it. Seconds are shown in seconds, minutes or
hours by their size unless a time format is asked for. A missing number is shown as a dash. A whole
number is shown with all its digits, however many they are.
-/

set_option autoImplicit false

namespace Funnel.Display

open Number

/-- How a duration is asked to be shown. -/
inductive TimeFormat where
  | minutes | hours | humanReadable
deriving DecidableEq

/-- The time format that a setting names; any other setting leaves the choice to the size. -/
def TimeFormat.ofValue? : Value → Option TimeFormat
  | .text "minutes" => some .minutes
  | .text "hours" => some .hours
  | .text "human_readable" => some .humanReadable
  | _ => none

/-- Hours, minutes and seconds, leading zeros left out. -/
def clockParts (hours minutes seconds : Int) : String :=
  if 0 < hours then toString hours ++ "h " ++ toString minutes ++ "m " ++ toString seconds ++ "s"
  else if 0 < minutes then toString minutes ++ "m " ++ toString seconds ++ "s"
  else toString seconds ++ "s"

def humanReadable (q : Figure) : Except Fault String := do
  let hours ← (← q.divWhole 3600).cut
  let minutes ← (← (← q.modWhole 3600).divWhole 60).cut
  let seconds ← (← q.modWhole 60).cut
  .ok (clockParts hours minutes seconds)

def withSuffix (suffix : String) (places : Nat) (q : Figure) : Except Fault String := do
  .ok ((← q.fixed places false) ++ suffix)

def inMinutes (q : Figure) : Except Fault Figure := q.div (.whole 60)

def inHours (q : Figure) : Except Fault Figure := q.div (.whole 3600)

def duration (format : Option TimeFormat) (q : Figure) : Except Fault String :=
  match format with
  | some .minutes => do withSuffix "m" 1 (← inMinutes q)
  | some .hours => do withSuffix "h" 2 (← inHours q)
  | some .humanReadable => humanReadable q
  | none => do
    if ← q.isBelow (.whole 60) then withSuffix "s" 0 q
    else if ← q.isBelow (.whole 3600) then withSuffix "m" 1 (← inMinutes q)
    else withSuffix "h" 1 (← inHours q)

def missing : String := "—"

def amount (unit : MetricUnit) (format : Option TimeFormat) (q : Figure) : Except Fault String :=
  match unit with
  | .seconds => duration format q
  | .currency => do .ok ("$" ++ (← q.fixed 0 true))
  | .percent => do withSuffix "%" 1 (← q.mul (.whole 100))
  | .days => withSuffix "d" 1 q
  | .hours => withSuffix "h" 2 q
  | .count => do if ← q.isWhole then q.fixed 0 true else q.fixed 2 true

def ofDouble (unit : MetricUnit) (format : Option TimeFormat) (x : Float) : Except Fault String :=
  amount unit format (.double x)

/-- A date in place of a number: the number format has no place for it and is shown as it is
spelled. -/
def datePattern : MetricUnit → Except Fault String
  | .currency => .ok "$,.0f"
  | .days => .ok ".1fd"
  | .hours => .ok ".2fh"
  | .seconds | .percent | .count => .error .wrongKind

/-- A value with its unit; null is missing, whatever the unit. -/
def ofValue (unit : Value) (format : Option TimeFormat) (v : Value) : Except Fault String :=
  match v with
  | .null => .ok missing
  | v => do
    let unit ← MetricUnit.ofValue unit
    match v with
    | .text _ => .error (if unit = .seconds then .wrongKind else .badValue)
    | .date _ | .moment _ => datePattern unit
    | v => amount unit format (← Figure.ofValue v)

end Funnel.Display
