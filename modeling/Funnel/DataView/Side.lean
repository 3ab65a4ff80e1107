import Funnel.Catalog.Metric
import Funnel.Number.Sum
import Funnel.Text.Case
import Funnel.Value.Compare

/-!
# Whose records count

Which records are a person's depends on the metric and on the person's role. An attributed metric
counts for its owner; of the rest, appointments and discoveries count for the rep or the setter by
role, and people who administer an account count on both sides. Figures of the whole account count
for nobody.
-/

set_option autoImplicit false

namespace Funnel

/-- A side on which a person's records are counted; `both` asks for rep and setter at once. -/
inductive Side where
  | rep | setter | both
deriving DecidableEq, Repr

namespace Side

def label : Side → String
  | .rep => "rep"
  | .setter => "setter"
  | .both => "both"

def repIds (s : Side) (user : String) : List String :=
  match s with
  | .rep | .both => [user]
  | .setter => []

def setterIds (s : Side) (user : String) : List String :=
  match s with
  | .setter | .both => [user]
  | .rep => []

end Side

def adminRoles : List String := ["admin", "moderator"]

def roleOf (role : Value) : Except Fault String :=
  match role.orElse (.text "") with
  | .text s => .ok (Text.lower s)
  | _ => .error .noSuchField

def sidesByRole (role : String) (admin : List Side) : List Side :=
  if role = "sales_rep" then [.rep]
  else if role = "setter" then [.setter]
  else if role ∈ adminRoles then admin
  else []

/-- The sides on which a metric counts for a person with a role, given in lower case. -/
def Metric.sides (m : Metric) (role : String) : List Side :=
  if m.formula = some .costPerBookedCall then []
  else
    match m.attribution with
    | some .assigned => [.rep]
    | some .booked | some .dialer => [.setter]
    | none =>
      if m.table = "work_timeframes" then [.setter]
      else if m.table = "appointments" then
        if m.key = "total_appointments" then [.rep] else sidesByRole role [.rep, .setter]
      else if m.table = "discoveries" then sidesByRole role [.both]
      else if m.table = "dials" then
        if role = "setter" ∨ role ∈ adminRoles then [.setter] else []
      else []

/-- The figures of several sides as one: counts and amounts add up, of percentages the largest
counts, anything else is averaged. -/
def combineSides (unit : MetricUnit) (values : List Float) : Float :=
  match values with
  | [] => 0.0
  | [x] => x
  | x :: rest =>
    match unit with
    | .count | .currency => Number.plainSum values
    | .percent => rest.foldl Number.larger x
    | _ => Number.plainSum values / Number.ofInt values.length

def sumOfValues (vs : List Value) : Except Fault Figure :=
  vs.foldlM (fun total v => do total.add (← Figure.ofValue v)) (.whole 0)

/-- The values of several sides as one, for values of any kind: a value on its own is kept as it
is, and what is not given counts as zero. -/
def combineValues (unit : MetricUnit) (values : Value) : Except Fault Value :=
  if !values.isGiven then .ok (.double 0.0)
  else do
    match values, ← values.entries with
    | .object _, [_] => .error .noSuchKey
    | _, [] => .ok (.double 0.0)
    | _, [v] => .ok v
    | _, v :: vs =>
      match unit with
      | .count | .currency => do .ok (← sumOfValues (v :: vs)).toValue
      | .percent => v.largest vs
      | _ => do .ok (← (← sumOfValues (v :: vs)).div (.whole (vs.length + 1))).toValue

end Funnel
