import Funnel.Value

/-!
# Terms of the catalog

The closed sets that metrics are described with: how a result is broken down, what its numbers
measure, to whom an appointment or dial is credited, and which formulas span several tables.
-/

set_option autoImplicit false

namespace Funnel

/-- How a result is divided. -/
inductive Breakdown where
  | total | rep | setter | link | time
deriving DecidableEq, Repr

/-- What the numbers of a metric measure; a percent is a fraction of one. -/
inductive MetricUnit where
  | count | currency | percent | seconds | days | hours
deriving DecidableEq, Repr

/-- Whom a record is credited to: the rep it is assigned to, whoever booked it, or the dialer. -/
inductive Attribution where
  | assigned | booked | dialer
deriving DecidableEq, Repr

/-- Formulas over several queries. -/
inductive Formula where
  | roi | repRoi | costPerBookedCall | speedToLead | leadToAppointment | dataCompletionRate
  | overdueItems | overduePercentage | cashPerDial | bookingLeadTime | workTimeframe
deriving DecidableEq, Repr

/-- The member of a closed set that a value names. -/
def memberOf {α : Type} (kind : String) (all : List α) (text : α → String) (v : Value) :
    Except Fault α :=
  match v with
  | .text s =>
    match all.find? fun a => text a == s with
    | some a => .ok a
    | none => .error (.notAMember v.shown kind)
  | _ => .error (.notAMember v.shown kind)

namespace Breakdown

def all : List Breakdown := [.total, .rep, .setter, .link, .time]

def text : Breakdown → String
  | .total => "total"
  | .rep => "rep"
  | .setter => "setter"
  | .link => "link"
  | .time => "time"

def ofValue : Value → Except Fault Breakdown := memberOf "BreakdownType" all text

end Breakdown

namespace MetricUnit

def all : List MetricUnit := [.count, .currency, .percent, .seconds, .days, .hours]

def text : MetricUnit → String
  | .count => "count"
  | .currency => "currency"
  | .percent => "percent"
  | .seconds => "seconds"
  | .days => "days"
  | .hours => "hours"

def ofValue : Value → Except Fault MetricUnit := memberOf "MetricUnit" all text

end MetricUnit

namespace Attribution

def all : List Attribution := [.assigned, .booked, .dialer]

def text : Attribution → String
  | .assigned => "assigned"
  | .booked => "booked"
  | .dialer => "dialer"

def ofValue : Value → Except Fault Attribution := memberOf "AttributionContext" all text

end Attribution

namespace Formula

def all : List Formula :=
  [.roi, .repRoi, .costPerBookedCall, .speedToLead, .leadToAppointment, .dataCompletionRate,
    .overdueItems, .overduePercentage, .cashPerDial, .bookingLeadTime, .workTimeframe]

def text : Formula → String
  | .roi => "roi"
  | .repRoi => "rep_roi"
  | .costPerBookedCall => "cost_per_booked_call"
  | .speedToLead => "speed_to_lead"
  | .leadToAppointment => "lead_to_appointment"
  | .dataCompletionRate => "data_completion_rate"
  | .overdueItems => "overdue_items"
  | .overduePercentage => "overdue_percentage"
  | .cashPerDial => "cash_per_dial"
  | .bookingLeadTime => "booking_lead_time"
  | .workTimeframe => "work_timeframe"

def ofValue : Value → Except Fault Formula := memberOf "SpecialFormula" all text

end Formula

end Funnel
