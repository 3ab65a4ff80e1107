import Funnel.Catalog.Audit

/-!
# The metric registry

Every metric that can be asked for. Percent metrics are fractions of one. Ratios are gaps where a
chart's bucket is empty.
-/

set_option autoImplicit false

namespace Funnel.Registry

/-- A quotient that is zero where the denominator is. -/
def ratio (numerator denominator : String) : String :=
  "COALESCE((" ++ numerator ++ ")::numeric / NULLIF(" ++ denominator ++ ", 0), 0)"

def rows : String := "COUNT(*)"
def shows : String := "COUNT(*) FILTER (WHERE LOWER(call_outcome) = 'show')"
def wins : String := "COUNT(*) FILTER (WHERE show_outcome = 'won')"
def cash : String := "COALESCE(SUM(cash_collected), 0)"
def revenue : String := "COALESCE(SUM(total_sales_value), 0)"
def answered : String := "COUNT(*) FILTER (WHERE answered IS TRUE)"
def meaningful : String := "COUNT(*) FILTER (WHERE meaningful_conversation IS TRUE)"
def booked : String := "COUNT(*) FILTER (WHERE booked IS TRUE)"

private def axis (name : String) (choices : List String) : String × Value :=
  (name, .list (choices.map .text))

def timeFormats : String × Value :=
  axis "timeFormat" ["seconds", "minutes", "hours", "human_readable"]

def calculations : String × Value := axis "calculation" ["average", "median"]

def total (key name description : String) (unit : MetricUnit) (table value : String)
    (gap : Bool := false) (conditions : List String := []) (options : Fields := []) : Metric :=
  { key, name, description, breakdown := .total, unit, table
    columns := [value ++ " AS value"], conditions, groups := [], having := [], order := []
    formula := none, attribution := none, options, gapWhenEmpty := gap }

/-- An appointment metric with one value for each rep. -/
def byRep (key name description : String) (unit : MetricUnit) (value : String)
    (gap : Bool := false) (conditions : List String := []) : Metric :=
  { key, name, description, breakdown := .rep, unit, table := "appointments"
    columns := ["sales_rep_user_id AS rep_id", value ++ " AS value"], conditions
    groups := ["sales_rep_user_id"], having := ["COUNT(*) > 0"], order := ["value DESC"]
    formula := none, attribution := none, options := [], gapWhenEmpty := gap }

def countBy (key name description : String) (breakdown : Breakdown)
    (keys : List (String × String)) : Metric :=
  { key, name, description, breakdown, unit := .count, table := "appointments"
    columns := (keys.map fun (c, n) => c ++ " AS " ++ n) ++ ["COUNT(*) AS value"], conditions := []
    groups := keys.map Prod.fst, having := [], order := ["value DESC"]
    formula := none, attribution := none, options := [], gapWhenEmpty := false }

def special (key name description : String) (unit : MetricUnit) (table : String)
    (formula : Formula) (breakdown : Breakdown := .total) (options : Fields := [])
    (gap : Bool := false) : Metric :=
  { key, name, description, breakdown, unit, table
    columns := [], conditions := [], groups := [], having := [], order := []
    formula := some formula, attribution := none, options, gapWhenEmpty := gap }

def appointmentMetrics : List Metric := [
  total "total_appointments" "Total Appointments" "Total count of all appointments"
    .count "appointments" rows,
  total "show_ups" "Show Ups" "Appointments where the lead showed up"
    .count "appointments" shows,
  total "sales_made" "Sales Made" "Appointments that closed as won"
    .count "appointments" wins,
  total "show_up_rate" "Show Up Rate" "Share of appointments that showed"
    .percent "appointments" (ratio shows rows) true,
  total "appointment_to_sale_rate" "Appointment to Sale Rate" "Share of appointments that closed"
    .percent "appointments" (ratio wins rows) true,
  total "pitch_to_sale_rate" "Pitch to Sale Rate" "Share of shown appointments that closed"
    .percent "appointments" (ratio wins shows) true,
  total "booking_to_close" "Booking to Close" "Share of setter-booked appointments that closed"
    .percent "appointments" (ratio wins rows) true ["setter_user_id IS NOT NULL"],
  total "cash_collected" "Cash Collected" "Sum of cash collected on appointments"
    .currency "appointments" cash,
  total "cash_per_sale" "Cash per Sale" "Cash collected divided by sales made"
    .currency "appointments" (ratio cash wins) true,
  total "cash_per_appointment" "Cash per Appointment" "Cash collected divided by appointments"
    .currency "appointments" (ratio cash rows) true,
  total "average_contract_value_per_sale" "Average Contract Value"
    "Total sales value divided by sales made"
    .currency "appointments" (ratio revenue wins) true,
  total "total_revenue_generated" "Total Revenue Generated"
    "Sum of contract value on appointments"
    .currency "appointments" revenue,
  total "pif_rate" "PIF Rate" "Share of sales paid in full"
    .percent "appointments"
    (ratio "COUNT(*) FILTER (WHERE show_outcome = 'won' AND pif IS TRUE)" wins) true,
  total "cash_collection_rate" "Cash Collection Rate"
    "Cash collected as a share of contract value"
    .percent "appointments" (ratio cash revenue) true,
  total "lead_quality" "Lead Quality" "Average lead quality score on appointments"
    .count "appointments" "COALESCE(AVG(lead_quality), 0)" true ["lead_quality IS NOT NULL"],
  countBy "total_appointments_reps" "Total Appointments (Reps)"
    "Count of all appointments grouped by sales rep" .rep [("sales_rep_user_id", "rep_id")],
  countBy "total_appointments_setters" "Total Appointments (Setters)"
    "Count of all appointments grouped by setter" .setter [("setter_user_id", "setter_id")],
  countBy "appointments_link" "Appointments (Setter → Rep Link)"
    "Appointments showing the link between setters and reps" .link
    [("setter_user_id", "setter_id"), ("sales_rep_user_id", "rep_id")],
  byRep "show_rate_reps" "Show Rate (Reps)"
    "Share of appointments that showed, grouped by rep" .percent (ratio shows rows) true,
  byRep "close_rate_reps" "Close Rate (Reps)"
    "Share of shows that closed, grouped by rep" .percent (ratio wins rows) true
    ["LOWER(call_outcome) = 'show'"],
  byRep "total_revenue_reps" "Total Revenue (Reps)"
    "Sum of cash collected grouped by rep" .currency cash]

def discoveryMetrics : List Metric := [
  total "total_discoveries" "Total Discoveries" "Total count of discovery calls"
    .count "discoveries" rows,
  total "show_ups_discoveries" "Discovery Show Ups" "Discovery calls where the lead showed up"
    .count "discoveries" shows,
  total "discovery_lead_quality" "Discovery Lead Quality"
    "Average lead quality score on discovery calls"
    .count "discoveries" "COALESCE(AVG(lead_quality), 0)" true ["lead_quality IS NOT NULL"]]

def dialMetrics : List Metric := [
  total "total_dials" "Total Dials" "Total outbound dials" .count "dials" rows,
  total "answers" "Answers" "Dials that were answered" .count "dials" answered,
  total "meaningful_conversations" "Meaningful Conversations"
    "Dials flagged as meaningful conversations" .count "dials" meaningful,
  total "booked_calls" "Booked Calls" "Dials that produced a booking" .count "dials" booked,
  total "meaningful_conversation_avg_call_length" "Avg Meaningful Call Length"
    "Average duration of meaningful conversations" .seconds "dials"
    "COALESCE(AVG(duration), 0)" true ["meaningful_conversation IS TRUE"] [timeFormats],
  total "average_call_duration" "Average Call Duration" "Average duration of answered dials"
    .seconds "dials" "COALESCE(AVG(duration), 0)" true ["answered IS TRUE", "duration > 0"]
    [timeFormats],
  total "answer_per_dial" "Answer per Dial" "Share of dials that were answered"
    .percent "dials" (ratio answered rows) true,
  total "dials_per_booking" "Dials per Booking" "Dials needed for each booking"
    .count "dials" (ratio rows booked) true,
  total "answer_to_conversation_ratio" "Answer to Conversation"
    "Share of answered dials that became meaningful conversations"
    .percent "dials" (ratio meaningful answered) true,
  total "meaningful_conversation_to_booking_ratio" "Conversation to Booking"
    "Share of meaningful conversations that booked"
    .percent "dials" (ratio booked meaningful) true]

def leadMetrics : List Metric := [
  total "total_leads" "Total Leads" "Distinct contacts created in the range"
    .count "contacts" "COUNT(DISTINCT id)",
  total "ad_spend" "Ad Spend" "Meta ad spend in the range"
    .currency "meta_ad_performance" "COALESCE(SUM(spend), 0)"]

def baseMetrics : List Metric :=
  appointmentMetrics ++ discoveryMetrics ++ dialMetrics ++ leadMetrics

def specialMetrics : List Metric := [
  special "roi" "ROI" "Cash collected divided by ad spend" .percent "appointments" .roi,
  special "rep_roi" "Rep ROI"
    "Cash collected against the ad spend allocated by appointment share"
    .percent "appointments" .repRoi .rep [axis "roiDisplay" ["percent", "multiplier"]],
  special "rep_roi_multiplier" "Rep ROI (Multiplier)"
    "Rep cash as a multiple of allocated ad spend"
    .count "appointments" .repRoi .rep [axis "roiDisplay" ["multiplier"]],
  special "cost_per_booked_call" "Cost per Booked Call" "Ad spend divided by appointments"
    .currency "appointments" .costPerBookedCall,
  special "cost_per_booked_call_reps" "Cost per Booked Call (Reps)"
    "Account cost per booked call, by rep"
    .currency "appointments" .costPerBookedCall .rep,
  special "cost_per_booked_call_setters" "Cost per Booked Call (Setters)"
    "Account cost per booked call, by setter"
    .currency "appointments" .costPerBookedCall .setter,
  special "cost_per_booked_call_link" "Cost per Booked Call (Setter → Rep)"
    "Account cost per booked call, by setter and rep pair"
    .currency "appointments" .costPerBookedCall .link,
  special "speed_to_lead" "Speed to Lead" "Time from lead creation to the first dial"
    .seconds "contacts" .speedToLead .total
    [calculations, timeFormats, ("businessHours", .list [.bool false, .bool true])] true,
  special "lead_to_appointment" "Lead to Appointment"
    "Share of new leads that booked an appointment"
    .percent "contacts" .leadToAppointment .total [] true,
  special "data_completion_rate" "Data Completion Rate"
    "Share of past appointments and discoveries with outcome data filled"
    .percent "appointments" .dataCompletionRate .total [] true,
  special "overdue_items" "Overdue Items"
    "Unfilled appointments and discoveries more than 24 hours past"
    .count "appointments" .overdueItems,
  special "overdue_percentage" "Overdue Percentage"
    "Share of unfilled items that are overdue"
    .percent "appointments" .overduePercentage .total [] true,
  special "cash_per_dial" "Cash per Dial" "Cash collected on dial-booked appointments per dial"
    .currency "dials" .cashPerDial .total [] true,
  special "booking_lead_time" "Booking Lead Time"
    "Days between booking and the scheduled appointment"
    .days "appointments" .bookingLeadTime .total [calculations] true,
  special "bookings_per_hour" "Bookings per Hour" "Bookings divided by hours worked"
    .count "work_timeframes" .workTimeframe,
  special "dials_per_hour" "Dials per Hour" "Dials divided by hours worked"
    .count "work_timeframes" .workTimeframe,
  special "hours_worked" "Hours Worked"
    "Hours between first and last dial, per caller per day"
    .hours "work_timeframes" .workTimeframe]

def keyed (ms : List Metric) : Named Metric := ms.map fun m => (m.key, m)

/-- All metrics under their keys: the families of the base metrics, then the special ones. -/
def all : Named Metric := Named.putAll (Metric.families (keyed baseMetrics)) (keyed specialMetrics)

def find? (name : String) : Option Metric := all.find? name

def sortedNames : List String := all.names.mergeSort fun a b => decide (a ≤ b)

def withBreakdown (b : Breakdown) : List Metric :=
  (all.map Prod.snd).filter fun m => m.breakdown == b

def options (name : String) : Fields :=
  match find? name with
  | some m => m.options
  | none => []

end Funnel.Registry
