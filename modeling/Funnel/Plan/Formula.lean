import Funnel.Catalog.Metric
import Funnel.Filter.Standard
import Funnel.Hours.Shift
import Funnel.Number.Sum
import Funnel.Value.Figure

/-!
# Formulas over several queries

A formula has a few named queries and a step that combines their rows, by the zones that are known.
Denominators that describe the whole account, spend and total appointments, are never narrowed to
people; only the credited side is.
-/

set_option autoImplicit false

namespace Funnel.Plan

open Number Calendar

abbrev Results := String → Value

abbrev Rows := List Value

structure FormulaPlan where
  formula : Formula
  breakdown : Breakdown
  queries : Named BoundQuery
  combine : Zones → Results → Except Fault Rows

def formulaQuery (b : Breakdown) (query : Select) (params : Fields) : BoundQuery :=
  { query, params, strategy := .special, breakdown := b }

def valueRow (v : Value) : Rows := [.object [("value", v)]]

def doubleRow (x : Float) : Rows := valueRow (.double x)

/-- The number in a field of the first row; zero without rows or number. -/
def scalar (rows : Value) (field : String) : Except Fault Float :=
  if rows.isGiven then do .ok (Value.orZero (← (← (← rows.first).get field).number?)) else .ok 0.0

def scalarValue (rows : Value) : Except Fault Float := scalar rows "value"

def safeDiv (x y : Float) : Float := if y == 0 then 0.0 else x / y

inductive Aggregate where
  | average | median
deriving DecidableEq

/-- The aggregate that a setting names; any other setting means the average. -/
def Aggregate.ofValue : Value → Aggregate
  | .text "median" => .median
  | _ => .average

/-- The median or the mean of some numbers; null where there are none. -/
def Aggregate.apply (a : Aggregate) (xs : List Float) : Except Fault Value :=
  match xs with
  | [] => .ok .null
  | xs =>
    match a with
    | .median => .ok (.double (Number.median xs))
    | .average =>
      match exactSum? xs with
      | some total => .ok (.double (total / ofInt xs.length))
      | none => .error .outOfRange

def setting (settings : Fields) (name : String) : Value := (settings.find? name).getD .null

def sumSelect (t : Table) (expression : String) (conditions : List String) : Select :=
  .simple [expression ++ " AS value"] t.name (sqlConditions conditions)

def sumQuery (t : Table) (expression : String) (f : Filters) (narrowed : Bool) (b : Breakdown) :
    Except Fault BoundQuery := do
  let applied ← Standard.apply f t none narrowed
  .ok (formulaQuery b (sumSelect t expression applied.sql) applied.params)

def spendQuery (f : Filters) (b : Breakdown) : Except Fault BoundQuery :=
  sumQuery .adPerformance "COALESCE(SUM(spend), 0)" f false b

def totalAppointmentsQuery (f : Filters) (b : Breakdown) : Except Fault BoundQuery :=
  sumQuery .appointments "COUNT(*)" f false b

def roiPlan (f : Filters) : Except Fault FormulaPlan := do
  let cash ← sumQuery .appointments "COALESCE(SUM(cash_collected), 0)" f true .total
  let spend ← spendQuery f .total
  .ok {
    formula := .roi
    breakdown := .total
    queries := [("cash", cash), ("spend", spend)]
    combine := fun _ results => do
      let cash ← scalarValue (results "cash")
      let spend ← scalarValue (results "spend")
      .ok (doubleRow (safeDiv cash spend)) }

/-- The spend that falls on a rep by the share of appointments. -/
def allocatedCost (appointments spend totalAppointments : Float) : Float :=
  safeDiv spend totalAppointments * appointments

/-- Cash as a multiple of the allocated spend, or less one as a percentage. Without allocated
spend it is zero either way. -/
def repRoi (cash appointments spend totalAppointments : Float) (asMultiple : Bool) : Float :=
  let cost := allocatedCost appointments spend totalAppointments
  if cost == 0 then 0.0
  else if asMultiple then cash / cost
  else cash / cost - 1

/-- The same for values of any kind, which have to be figures. A total that is not given leaves
nothing to allocate. -/
def repRoiOfValues (cash appointments spend totalAppointments : Value) (asMultiple : Bool) :
    Except Fault Value := do
  let each ←
    if totalAppointments.isGiven then do
      (← Figure.ofValue spend).div (← Figure.ofValue totalAppointments)
    else .ok (.double 0.0)
  let cost ← each.mul (← Figure.ofValue appointments)
  if cost.isZero then .ok (.double 0.0)
  else
    let multiple ← (← Figure.ofValue cash).div cost
    if asMultiple then .ok multiple.toValue else .ok (← multiple.sub (.whole 1)).toValue

structure RepStats where
  cash : Float
  appointments : Float

def numberOrZero (v : Value) : Except Fault Float := do
  .ok (Value.orZero (← v.number?))

/-- The stats of the rows that name a rep; the last row of a rep counts. -/
def repStats (rows : List Value) : Except Fault (Named RepStats) :=
  rows.foldlM (fun stats row => do
    let rep ← row.get "rep_id"
    if rep.isGiven then do
      let cash ← numberOrZero (← row.get "cash")
      let appointments ← numberOrZero (← row.get "appointments")
      .ok (Named.put stats rep.toText ⟨cash, appointments⟩)
    else .ok stats) []

/-- The stats with a zero entry for every requested rep that has none. -/
def withRequested (stats : Named RepStats) (requested : List String) : Named RepStats :=
  requested.foldl (fun stats id =>
    if id ∈ stats.names then stats else stats ++ [(id, ⟨0.0, 0.0⟩)]) stats

def repRows (stats : Named RepStats) (spend total : Float) (asMultiple : Bool) :
    List (String × Float) :=
  (stats.map fun (id, s) => (id, repRoi s.cash s.appointments spend total asMultiple)).mergeSort
    fun a b => !decide (a.2 < b.2)

/-- Cash and appointments by rep. -/
def repStatsSelect (conditions : List String) : Select :=
  .mk ["sales_rep_user_id AS rep_id", "COUNT(*) AS appointments",
      "COALESCE(SUM(cash_collected), 0) AS cash"] "appointments" []
    (sqlConditions (conditions ++ ["sales_rep_user_id IS NOT NULL"]))
    ["sales_rep_user_id"] [] [] []

def repStatsQuery (f : Filters) (b : Breakdown) : Except Fault BoundQuery := do
  let applied ← Standard.apply f .appointments none true
  .ok (formulaQuery b (repStatsSelect applied.sql) applied.params)

def repRoiPlan (m : Metric) (f : Filters) (settings : Fields) (b : Breakdown) :
    Except Fault FormulaPlan := do
  let asMultiple := m.key == "rep_roi_multiplier" ||
    (match setting settings "roiDisplay" with
      | .text s => s == "multiplier"
      | _ => false)
  let stats ← repStatsQuery f b
  let total ← totalAppointmentsQuery f b
  let spend ← spendQuery f b
  .ok {
    formula := .repRoi
    breakdown := b
    queries := [("rep_stats", stats), ("total_appointments", total), ("spend", spend)]
    combine := fun _ results => do
      let spend ← scalarValue (results "spend")
      let total ← scalarValue (results "total_appointments")
      let stats ← repStats (← (results "rep_stats").entries)
      let stats := withRequested stats (Identifier.kept f.repIds)
      if b = .rep then
        .ok ((repRows stats spend total asMultiple).map fun (id, x) =>
          .object [("rep_id", .text id), ("value", .double x)])
      else
        let cash := plainSum (stats.map fun p => p.2.cash)
        let appointments := plainSum (stats.map fun p => p.2.appointments)
        .ok (doubleRow (repRoi cash appointments spend total asMultiple)) }

def entitiesSelect (keys : List (String × String)) (conditions : List String) : Select :=
  .mk ((keys.map fun (c, n) => c ++ " AS " ++ n) ++ ["COUNT(*) AS appointments"])
    "appointments" []
    (sqlConditions (conditions ++ keys.map fun (c, _) => c ++ " IS NOT NULL"))
    (keys.map Prod.fst) [] ["appointments DESC"] []

def entitiesQuery (f : Filters) (b : Breakdown) (keys : List (String × String)) :
    Except Fault BoundQuery := do
  let applied ← Standard.apply f .appointments none true
  .ok (formulaQuery b (entitiesSelect keys applied.sql) applied.params)

def entityRow (keys : List (String × String)) (cost : Float) (entity : Value) :
    Except Fault Value := do
  let ids ← keys.mapM fun (_, n) => do .ok (n, ← entity.get n)
  let appointments ← numberOrZero (← entity.get "appointments")
  .ok (.object (Named.putAll ids [("appointments", .double appointments), ("value", .double cost)]))

def costPerBookedCallPlan (f : Filters) (b : Breakdown) : Except Fault FormulaPlan := do
  let total ← totalAppointmentsQuery f b
  let spend ← spendQuery f b
  let keys := Table.appointments.keys b
  let entities ← if keys.isEmpty then .ok [] else do .ok [("entities", ← entitiesQuery f b keys)]
  .ok {
    formula := .costPerBookedCall
    breakdown := b
    queries := [("total_appointments", total), ("spend", spend)] ++ entities
    combine := fun _ results => do
      let spend ← scalarValue (results "spend")
      let total ← scalarValue (results "total_appointments")
      let cost := safeDiv spend total
      if keys.isEmpty then .ok (doubleRow cost)
      else (← (results "entities").entries).mapM (entityRow keys cost) }

def accountQuery (f : Filters) : BoundQuery :=
  formulaQuery .total
    (.simple ["business_timezone", "business_hours"] "accounts" [.sql "id = $account_id"])
    [("account_id", Standard.accountValue f)]

/-- Leads with their first dials, from conditions on the leads and on the dials. -/
def pairsSelect (leads dialers : List String) : Select :=
  let on := " AND ".intercalate
    (["d.contact_id = c.id", "d.account_id = c.account_id", "d.date_called >= c.ghl_created_at"] ++
      dialers)
  .mk ["c.id AS contact_id", "c.phone AS phone", "c.ghl_created_at AS lead_created_at",
      "MIN(d.date_called) AS first_dial_at"] "contacts c" [⟨"dials d", on, some "INNER"⟩]
    (sqlConditions leads) ["c.id", "c.phone", "c.ghl_created_at"] [] [] []

def pairsQuery (f : Filters) : Except Fault BoundQuery := do
  let leads ← Standard.apply f .contacts (some "c") true
  let dialers := Standard.users f .dials (some "d")
  .ok (formulaQuery .total (pairsSelect leads.sql dialers.sql)
    (Named.putAll leads.params dialers.params))

/-- Seconds from a lead to its first dial, not below zero; none where a time cannot be read. -/
def pairSeconds (known : Zones) (hours : Option (List Hours.Window × Hours.Window))
    (row : Value) : Except Fault (Option Float) := do
  let created := (← row.get "lead_created_at").timestamp?
  let dialed := (← row.get "first_dial_at").timestamp?
  match created, dialed with
  | some created, some dialed => do
    let created ← match hours with
      | none => .ok created
      | some (windows, default) => do
        let phone ← Hours.phoneText (← row.get "phone")
        Hours.shiftBy known created (Hours.windowFor phone windows default)
    let micros := dialed.instant - created.instant
    let x := nearest (decide (micros < 0)) micros.natAbs 1000000
    .ok (some (if x < 0 then 0.0 else x))
  | _, _ => .ok none

def speedToLeadPlan (f : Filters) (settings : Fields) : Except Fault FormulaPlan := do
  let method := Aggregate.ofValue <|
    (setting settings "speedToLeadCalculation").orElse (setting settings "calculation")
  let inHours := (setting settings "speedToLeadBusinessHours").isGiven ||
    (setting settings "businessHours").isGiven
  let pairs ← pairsQuery f
  .ok {
    formula := .speedToLead
    breakdown := .total
    queries := [("pairs", pairs), ("account", accountQuery f)]
    combine := fun known results => do
      let account ←
        if (results "account").isGiven then (results "account").first else .ok (.object [])
      let zone := (← account.get "business_timezone").orElse (.text "UTC")
      let windows ← Hours.parse (← account.get "business_hours")
      let hours := if inHours then some (windows, Hours.Window.standard zone) else none
      let seconds ← (← (results "pairs").entries).mapM (pairSeconds known hours)
      .ok (valueRow (← method.apply (seconds.filterMap id))) }

/-- The share of leads with an appointment. The conditions on owners stand in the join, so that
every lead is counted below the line. -/
def conversionSelect (leads owners : List String) : Select :=
  let on := " AND ".intercalate
    (["a.contact_id = c.id", "a.account_id = c.account_id"] ++ owners)
  .mk
    ["COALESCE(COUNT(DISTINCT a.contact_id)::numeric / NULLIF(COUNT(DISTINCT c.id), 0), 0) " ++
      "AS value"]
    "contacts c" [⟨"appointments a", on, some "LEFT"⟩] (sqlConditions leads) [] [] [] []

def conversionQuery (f : Filters) : Except Fault BoundQuery := do
  let leads ← Standard.apply f .contacts (some "c") true
  let owners := Standard.users f .appointments (some "a")
  .ok (formulaQuery .total (conversionSelect leads.sql owners.sql)
    (Named.putAll leads.params owners.params))

def leadToAppointmentPlan (f : Filters) : Except Fault FormulaPlan := do
  let conversion ← conversionQuery f
  .ok {
    formula := .leadToAppointment
    breakdown := .total
    queries := [("conversion", conversion)]
    combine := fun _ results => do .ok (doubleRow (← scalarValue (results "conversion"))) }

def assignedSelect (t : Table) (columns more conditions : List String) : Select :=
  .simple columns t.name
    (sqlConditions (conditions ++ ["sales_rep_user_id IS NOT NULL"] ++ more))

/-- Appointments and discoveries that have a rep, taken together. -/
def recordsCte (columns more appointments discoveries : List String) : Cte :=
  .mk "records" (.unionAll [assignedSelect .appointments columns more appointments,
    assignedSelect .discoveries columns more discoveries])

def recordsQuery (f : Filters) (columns more : List String) (value : String)
    (conditions : List String) : Except Fault BoundQuery := do
  let appointments ← Standard.apply f .appointments none true
  let discoveries ← Standard.apply f .discoveries none true
  .ok (formulaQuery .total
    (.mk [value ++ " AS value"] "records" [] (sqlConditions conditions) [] [] []
      [recordsCte columns more appointments.sql discoveries.sql])
    (Named.putAll appointments.params discoveries.params))

def completionQuery (f : Filters) : Except Fault BoundQuery :=
  recordsQuery f ["data_filled"] ["date_booked_for < now()"]
    "COALESCE(COUNT(*) FILTER (WHERE data_filled IS TRUE)::numeric / NULLIF(COUNT(*), 0), 0)" []

def dataCompletionPlan (f : Filters) : Except Fault FormulaPlan := do
  let completion ← completionQuery f
  .ok {
    formula := .dataCompletionRate
    breakdown := .total
    queries := [("completion", completion)]
    combine := fun _ results => do .ok (doubleRow (← scalarValue (results "completion"))) }

/-- Scheduled more than a day ago. -/
def overdue : String := "date_booked_for < now() - interval '24 hours'"

def overdueValue (formula : Formula) : String :=
  let count := "COUNT(*) FILTER (WHERE " ++ overdue ++ ")"
  if formula = .overduePercentage then
    "COALESCE(" ++ count ++ "::numeric / NULLIF(COUNT(*), 0), 0)"
  else count

def overdueQuery (formula : Formula) (f : Filters) : Except Fault BoundQuery :=
  recordsQuery f ["date_booked_for", "data_filled"] [] (overdueValue formula)
    ["data_filled IS NOT TRUE"]

def overduePlan (formula : Formula) (f : Filters) : Except Fault FormulaPlan := do
  let query ← overdueQuery formula f
  .ok {
    formula
    breakdown := .total
    queries := [("overdue", query)]
    combine := fun _ results => do .ok (doubleRow (← scalarValue (results "overdue"))) }

def dialsSelect (conditions : List String) : Select :=
  .simple ["COUNT(*) AS value"] "dials d" (sqlConditions conditions)

def bookedSelect (conditions : List String) : Select :=
  .simple ["d.booked_appointment_id"] "dials d"
    (sqlConditions (conditions ++ ["d.booked_appointment_id IS NOT NULL"]))

def cashSelect (conditions : List String) : Select :=
  .simple ["COALESCE(SUM(a.cash_collected), 0) AS value"] "appointments a"
    [.sql "a.account_id = $account_id", .within "a.id" (bookedSelect conditions)]

def cashPerDialPlan (f : Filters) : Except Fault FormulaPlan := do
  let applied ← Standard.apply f .dials (some "d") true
  .ok {
    formula := .cashPerDial
    breakdown := .total
    queries := [("dials", formulaQuery .total (dialsSelect applied.sql) applied.params),
      ("cash", formulaQuery .total (cashSelect applied.sql) applied.params)]
    combine := fun _ results => do
      let cash ← scalarValue (results "cash")
      let dials ← scalarValue (results "dials")
      .ok (doubleRow (safeDiv cash dials)) }

def leadTimesSelect (conditions : List String) : Select :=
  .simple ["EXTRACT(EPOCH FROM (date_booked_for - date_booked)) / 86400.0 AS days"] "appointments"
    (sqlConditions (conditions ++ ["date_booked IS NOT NULL", "date_booked_for >= date_booked"]))

def leadTimesQuery (f : Filters) : Except Fault BoundQuery := do
  let applied ← Standard.apply f .appointments none true
  .ok (formulaQuery .total (leadTimesSelect applied.sql) applied.params)

def bookingLeadTimePlan (f : Filters) (settings : Fields) : Except Fault FormulaPlan := do
  let method := Aggregate.ofValue <|
    (setting settings "bookingLeadTimeCalculation").orElse (setting settings "calculation")
  let times ← leadTimesQuery f
  .ok {
    formula := .bookingLeadTime
    breakdown := .total
    queries := [("lead_times", times)]
    combine := fun _ results => do
      let days ← (← (results "lead_times").entries).mapM fun r => do (← r.get "days").number?
      .ok (valueRow (← method.apply (days.filterMap id))) }

/-- The text by which a missing plan is reported. -/
def formulaName : Option Formula → String
  | none => "None"
  | some .workTimeframe => "SpecialFormula.WORK_TIMEFRAME"
  | some f => f.text

/-- The plan of a special metric; work timeframes are not counted by queries. -/
def formula (m : Metric) (f : Filters) (settings : Fields) (b : Breakdown) :
    Except Fault FormulaPlan :=
  match m.formula with
  | none | some .workTimeframe => .error (.noPlan (formulaName m.formula))
  | some .roi => roiPlan f
  | some .repRoi => repRoiPlan m f settings b
  | some .costPerBookedCall => costPerBookedCallPlan f b
  | some .speedToLead => speedToLeadPlan f settings
  | some .leadToAppointment => leadToAppointmentPlan f
  | some .dataCompletionRate => dataCompletionPlan f
  | some .overdueItems => overduePlan .overdueItems f
  | some .overduePercentage => overduePlan .overduePercentage f
  | some .cashPerDial => cashPerDialPlan f
  | some .bookingLeadTime => bookingLeadTimePlan f settings

end Funnel.Plan
