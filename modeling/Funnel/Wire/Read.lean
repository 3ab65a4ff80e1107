import Funnel.DataView.Account
import Funnel.Wire.Check

/-!
# Requests and responses on the wire

How each kind of data is read. A result says by its `type` which kind of rows it holds, and the
way to a violation inside it goes through that name.
-/

set_option autoImplicit false

namespace Funnel.Wire

/-- A response with the time at which it was made and how long it took. -/
structure Report where
  metricName : String
  filters : Filters
  result : Result
  breakdown : Breakdown
  strategy : String
  executedAt : String
  executionTimeMs : Int

structure Figure where
  value : Float
  display : String
  unit : MetricUnit

structure UsersRequest where
  accountId : String
  userIds : List String
  metricNames : List String
  range : DateRange
  settings : Fields

structure PeriodsRequest extends UsersRequest where
  periodType : String

structure AccountRequest where
  accountId : String
  metricName : String
  range : DateRange
  settings : Fields

def dateRange (rule : Rule) : Reader DateRange := record rule fun r =>
  (Checked.and (.ok DateRange.mk) (r.optional "start" none (nullable text)))
    |>.and (r.optional "end" none (nullable text))

def filters (rule : Rule) : Reader Filters := record rule fun r =>
  (Checked.and (.ok Filters.mk) (r.optional "dateRange" none (nullable (dateRange rule))))
    |>.and (r.optional "accountId" none (nullable text))
    |>.and (r.optional "repIds" [] (listOf text))
    |>.and (r.optional "setterIds" [] (listOf text))

def breakdown : Reader Breakdown := member Breakdown.all Breakdown.text

def options (rule : Rule) : Reader Options := record rule fun r =>
  (Checked.and (.ok Options.mk) (r.optional "vizType" none (nullable text)))
    |>.and (r.optional "dynamicBreakdown" none (nullable breakdown))
    |>.and (r.optional "widgetSettings" [] (mapOf anyValue))

def request (rule : Rule) : Reader Request := record rule fun r =>
  (Checked.and (.ok Request.mk) (r.required "metricName" text))
    |>.and (r.required "filters" (filters rule))
    |>.and (r.optional "options" none (nullable (options rule)))

def totalValue (rule : Rule) : Reader Float := record rule fun r => r.optional "value" 0.0 double

/-- A row of one person, who stands with a name under fields of their own. -/
def personRow {Row : Type} (make : String → Option String → Float → Row)
    (idName nameName : String) (rule : Rule) : Reader Row := record rule fun r =>
  (Checked.and (.ok make) (r.required idName text))
    |>.and (r.optional nameName none (nullable text))
    |>.and (r.optional "value" 0.0 double)

def repRow : Rule → Reader RepRow := personRow .mk "repId" "repName"

def setterRow : Rule → Reader SetterRow := personRow .mk "setterId" "setterName"

def linkRow (rule : Rule) : Reader LinkRow := record rule fun r =>
  (Checked.and (.ok LinkRow.mk) (r.required "setterId" text))
    |>.and (r.optional "setterName" none (nullable text))
    |>.and (r.required "repId" text)
    |>.and (r.optional "repName" none (nullable text))
    |>.and (r.optional "value" 0.0 double)

def timeRow (rule : Rule) : Reader TimeRow := record rule fun r =>
  (Checked.and (.ok TimeRow.mk) (r.required "date" text))
    |>.and (r.optional "value" (some 0.0) (nullable double))

def resultOf (rule : Rule) (b : Breakdown) (r : Record) : Checked Result :=
  match b with
  | .total => (r.optional "data" 0.0 (totalValue rule)).map .total
  | .rep => (r.optional "data" [] (listOf (repRow rule))).map .rep
  | .setter => (r.optional "data" [] (listOf (setterRow rule))).map .setter
  | .link => (r.optional "data" [] (listOf (linkRow rule))).map .link
  | .time => (r.optional "data" [] (listOf (timeRow rule))).map .time

def result (rule : Rule) : Reader Result := fun path v =>
  match v with
  | .object fields =>
    match fieldOf fields "type" with
    | none => violated .unionTagNotFound path
    | some tag =>
      match breakdown path tag with
      | .ok b => resultOf rule b ⟨path ++ [.field b.text], fields⟩
      | .error _ => violated .unionTagInvalid path
  | _ => violated .modelAttributesType path

def report (rule : Rule) : Reader Report := record rule fun r =>
  (Checked.and (.ok Report.mk) (r.required "metricName" text))
    |>.and (r.required "filters" (filters rule))
    |>.and (r.required "result" (result rule))
    |>.and (r.required "effectiveBreakdown" breakdown)
    |>.and (r.required "strategy" text)
    |>.and (r.required "executedAt" text)
    |>.and (r.required "executionTimeMs" whole)

def cell (rule : Rule) : Reader Cell := record rule fun r =>
  (Checked.and (.ok Cell.mk) (r.optional "value" 0.0 double))
    |>.and (r.optional "displayValue" "0" text)
    |>.and (r.optional "role" "none" text)
    |>.and (r.optional "breakdown" none (nullable (mapOf double)))

def userRow (rule : Rule) : Reader UserRow := record rule fun r =>
  (Checked.and (.ok UserRow.mk) (r.required "userId" text))
    |>.and (r.required "name" text)
    |>.and (r.optional "accountRole" none (nullable text))
    |>.and (r.optional "metrics" [] (mapOf (cell rule)))

def periodRow (rule : Rule) : Reader PeriodRow := record rule fun r =>
  (Checked.and (.ok PeriodRow.mk) (r.required "userId" text))
    |>.and (r.required "name" text)
    |>.and (r.required "metricName" text)
    |>.and (r.optional "periods" [] (mapOf double))
    |>.and (r.optional "total" 0.0 double)

def figure (rule : Rule) : Reader Figure := record rule fun r =>
  (Checked.and (.ok Figure.mk) (r.optional "value" 0.0 double))
    |>.and (r.optional "displayValue" "0" text)
    |>.and (r.optional "unit" .count (member MetricUnit.all MetricUnit.text))

def usersFields (rule : Rule) (r : Record) : Checked UsersRequest :=
  (Checked.and (.ok UsersRequest.mk) (r.required "accountId" text))
    |>.and (r.required "userIds" (listOf text))
    |>.and (r.required "metricNames" (listOf text))
    |>.and (r.required "dateRange" (dateRange rule))
    |>.and (r.optional "options" [] (mapOf anyValue))

def usersRequest (rule : Rule) : Reader UsersRequest := record rule (usersFields rule)

def periodsRequest (rule : Rule) : Reader PeriodsRequest := record rule fun r =>
  (Checked.and (.ok PeriodsRequest.mk) (usersFields rule r))
    |>.and (r.optional "periodType" "weekly" text)

def accountRequest (rule : Rule) : Reader AccountRequest := record rule fun r =>
  (Checked.and (.ok AccountRequest.mk) (r.required "accountId" text))
    |>.and (r.required "metricName" text)
    |>.and (r.required "dateRange" (dateRange rule))
    |>.and (r.optional "options" [] (mapOf anyValue))

end Funnel.Wire
