import Funnel.Wire.Read

/-!
# Writing wire data

Every kind of data is written with all of its fields under their wire names.
-/

set_option autoImplicit false

namespace Funnel

def Value.ofText? : Option String → Value
  | some s => .text s
  | none => .null

def Value.ofDouble? : Option Float → Value
  | some x => .double x
  | none => .null

def Value.ofTexts (ts : List String) : Value := .list (ts.map .text)

def DateRange.write (r : DateRange) : Value :=
  .object [("start", .ofText? r.start), ("end", .ofText? r.finish)]

def Filters.write (f : Filters) : Value :=
  .object [
    ("dateRange", match f.dateRange with
      | some r => r.write
      | none => .null),
    ("accountId", .ofText? f.accountId),
    ("repIds", .ofTexts f.repIds),
    ("setterIds", .ofTexts f.setterIds)]

def Options.write (o : Options) : Value :=
  .object [
    ("vizType", .ofText? o.vizType),
    ("dynamicBreakdown", .ofText? (o.breakdown.map Breakdown.text)),
    ("widgetSettings", .object o.settings)]

def Request.write (r : Request) : Value :=
  .object [
    ("metricName", .text r.metricName),
    ("filters", r.filters.write),
    ("options", match r.options with
      | some o => o.write
      | none => .null)]

def RepRow.write (r : RepRow) : Value :=
  .object [("repId", .text r.repId), ("repName", .ofText? r.repName), ("value", .double r.value)]

def SetterRow.write (r : SetterRow) : Value :=
  .object [("setterId", .text r.setterId), ("setterName", .ofText? r.setterName),
    ("value", .double r.value)]

def LinkRow.write (r : LinkRow) : Value :=
  .object [("setterId", .text r.setterId), ("setterName", .ofText? r.setterName),
    ("repId", .text r.repId), ("repName", .ofText? r.repName), ("value", .double r.value)]

def TimeRow.write (r : TimeRow) : Value :=
  .object [("date", .text r.date), ("value", .ofDouble? r.value)]

namespace Result

def writeData : Result → Value
  | .total x => .object [("value", .double x)]
  | .rep rows => .list (rows.map RepRow.write)
  | .setter rows => .list (rows.map SetterRow.write)
  | .link rows => .list (rows.map LinkRow.write)
  | .time rows => .list (rows.map TimeRow.write)

def write (r : Result) : Value :=
  .object [("type", .text r.breakdown.text), ("data", r.writeData)]

end Result

/-- The fields of a response that do not depend on the clock. -/
def Response.fields (r : Response) : Fields :=
  [("metricName", .text r.metricName), ("filters", r.filters.write), ("result", r.result.write),
    ("effectiveBreakdown", .text r.breakdown.text), ("strategy", .text r.strategy.text)]

def Response.write (r : Response) : Value := .object r.fields

namespace Wire

/-- A response at a moment, after some time. -/
def Report.ofResponse (r : Response) (executedAt : String) (executionTimeMs : Int) : Report :=
  ⟨r.metricName, r.filters, r.result, r.breakdown, r.strategy.text, executedAt, executionTimeMs⟩

def Report.write (r : Report) : Value :=
  .object [
    ("metricName", .text r.metricName),
    ("filters", r.filters.write),
    ("result", r.result.write),
    ("effectiveBreakdown", .text r.breakdown.text),
    ("strategy", .text r.strategy),
    ("executedAt", .text r.executedAt),
    ("executionTimeMs", .int r.executionTimeMs)]

def Figure.write (f : Figure) : Value :=
  .object [("value", .double f.value), ("displayValue", .text f.display),
    ("unit", .text f.unit.text)]

end Wire

def writeDoubles (xs : Named Float) : Value := .object (xs.map fun (n, x) => (n, .double x))

def Cell.write (c : Cell) : Value :=
  .object [
    ("value", .double c.value),
    ("displayValue", .text c.display),
    ("role", .text c.role),
    ("breakdown", match c.parts with
      | some parts => writeDoubles parts
      | none => .null)]

def UserRow.write (r : UserRow) : Value :=
  .object [
    ("userId", .text r.userId),
    ("name", .text r.name),
    ("accountRole", .ofText? r.role),
    ("metrics", .object (r.cells.map fun (n, c) => (n, c.write)))]

def PeriodRow.write (r : PeriodRow) : Value :=
  .object [
    ("userId", .text r.userId),
    ("name", .text r.name),
    ("metricName", .text r.metricName),
    ("periods", writeDoubles r.periods),
    ("total", .double r.total)]

def AccountFigure.write (f : AccountFigure) : Value :=
  .object [("metricName", .text f.metricName),
    ("result", Wire.Figure.write ⟨f.value, f.display, f.unit⟩)]

end Funnel
