import Funnel.Proofs.Wire.Reads
import Funnel.Wire.Write

/-!
# Data on the wire and back

Whatever is written is read as what it was, each field under its wire name or under its name in
lower case, field by field as is chosen. Only names of fields are subject to the choice: names in
settings and names of metrics, periods and sides are data.
-/

set_option autoImplicit false

namespace Funnel

open Wire

/-- An object with its own fields under chosen names. -/
def Value.under (plain : String → Bool) : Value → Value
  | .object fields => .object (named plain fields)
  | v => v

def Value.orNull : Option Value → Value
  | some v => v
  | none => .null

def Filters.writeUnder (plain : String → Bool) (f : Filters) : Value :=
  .object (named plain [
    ("dateRange", .orNull (f.dateRange.map fun r => r.write.under plain)),
    ("accountId", .ofText? f.accountId),
    ("repIds", .ofTexts f.repIds),
    ("setterIds", .ofTexts f.setterIds)])

def Request.writeUnder (plain : String → Bool) (r : Request) : Value :=
  .object (named plain [
    ("metricName", .text r.metricName),
    ("filters", r.filters.writeUnder plain),
    ("options", .orNull (r.options.map fun o => o.write.under plain))])

def Result.writeDataUnder (plain : String → Bool) : Result → Value
  | .total x => (Result.total x).writeData.under plain
  | .rep rows => .list (rows.map fun r => r.write.under plain)
  | .setter rows => .list (rows.map fun r => r.write.under plain)
  | .link rows => .list (rows.map fun r => r.write.under plain)
  | .time rows => .list (rows.map fun r => r.write.under plain)

def Result.writeUnder (plain : String → Bool) (r : Result) : Value :=
  .object (named plain [("type", .text r.breakdown.text), ("data", r.writeDataUnder plain)])

def Wire.Report.writeUnder (plain : String → Bool) (r : Report) : Value :=
  .object (named plain [
    ("metricName", .text r.metricName),
    ("filters", r.filters.writeUnder plain),
    ("result", r.result.writeUnder plain),
    ("effectiveBreakdown", .text r.breakdown.text),
    ("strategy", .text r.strategy),
    ("executedAt", .text r.executedAt),
    ("executionTimeMs", .int r.executionTimeMs)])

def UserRow.writeUnder (plain : String → Bool) (r : UserRow) : Value :=
  .object (named plain [
    ("userId", .text r.userId),
    ("name", .text r.name),
    ("accountRole", .ofText? r.role),
    ("metrics", .object (r.cells.map fun (n, c) => (n, c.write.under plain)))])

namespace Wire

variable {α : Type} {rule : Rule}

theorem reads_breakdown (b : Breakdown) : Reads breakdown (.text b.text) b := by
  intro path
  cases b <;> rfl

theorem reads_orNull {read : Reader α} {write : α → Value} (h : ∀ x, Reads read (write x) x)
    (hnull : ∀ x, write x ≠ .null) (o : Option α) :
    Reads (nullable read) (.orNull (o.map write)) o := by
  cases o with
  | none => exact reads_null
  | some x => exact (h x).nullable (hnull x)

theorem reads_ofText? (s : Option String) : Reads (nullable text) (.ofText? s) s := by
  cases s with
  | none => exact reads_null
  | some s => exact (reads_text s).nullable nofun

theorem reads_ofDouble? (x : Option Float) : Reads (nullable double) (.ofDouble? x) x := by
  cases x with
  | none => exact reads_null
  | some x => exact (reads_double x).nullable nofun

theorem reads_ofTexts (ts : List String) : Reads (listOf text) (.ofTexts ts) ts :=
  reads_listOf reads_text ts

theorem reads_fields (settings : Fields) : Reads (mapOf anyValue) (.object settings) settings := by
  have h := reads_mapOf reads_anyValue settings
  change Reads (mapOf anyValue) (.object (settings.map id)) settings at h
  rwa [List.map_id] at h

theorem reads_writeDoubles (xs : Named Float) : Reads (mapOf double) (writeDoubles xs) xs :=
  reads_mapOf reads_double xs

variable (plain : String → Bool)

theorem reads_dateRange (r : DateRange) : Reads (dateRange rule) (r.write.under plain) r := by
  refine reads_record (show Apart ["start", "end"] by decide) rfl ?_
  rintro data ⟨hstart, hend, -⟩
  rw [hstart.optional (reads_ofText? _), hend.optional (reads_ofText? _)]
  rfl

theorem reads_filters (f : Filters) : Reads (filters rule) (f.writeUnder plain) f := by
  refine reads_record (show Apart ["dateRange", "accountId", "repIds", "setterIds"] by decide)
    rfl ?_
  rintro data ⟨hrange, haccount, hreps, hsetters, -⟩
  rw [hrange.optional (reads_orNull (reads_dateRange plain) nofun _),
    haccount.optional (reads_ofText? _), hreps.optional (reads_ofTexts _),
    hsetters.optional (reads_ofTexts _)]
  rfl

theorem reads_options (o : Options) : Reads (options rule) (o.write.under plain) o := by
  refine reads_record (show Apart ["vizType", "dynamicBreakdown", "widgetSettings"] by decide)
    rfl ?_
  rintro data ⟨hviz, hbreakdown, hsettings, -⟩
  have hread : Reads (nullable breakdown) (.ofText? (o.breakdown.map Breakdown.text))
      o.breakdown := by
    cases o.breakdown with
    | none => exact reads_null
    | some b => exact (reads_breakdown b).nullable nofun
  rw [hviz.optional (reads_ofText? _), hbreakdown.optional hread,
    hsettings.optional (reads_fields _)]
  rfl

theorem reads_request (r : Request) : Reads (request rule) (r.writeUnder plain) r := by
  refine reads_record (show Apart ["metricName", "filters", "options"] by decide) rfl ?_
  rintro data ⟨hmetric, hfilters, hoptions, -⟩
  rw [hmetric.required (reads_text _), hfilters.required (reads_filters plain _),
    hoptions.optional (reads_orNull (reads_options plain) nofun _)]
  rfl

theorem reads_personRow {Row : Type} (make : String → Option String → Float → Row)
    {idName nameName : String} (hapart : Apart [idName, nameName, "value"]) (id : String)
    (name : Option String) (value : Float) :
    Reads (personRow make idName nameName rule)
      (.object (named plain [(idName, .text id), (nameName, .ofText? name),
        ("value", .double value)])) (make id name value) := by
  refine reads_record hapart rfl ?_
  rintro data ⟨hid, hname, hvalue, -⟩
  rw [hid.required (reads_text _), hname.optional (reads_ofText? _),
    hvalue.optional (reads_double _)]
  rfl

theorem reads_repRow (r : RepRow) : Reads (repRow rule) (r.write.under plain) r :=
  reads_personRow plain RepRow.mk (by decide) r.repId r.repName r.value

theorem reads_setterRow (r : SetterRow) : Reads (setterRow rule) (r.write.under plain) r :=
  reads_personRow plain SetterRow.mk (by decide) r.setterId r.setterName r.value

theorem reads_linkRow (r : LinkRow) : Reads (linkRow rule) (r.write.under plain) r := by
  refine reads_record
    (show Apart ["setterId", "setterName", "repId", "repName", "value"] by decide) rfl ?_
  rintro data ⟨hsetter, hsetterName, hrep, hrepName, hvalue, -⟩
  rw [hsetter.required (reads_text _), hsetterName.optional (reads_ofText? _),
    hrep.required (reads_text _), hrepName.optional (reads_ofText? _),
    hvalue.optional (reads_double _)]
  rfl

theorem reads_timeRow (r : TimeRow) : Reads (timeRow rule) (r.write.under plain) r := by
  refine reads_record (show Apart ["date", "value"] by decide) rfl ?_
  rintro data ⟨hdate, hvalue, -⟩
  rw [hdate.required (reads_text _), hvalue.optional (reads_ofDouble? _)]
  rfl

theorem reads_totalValue (x : Float) :
    Reads (totalValue rule) ((Result.total x).writeData.under plain) x := by
  refine reads_record (show Apart ["value"] by decide) rfl ?_
  rintro data ⟨hvalue, -⟩
  exact hvalue.optional (reads_double x) _

/-- The tag of a result leads to the reader of its own rows. -/
theorem reads_result (r : Result) : Reads (result rule) (r.writeUnder plain) r := by
  intro path
  have hholds : ∀ path,
      (Record.mk path (named plain
        [("type", .text r.breakdown.text), ("data", r.writeDataUnder plain)])).HoldsAll
      [("type", .text r.breakdown.text), ("data", r.writeDataUnder plain)] :=
    fun path => holdsAll_named plain path (show Apart ["type", "data"] by decide)
  obtain ⟨htag, -, -⟩ := hholds path
  obtain ⟨-, hdata, -⟩ := hholds (path ++ [.field r.breakdown.text])
  simp only [Result.writeUnder, result, htag.fieldOf, reads_breakdown r.breakdown path]
  cases r with
  | total x =>
    exact congrArg (Except.map Result.total) (hdata.optional (reads_totalValue plain x) _)
  | rep rows =>
    exact congrArg (Except.map Result.rep)
      (hdata.optional (reads_listOf (reads_repRow plain) rows) _)
  | setter rows =>
    exact congrArg (Except.map Result.setter)
      (hdata.optional (reads_listOf (reads_setterRow plain) rows) _)
  | link rows =>
    exact congrArg (Except.map Result.link)
      (hdata.optional (reads_listOf (reads_linkRow plain) rows) _)
  | time rows =>
    exact congrArg (Except.map Result.time)
      (hdata.optional (reads_listOf (reads_timeRow plain) rows) _)

theorem reads_report (r : Report) : Reads (report rule) (r.writeUnder plain) r := by
  refine reads_record (show Apart ["metricName", "filters", "result", "effectiveBreakdown",
    "strategy", "executedAt", "executionTimeMs"] by decide) rfl ?_
  rintro data ⟨hmetric, hfilters, hresult, hbreakdown, hstrategy, hat, htime, -⟩
  rw [hmetric.required (reads_text _), hfilters.required (reads_filters plain _),
    hresult.required (reads_result plain _), hbreakdown.required (reads_breakdown _),
    hstrategy.required (reads_text _), hat.required (reads_text _), htime.required (reads_whole _)]
  rfl

theorem reads_cell (c : Cell) : Reads (cell rule) (c.write.under plain) c := by
  refine reads_record (show Apart ["value", "displayValue", "role", "breakdown"] by decide) rfl ?_
  rintro data ⟨hvalue, hdisplay, hrole, hparts, -⟩
  have hread : data.optional "breakdown" none (nullable (mapOf double)) = .ok c.parts := by
    cases h : c.parts with
    | none =>
      rw [h] at hparts
      exact hparts.optional reads_null _
    | some parts =>
      rw [h] at hparts
      exact hparts.optional ((reads_writeDoubles parts).nullable nofun) _
  rw [hvalue.optional (reads_double _), hdisplay.optional (reads_text _),
    hrole.optional (reads_text _), hread]
  rfl

theorem reads_userRow (r : UserRow) : Reads (userRow rule) (r.writeUnder plain) r := by
  refine reads_record (show Apart ["userId", "name", "accountRole", "metrics"] by decide) rfl ?_
  rintro data ⟨hid, hname, hrole, hcells, -⟩
  rw [hid.required (reads_text _), hname.required (reads_text _),
    hrole.optional (reads_ofText? _), hcells.optional (reads_mapOf (reads_cell plain) _)]
  rfl

theorem reads_periodRow (r : PeriodRow) : Reads (periodRow rule) (r.write.under plain) r := by
  refine reads_record
    (show Apart ["userId", "name", "metricName", "periods", "total"] by decide) rfl ?_
  rintro data ⟨hid, hname, hmetric, hperiods, htotal, -⟩
  rw [hid.required (reads_text _), hname.required (reads_text _), hmetric.required (reads_text _),
    hperiods.optional (reads_writeDoubles _), htotal.optional (reads_double _)]
  rfl

theorem under_wire (v : Value) : v.under (fun _ => false) = v := by
  cases v with
  | object fields => exact congrArg Value.object (named_wire fields)
  | _ => rfl

theorem filters_writeUnder_wire (f : Filters) : f.writeUnder (fun _ => false) = f.write := by
  obtain ⟨range, account, reps, setters⟩ := f
  cases range <;> simp only [Filters.writeUnder, Filters.write, named_wire, under_wire,
    Value.orNull, Option.map_some, Option.map_none]

theorem request_writeUnder_wire (r : Request) : r.writeUnder (fun _ => false) = r.write := by
  obtain ⟨metric, filters, options⟩ := r
  cases options <;> simp only [Request.writeUnder, Request.write, named_wire, under_wire,
    filters_writeUnder_wire, Value.orNull, Option.map_some, Option.map_none]

theorem result_writeUnder_wire (r : Result) : r.writeUnder (fun _ => false) = r.write := by
  rw [Result.writeUnder, Result.write, named_wire]
  cases r <;> simp only [Result.writeDataUnder, Result.writeData, under_wire]

theorem report_writeUnder_wire (r : Report) : r.writeUnder (fun _ => false) = r.write := by
  simp only [Report.writeUnder, Report.write, named_wire, filters_writeUnder_wire,
    result_writeUnder_wire]

theorem userRow_writeUnder_wire (r : UserRow) : r.writeUnder (fun _ => false) = r.write := by
  simp only [UserRow.writeUnder, UserRow.write, named_wire, under_wire]

/-- Requests, responses and figures of people are read as what was written, under their wire names
and under any choice between these and the names in lower case, which are those of the fields. -/
theorem wire_round_trip (rule : Rule) (plain : String → Bool) :
    (∀ entry ∈ fieldNames, plainName entry.1 = entry.2) ∧
    (∀ r : Request,
      Reads (request rule) r.write r ∧ Reads (request rule) (r.writeUnder plain) r) ∧
    (∀ r : Report, Reads (report rule) r.write r ∧ Reads (report rule) (r.writeUnder plain) r) ∧
    (∀ r : UserRow,
      Reads (userRow rule) r.write r ∧ Reads (userRow rule) (r.writeUnder plain) r) ∧
    ∀ r : PeriodRow,
      Reads (periodRow rule) r.write r ∧ Reads (periodRow rule) (r.write.under plain) r := by
  refine ⟨plainName_fieldNames, fun r => ⟨?_, reads_request plain r⟩,
    fun r => ⟨?_, reads_report plain r⟩, fun r => ⟨?_, reads_userRow plain r⟩,
    fun r => ⟨?_, reads_periodRow plain r⟩⟩
  · rw [← request_writeUnder_wire r]
    exact reads_request _ r
  · rw [← report_writeUnder_wire r]
    exact reads_report _ r
  · rw [← userRow_writeUnder_wire r]
    exact reads_userRow _ r
  · rw [← under_wire r.write]
    exact reads_periodRow _ r

example : Result.writeUnder (fun _ => true) (.rep [⟨"rep-1", none, 1.5⟩]) =
    .object [("type", .text "rep"), ("data", .list [.object
      [("rep_id", .text "rep-1"), ("rep_name", .null), ("value", .double 1.5)]])] := rfl

end Wire

end Funnel
