import Funnel.Calendar.Zone
import Funnel.Json.Reader
import Funnel.Value.Coerce

/-!
# Business hours

An account stores a list of windows, one for each country it calls: a country code, a time zone,
an opening and a closing time and working days. Entries that are no objects are skipped, times
that cannot be read take their default. A phone number belongs to the window with the longest
country code in front of it.
-/

set_option autoImplicit false

namespace Funnel.Hours

open Calendar

/-- Opening hours. The zone is kept as it was stored. -/
structure Window where
  zone : Value
  opening : ClockTime
  closing : ClockTime
  workingDays : List Int
  countryCode : String

def defaultOpening : ClockTime := .hour 9
def defaultClosing : ClockTime := .hour 17

/-- Weekdays from 1 for Monday to 7. -/
def allDays : List Int := [1, 2, 3, 4, 5, 6, 7]

def Window.standard (zone : Value) : Window :=
  ⟨zone, defaultOpening, defaultClosing, allDays, ""⟩

/-- The zone of a stored name among the zones that are known. A name that is not given or not known
means UTC; one that is no text is a fault. -/
def zoneIn (known : Zones) (name : Value) : Except Fault Zone :=
  match name.orElse (.text "UTC") with
  | .text s => .ok (Zone.named known s)
  | _ => .error .wrongKind

def timeOr (default : ClockTime) (v : Value) : ClockTime := (Iso.time? v.toText).getD default

/-- A value as a whole number: a number cut toward zero, or a text of digits. -/
def wholeNumber : Value → Except Fault Int
  | .bool b => .ok (if b then 1 else 0)
  | .int n => .ok n
  | .double x =>
    match Number.truncate? x with
    | some n => .ok n
    | none => .error (if Number.isNaN x then .badValue else .outOfRange)
  | .decimal d =>
    match d.fraction? with
    | some (negative, r) =>
      let n : Int := (r.num / r.den : Nat)
      .ok (if negative then -n else n)
    | none => .error (match d with | .infinite _ => .outOfRange | _ => .badValue)
  | .text s =>
    match Number.readInt? s with
    | some n => .ok n
    | none => .error .badValue
  | _ => .error .wrongKind

def daysOf (days : Value) : Except Fault (List Int) :=
  if days.isGiven then do (← days.entries).mapM wholeNumber else .ok allDays

def either (fields : Fields) (name other : String) : Value :=
  let field (n : String) : Value := (fields.find? n).getD .null
  (field name).orElse (field other)

def Window.ofFields (fields : Fields) : Except Fault Window := do
  let days ← daysOf (either fields "workingDays" "working_days")
  .ok {
    zone := (either fields "tz" "timezone").orElse (.text "UTC")
    opening := timeOr defaultOpening (either fields "startLocal" "startTime")
    closing := timeOr defaultClosing (either fields "endLocal" "endTime")
    workingDays := days
    countryCode := ((either fields "countryCode" "country_code").orElse (.text "")).toText }

def windowsOfEntries (entries : List Value) : Except Fault (List Window) :=
  (entries.filterMap fun
    | .object fields => some fields
    | _ => none).mapM Window.ofFields

/-- The windows that a stored setting holds: a list, or a text that spells one in JSON. -/
def parse (raw : Value) : Except Fault (List Window) :=
  if raw.isGiven then
    match raw with
    | .text s =>
      match Json.read? s with
      | some (.list entries) => windowsOfEntries entries
      | _ => .ok []
    | .list entries => windowsOfEntries entries
    | _ => .ok []
  else .ok []

def digits (s : String) : List Char := s.toList.filter Text.isDigit

/-- The window with the longest code among those seen, the first of that length. -/
def longest (number : List Char) (best : Option Window) (w : Window) : Option Window :=
  let code := digits w.countryCode
  let length := match best with
    | some b => (digits b.countryCode).length
    | none => 0
  if code.isPrefixOf number && length < code.length then some w else best

def windowFor (phone : String) (windows : List Window) (default : Window) : Window :=
  (windows.foldl (longest (digits phone)) none).getD default

/-- A stored phone number as text. Of a list of texts, those made of digits count. -/
def phoneText (phone : Value) : Except Fault String :=
  match phone.orElse (.text "") with
  | .text s => .ok s
  | v => do
    let parts ← (← v.entries).mapM fun
      | .text s => .ok s
      | _ => .error .noSuchField
    .ok (String.join (parts.filter fun s => s != "" && s.toList.all Text.isDigit))

end Funnel.Hours
