import Funnel.Filter.Request
import Funnel.Value.Coerce

/-!
# Checking filters

Every reason why filters cannot be used, in a fixed order. Filters with no such reason have two
dates in order and an account.
-/

set_option autoImplicit false

namespace Funnel

open Calendar

def dateOfText? (s : String) : Option Date := Value.date? (.text s)

namespace Filters

def range (f : Filters) : DateRange := f.dateRange.getD ⟨none, none⟩

def rangeReasons (start finish : String) : List String :=
  match dateOfText? start, dateOfText? finish with
  | some s, some e => if e < s then ["Start date must be before end date"] else []
  | _, _ => ["Invalid date format"]

def reasons (f : Filters) : List String :=
  (if given f.range.start then [] else ["Start date is required"]) ++
  (if given f.range.finish then [] else ["End date is required"]) ++
  (if given f.accountId then [] else ["Account ID is required"]) ++
  match f.range.start, f.range.finish with
  | some s, some e => if s = "" ∨ e = "" then [] else rangeReasons s e
  | _, _ => []

def bounds (f : Filters) : Except Fault (Option Date × Option Date) :=
  match f.dateRange with
  | none => .error .noSuchField
  | some r => .ok (r.start.bind dateOfText?, r.finish.bind dateOfText?)

def days (f : Filters) : Except Fault (Date × Date) := do
  match ← f.bounds with
  | (some s, some e) => .ok (s, e)
  | _ => .error .noSuchField

end Filters

end Funnel
