import Funnel.Catalog.Terms

/-!
# Tables

The tables that metrics are counted over: where a row's day comes from and which columns name the
rep and the setter it belongs to.
-/

set_option autoImplicit false

namespace Funnel

/-- What the date column of a table holds: the account's own day, a time stamp that is turned into
that day, or a plain date. -/
inductive DateKind where
  | local | timestamp | date
deriving DecidableEq, Repr

def DateKind.text : DateKind → String
  | .local => "local"
  | .timestamp => "timestamp"
  | .date => "date"

structure Table where
  name : String
  dateColumn : String
  dateKind : DateKind
  timestampColumn : String
  /-- Whether the table has columns for the account-local day, week and month. -/
  hasLocalBuckets : Bool
  repColumn : Option String
  setterColumn : Option String
  /-- Whether rows are derived rather than stored. -/
  isDerived : Bool
deriving DecidableEq, Repr

namespace Table

def appointments : Table :=
  ⟨"appointments", "local_date", .local, "date_booked_for", true,
    some "sales_rep_user_id", some "setter_user_id", false⟩

def discoveries : Table :=
  ⟨"discoveries", "local_date", .local, "date_booked_for", true,
    some "sales_rep_user_id", some "setter_user_id", false⟩

def dials : Table :=
  ⟨"dials", "local_date", .local, "date_called", true, none, some "setter_user_id", false⟩

def contacts : Table :=
  ⟨"contacts", "ghl_created_at", .timestamp, "ghl_created_at", false, none, none, false⟩

def adPerformance : Table :=
  ⟨"meta_ad_performance", "date_start", .date, "date_start", false, none, none, false⟩

def workTimeframes : Table :=
  ⟨"work_timeframes", "date_called", .timestamp, "date_called", false,
    none, some "setter_user_id", true⟩

def all : List Table := [appointments, discoveries, dials, contacts, adPerformance, workTimeframes]

def find? (name : String) : Option Table := all.find? fun t => t.name == name

def named (name : String) : Except Fault Table :=
  match find? name with
  | some t => .ok t
  | none => .error .noSuchKey

def keyColumns (t : Table) : Breakdown → List String
  | .rep => t.repColumn.toList
  | .setter => t.setterColumn.toList
  | .link =>
    match t.setterColumn, t.repColumn with
    | some setter, some rep => [setter, rep]
    | _, _ => []
  | .total | .time => []

def supports (t : Table) : Breakdown → Bool
  | .total | .time => true
  | b => !(t.keyColumns b).isEmpty

def keyName (column : String) : String :=
  if column = "sales_rep_user_id" then "rep_id" else "setter_id"

def keys (t : Table) (b : Breakdown) : List (String × String) :=
  (t.keyColumns b).map fun c => (c, keyName c)

end Table

/-- A column, qualified by the name of its table if there is one. -/
def qualify (column : String) (qualifier : Option String) : String :=
  match qualifier with
  | none | some "" => column
  | some a => a ++ "." ++ column

end Funnel
