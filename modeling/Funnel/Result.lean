import Funnel.Catalog.Terms
import Funnel.Calendar.Iso
import Funnel.Value.Coerce

/-!
# Results

Rows of the store become a result of the requested breakdown. Rows without their keys are dropped,
values that are no numbers count as zero. A chart follows its series of buckets: a bucket has the
value of the last row with its date, and a zero or a gap without one.
-/

set_option autoImplicit false

namespace Funnel

open Calendar

structure RepRow where
  repId : String
  repName : Option String
  value : Float

structure SetterRow where
  setterId : String
  setterName : Option String
  value : Float

structure LinkRow where
  setterId : String
  setterName : Option String
  repId : String
  repName : Option String
  value : Float

/-- A bucket of a chart; without a value it is a gap. -/
structure TimeRow where
  date : String
  value : Option Float

inductive Result where
  | total (value : Float)
  | rep (rows : List RepRow)
  | setter (rows : List SetterRow)
  | link (rows : List LinkRow)
  | time (rows : List TimeRow)

namespace Result

def breakdown : Result → Breakdown
  | .total _ => .total
  | .rep _ => .rep
  | .setter _ => .setter
  | .link _ => .link
  | .time _ => .time

def empty : Breakdown → Result
  | .total => .total 0.0
  | .rep => .rep []
  | .setter => .setter []
  | .link => .link []
  | .time => .time []

theorem breakdown_empty (b : Breakdown) : (empty b).breakdown = b := by cases b <;> rfl

def rowCount : Result → Nat
  | .total _ => 1
  | .rep rows => rows.length
  | .setter rows => rows.length
  | .link rows => rows.length
  | .time rows => rows.length

def keyOf (row : Value) (name : String) : Except Fault (Option String) := do
  match ← row.get name with
  | .null | .text "" => .ok none
  | v => .ok (some v.toText)

def numberOf (row : Value) : Except Fault Float := do
  .ok (Value.orZero (← (← row.get "value").number?))

def nameViolations (field : String) : Value → List Violation
  | .null | .text _ => []
  | _ => [⟨.stringType, [.field field]⟩]

def checkNames (names : List (String × Value)) : Except Fault Unit :=
  match names.flatMap fun (field, v) => nameViolations field v with
  | [] => .ok ()
  | violations => .error (.invalidData violations)

/-- The row of one person, who stands with a name under fields of their own; none without a key. -/
def personRow? {Row : Type} (make : String → Option String → Float → Row)
    (idField nameField : String) (row : Value) : Except Fault (Option Row) := do
  match ← keyOf row idField with
  | none => .ok none
  | some id => do
    let name ← row.get nameField
    let value ← numberOf row
    checkNames [(nameField, name)]
    .ok (some (make id name.asText? value))

def repRow? : Value → Except Fault (Option RepRow) := personRow? .mk "rep_id" "rep_name"

def setterRow? : Value → Except Fault (Option SetterRow) :=
  personRow? .mk "setter_id" "setter_name"

def linkRow? (row : Value) : Except Fault (Option LinkRow) := do
  let setterId ← keyOf row "setter_id"
  let repId ← keyOf row "rep_id"
  match setterId, repId with
  | some setterId, some repId => do
    let setterName ← row.get "setter_name"
    let repName ← row.get "rep_name"
    let value ← numberOf row
    checkNames [("setter_name", setterName), ("rep_name", repName)]
    .ok (some ⟨setterId, setterName.asText?, repId, repName.asText?, value⟩)
  | _, _ => .ok none

/-- The value of a row under the date it is labelled with; none for a row without a label. -/
def labelled? (row : Value) : Except Fault (Option (String × Option Float)) := do
  let label ← row.get "date"
  if label.isGiven then do
    let value ← (← row.get "value").number?
    .ok (some (String.ofList (label.toText.toList.take 10), value))
  else .ok none

/-- Values by label; the last row of a label counts. -/
def byLabel (labels : List (String × Option Float)) : Named (Option Float) :=
  Named.putAll [] labels

def missing (gap : Bool) : Option Float := if gap then none else some 0.0

/-- The chart of labelled values along a series, or in the order of the labels without one. -/
def chart (labels : Named (Option Float)) (series : Option (List Date)) (gap : Bool) :
    List TimeRow :=
  let value (v : Option Float) : Option Float := v.or (missing gap)
  match series with
  | none =>
    (labels.mergeSort fun a b => decide (a.1 ≤ b.1)).map fun (label, v) => ⟨label, value v⟩
  | some days => days.map fun d => ⟨d.iso, value ((labels.find? d.iso).getD none)⟩

def rowsOf (rows : Value) : Except Fault (List Value) :=
  if rows.isGiven then rows.entries else .ok []

def totalOf (rows : Value) : Except Fault Float :=
  if rows.isGiven then do numberOf (← rows.first) else .ok 0.0

def shape (b : Breakdown) (rows : Value) (series : Option (List Date)) (gap : Bool) :
    Except Fault Result := do
  match b with
  | .total => .ok (.total (← totalOf rows))
  | .rep => .ok (.rep ((← (← rowsOf rows).mapM repRow?).filterMap id))
  | .setter => .ok (.setter ((← (← rowsOf rows).mapM setterRow?).filterMap id))
  | .link => .ok (.link ((← (← rowsOf rows).mapM linkRow?).filterMap id))
  | .time =>
    let labels := byLabel ((← (← rowsOf rows).mapM labelled?).filterMap id)
    .ok (.time (chart labels series gap))

/-- The people of a result, each once, in order of their text. -/
def userIds (r : Result) : List String :=
  let ids : List String := match r with
    | .rep rows => rows.map RepRow.repId
    | .setter rows => rows.map SetterRow.setterId
    | .link rows => rows.map LinkRow.repId ++ rows.map LinkRow.setterId
    | .total _ | .time _ => []
  ids.eraseDups.mergeSort fun a b => decide (a ≤ b)

/-- The display name of a person: the one looked up, or else the identifier. -/
def displayName (names : Named String) (id : String) : String :=
  match names.find? id with
  | some name => if name = "" then id else name
  | none => id

/-- A name, or the display name where it is missing or empty. -/
def nameOr (names : Named String) (id : String) (name : Option String) : Option String :=
  match name with
  | none | some "" => some (displayName names id)
  | some name => some name

/-- A result with missing names filled in. -/
def withNames (names : Named String) : Result → Result
  | .rep rows => .rep (rows.map fun r => { r with repName := nameOr names r.repId r.repName })
  | .setter rows =>
    .setter (rows.map fun r => { r with setterName := nameOr names r.setterId r.setterName })
  | .link rows =>
    .link (rows.map fun r => { r with
      repName := nameOr names r.repId r.repName
      setterName := nameOr names r.setterId r.setterName })
  | r => r

end Result

end Funnel
