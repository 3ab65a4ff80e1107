import Funnel.Calendar.Iso
import Funnel.Fault
import Funnel.Named
import Funnel.Number.Decimal
import Funnel.Text.Quoted

/-!
# Values of the store

What a row of the store, a stored setting or a request can hold. Rows come without a schema, so
each use of a value says what happens when it has another kind than expected. Whole numbers have any
number of digits and are shown with all of them, and lists are nested to any depth: it is assumed
that no limit of the machine on digits or on nesting is reached.
-/

set_option autoImplicit false

namespace Funnel

open Calendar Number

/-- A dynamic value. An object keeps the order of its fields. -/
inductive Value where
  | null
  | bool (b : Bool)
  | int (n : Int)
  | double (x : Float)
  | decimal (d : Decimal)
  | text (s : String)
  | date (d : Date)
  | moment (m : Moment)
  | list (items : List Value)
  | object (fields : List (String × Value))

instance : Inhabited Value := ⟨.null⟩

/-- Named values in the order in which the names were first set. -/
abbrev Fields := Named Value

namespace Value

/-- Whether a value counts as given: not null, false, zero or empty. -/
def isGiven : Value → Bool
  | .null => false
  | .bool b => b
  | .int n => n != 0
  | .double x => !(x == 0)
  | .decimal d => !d.isZero
  | .text s => s != ""
  | .date _ | .moment _ => true
  | .list items => !items.isEmpty
  | .object fields => !fields.isEmpty

/-- The first of two values if it is given, else the second. -/
def orElse (v w : Value) : Value := if v.isGiven then v else w

/-- An offset as it is shown inside a list, by its days, seconds and microseconds. -/
def offsetPart (offset : Int) : String :=
  let inDay := offset.fmod microsPerDay
  let units := [("days", offset.fdiv microsPerDay), ("seconds", inDay.fdiv microsPerSecond),
    ("microseconds", inDay.fmod microsPerSecond)].filter (·.2 ≠ 0)
  if units = [] then "tzinfo=datetime.timezone.utc"
  else "tzinfo=datetime.timezone(datetime.timedelta(" ++
    ", ".intercalate (units.map fun (n, k) => n ++ "=" ++ toString k) ++ "))"

/-- The parts of a moment as they are shown inside a list. -/
def momentParts (m : Moment) : List String :=
  let seconds := m.micros / microsPerSecond
  let part := m.micros % microsPerSecond
  let time := [seconds / 3600, seconds / 60 % 60] ++
    if part ≠ 0 then [seconds % 60, part] else if seconds % 60 ≠ 0 then [seconds % 60] else []
  ([m.date.year, m.date.month, m.date.day] ++ time).map toString ++
    (m.offset.map offsetPart).toList

private def parts (texts : List String) : String := ", ".intercalate texts

mutual

def shown : Value → String
  | .null => "None"
  | .bool b => if b then "True" else "False"
  | .int n => toString n
  | .double x => showDouble x
  | .decimal d => "Decimal('" ++ d.toText ++ "')"
  | .text s => Text.quoted s
  | .date d => "datetime.date(" ++ parts ([d.year, d.month, d.day].map toString) ++ ")"
  | .moment m => "datetime.datetime(" ++ parts (momentParts m) ++ ")"
  | .list items => "[" ++ shownItems items ++ "]"
  | .object fields => "\x7b" ++ shownFields fields ++ "\x7d"

def shownItems : List Value → String
  | [] => ""
  | [v] => shown v
  | v :: rest => shown v ++ ", " ++ shownItems rest

def shownFields : List (String × Value) → String
  | [] => ""
  | [(n, v)] => Text.quoted n ++ ": " ++ shown v
  | (n, v) :: rest => Text.quoted n ++ ": " ++ shown v ++ ", " ++ shownFields rest

end

def toText : Value → String
  | .text s => s
  | .decimal d => d.toText
  | .date d => d.iso
  | .moment m => m.text " "
  | v => v.shown

def get (v : Value) (name : String) : Except Fault Value :=
  match v with
  | .object fields => .ok ((Named.find? fields name).getD .null)
  | _ => .error .noSuchField

def entries : Value → Except Fault (List Value)
  | .list items => .ok items
  | .text s => .ok (s.toList.map fun c => .text (String.singleton c))
  | .object fields => .ok (fields.map fun (n, _) => .text n)
  | _ => .error .wrongKind

def first : Value → Except Fault Value
  | .list (v :: _) => .ok v
  | .list [] => .error .outOfBounds
  | .text s =>
    match s.toList with
    | c :: _ => .ok (.text (String.singleton c))
    | [] => .error .outOfBounds
  | .object _ => .error .noSuchKey
  | _ => .error .wrongKind

def asText? : Value → Option String
  | .text s => some s
  | _ => none

end Value

end Funnel
