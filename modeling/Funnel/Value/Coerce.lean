import Funnel.Value

/-!
# Untyped values as numbers, flags, dates

Rows carry numbers as numbers or as text, flags as booleans, numbers or words, and times as text.
A value that cannot be read gives nothing; only a number too large for a double and a signaling
not-a-number are faults.
-/

set_option autoImplicit false

namespace Funnel.Value

open Calendar Number Text

def finite? (x : Float) : Option Float := if isFinite x then some x else none

theorem isFinite_of_finite? {x y : Float} (h : finite? x = some y) : isFinite y = true := by
  unfold finite? at h
  split at h
  · simp_all
  · simp at h

/-- The finite number a value stands for, if any. -/
def number? : Value → Except Fault (Option Float)
  | .bool b => .ok (some (if b then 1.0 else 0.0))
  | .int n =>
    match finite? (ofInt n) with
    | some x => .ok (some x)
    | none => .error .outOfRange
  | .double x => .ok (finite? x)
  | .decimal d =>
    match d.toDouble? with
    | some x => .ok (finite? x)
    | none => .error .badValue
  | .text s => .ok ((readDouble? (trim s)).bind finite?)
  | _ => .ok none

/-- A number as an amount: zero where there is none, and never a negative zero. -/
def orZero (x : Option Float) : Float :=
  match x with
  | some x => if x == 0 then 0.0 else x
  | none => 0.0

def yesWords : List String := ["true", "t", "1", "yes", "y"]

def flag : Value → Except Fault Bool
  | .null => .ok false
  | .bool b => .ok b
  | .text s => .ok (yesWords.contains (lower (trim s)))
  | v => do
    match ← v.number? with
    | some x => .ok (!(x == 0))
    | none => .ok false

/-- A final `Z` as an offset of zero. -/
def spellOutZulu (s : String) : String :=
  match s.toList.reverse with
  | 'Z' :: r => String.ofList r.reverse ++ "+00:00"
  | _ => s

/-- The date a value stands for: a date, or the date part of a moment as it is written. -/
def date? (v : Value) : Option Date :=
  if v.isGiven then
    match v with
    | .moment m => some m.date
    | .date d => some d
    | _ =>
      let s := trim v.toText
      match Iso.date? s with
      | some d => some d
      | none => (Iso.moment? (spellOutZulu s)).map Moment.date
  else none

/-- The instant a value stands for; without an offset it is in UTC. -/
def timestamp? (v : Value) : Option Moment :=
  if v.isGiven then
    match v with
    | .moment m => some m.assumeUtc
    | _ => (Iso.moment? (spellOutZulu (trim v.toText))).map Moment.assumeUtc
  else none

end Funnel.Value
