import Funnel.Value.Figure

/-!
# Comparing values

Values of one kind are compared: figures by size, texts by their characters, dates and moments by
time, lists by their first entries that differ. Values of different kinds are never the same, and
asking which of them is larger is a fault.
-/

set_option autoImplicit false

namespace Funnel.Value

open Calendar Number

/-- The figure that a value is, if it is one. -/
def figure? (v : Value) : Option Figure :=
  match Figure.ofValue v with
  | .ok x => some x
  | .error _ => none

mutual

def isSame (v w : Value) : Except Fault Bool :=
  match v with
  | .null => .ok (w matches .null)
  | .text s => .ok (w.asText? == some s)
  | .date d => .ok (match w with
    | .date e => d.dayNumber == e.dayNumber
    | _ => false)
  | .moment m => .ok (match w with
    | .moment n => m == n
    | _ => false)
  | .list vs =>
    match w with
    | .list ws => if vs.length = ws.length then areSame vs ws else .ok false
    | _ => .ok false
  | .object fields =>
    match w with
    | .object others => if fields.length = others.length then haveSame fields others else .ok false
    | _ => .ok false
  | .bool b => sameFigure (.whole (if b then 1 else 0)) w
  | .int n => sameFigure (.whole n) w
  | .double x => sameFigure (.double x) w
  | .decimal d => sameFigure (.decimal d) w

/-- Whether a value is a figure of the same size. -/
def sameFigure (x : Figure) (w : Value) : Except Fault Bool :=
  match w.figure? with
  | some y => x.isSame y
  | none => .ok false

def areSame : List Value → List Value → Except Fault Bool
  | v :: vs, w :: ws => do if ← isSame v w then areSame vs ws else .ok false
  | _, _ => .ok true

def haveSame : List (String × Value) → List (String × Value) → Except Fault Bool
  | [], _ => .ok true
  | (n, v) :: fields, others =>
    match Named.find? others n with
    | some w => do if ← isSame v w then haveSame fields others else .ok false
    | none => .ok false

end

mutual

def isAbove (v w : Value) : Except Fault Bool :=
  match v with
  | .text s =>
    match w with
    | .text t => .ok (decide (t < s))
    | _ => .error .wrongKind
  | .date d =>
    match w with
    | .date e => .ok (decide (e.dayNumber < d.dayNumber))
    | _ => .error .wrongKind
  | .moment m =>
    match w with
    | .moment n => .ok (decide (n.wall < m.wall))
    | _ => .error .wrongKind
  | .list vs =>
    match w with
    | .list ws => areAbove vs ws
    | _ => .error .wrongKind
  | .null | .object _ => .error .wrongKind
  | .bool b => largerFigure (.whole (if b then 1 else 0)) w
  | .int n => largerFigure (.whole n) w
  | .double x => largerFigure (.double x) w
  | .decimal d => largerFigure (.decimal d) w

def largerFigure (x : Figure) (w : Value) : Except Fault Bool := do
  (← Figure.ofValue w).isBelow x

/-- Whether a list is larger than another: by the first entries that differ, else by length. -/
def areAbove : List Value → List Value → Except Fault Bool
  | v :: vs, w :: ws => do if ← isSame v w then areAbove vs ws else isAbove v w
  | _ :: _, [] => .ok true
  | [], _ => .ok false

end

/-- The largest of some values, the first of equals. -/
def largest (v : Value) : List Value → Except Fault Value
  | [] => .ok v
  | w :: ws => do largest (if ← w.isAbove v then w else v) ws

end Funnel.Value
