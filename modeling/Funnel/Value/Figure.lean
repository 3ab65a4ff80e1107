import Funnel.Number.Decimal.Arithmetic
import Funnel.Number.Division
import Funnel.Number.Fixed
import Funnel.Value

/-!
# Figures

The numbers among the values: whole numbers of any size, doubles and decimals. Whole numbers go
with both other kinds, a decimal does not go with a double. Whole numbers stay exact among
themselves, and so does every comparison.
-/

set_option autoImplicit false

namespace Funnel

open Number

inductive Figure where
  | whole (n : Int)
  | double (x : Float)
  | decimal (d : Decimal)

namespace Figure

def ofValue : Value → Except Fault Figure
  | .bool b => .ok (.whole (if b then 1 else 0))
  | .int n => .ok (.whole n)
  | .double x => .ok (.double x)
  | .decimal d => .ok (.decimal d)
  | _ => .error .wrongKind

def toValue : Figure → Value
  | .whole n => .int n
  | .double x => .double x
  | .decimal d => .decimal d

def faultOf : Signal → Fault
  | .invalidOperation => .invalidOperation
  | .overflow => .tooLarge

def decimalResult (r : Except Signal Decimal) : Except Fault Figure :=
  (r.mapError faultOf).map .decimal

/-- The double nearest to ± `num / den`; a fault beyond the largest double. -/
def fitted (negative : Bool) (num den : Nat) : Except Fault Float :=
  let x := nearest negative num den
  if isFinite x then .ok x else .error .outOfRange

def wholeDouble (n : Int) : Except Fault Float := fitted (decide (n < 0)) n.natAbs 1

/-- An operation on two figures, from what it is on each kind. -/
def combine (whole : Int → Int → Except Fault Figure) (double : Float → Float → Float)
    (decimal : Decimal → Decimal → Except Signal Decimal) (a b : Figure) : Except Fault Figure :=
  match a, b with
  | .whole m, .whole n => whole m n
  | .whole m, .double y => do .ok (.double (double (← wholeDouble m) y))
  | .double x, .whole n => do .ok (.double (double x (← wholeDouble n)))
  | .double x, .double y => .ok (.double (double x y))
  | .decimal d, .decimal e => decimalResult (decimal d e)
  | .decimal d, .whole n => decimalResult (decimal d (.ofInt n))
  | .whole m, .decimal e => decimalResult (decimal (.ofInt m) e)
  | .decimal _, .double _ | .double _, .decimal _ => .error .wrongKind

def add : Figure → Figure → Except Fault Figure :=
  combine (fun m n => .ok (.whole (m + n))) (· + ·) Decimal.add

def sub : Figure → Figure → Except Fault Figure :=
  combine (fun m n => .ok (.whole (m - n))) (· - ·) Decimal.sub

def mul : Figure → Figure → Except Fault Figure :=
  combine (fun m n => .ok (.whole (m * n))) (· * ·) Decimal.mul

def div : Figure → Figure → Except Fault Figure :=
  combine
    (fun m n => (fitted (decide (m < 0) != decide (n < 0)) m.natAbs n.natAbs).map .double)
    (· / ·) Decimal.div

def isZero : Figure → Bool
  | .whole n => n == 0
  | .double x => x == 0
  | .decimal d => d.isZero

def toDecimal : Figure → Decimal
  | .whole n => .ofInt n
  | .double x => .ofDouble x
  | .decimal d => d

def isSignaling : Figure → Bool
  | .decimal (.notANumber _ true _) => true
  | _ => false

def isDecimal : Figure → Bool
  | .decimal _ => true
  | _ => false

/-- Whether a figure is smaller than another. A decimal is not compared with what is no number; of
doubles, nothing is smaller or larger than what is no number. -/
def isBelow (a b : Figure) : Except Fault Bool :=
  match a.toDecimal.compare? b.toDecimal with
  | some o => .ok (o == .lt)
  | none => if a.isDecimal || b.isDecimal then .error .invalidOperation else .ok false

def isSame (a b : Figure) : Except Fault Bool :=
  if a.isSignaling || b.isSignaling then .error .invalidOperation
  else .ok (a.toDecimal.compare? b.toDecimal == some .eq)

def fixedDecimal (places : Nat) (grouped : Bool) (d : Decimal) : String :=
  match d.fraction? with
  | some (negative, r) => fixedRatio places grouped negative r.num r.den
  | none => d.toText

def fixed (places : Nat) (grouped : Bool) : Figure → Except Fault String
  | .whole n => do .ok (Number.fixed places grouped (← wholeDouble n))
  | .double x => .ok (Number.fixed places grouped x)
  | .decimal d => .ok (fixedDecimal places grouped d)

def isWhole : Figure → Except Fault Bool
  | .whole n => do
    let _ ← wholeDouble n
    .ok true
  | .double x => .ok (toInt? x).isSome
  | .decimal d =>
    match d.toDouble? with
    | some x => .ok (toInt? x).isSome
    | none => .error .badValue

/-- The quotient by a positive whole number, floored; of decimals, cut toward zero. -/
def divWhole (k : Nat) : Figure → Except Fault Figure
  | .whole n => .ok (.whole (n.fdiv k))
  | .double x => .ok (.double (floorDivMod x k).1)
  | .decimal d => decimalResult (d.divWhole k)

/-- What the whole quotient leaves. -/
def modWhole (k : Nat) : Figure → Except Fault Figure
  | .whole n => .ok (.whole (n.fmod k))
  | .double x => .ok (.double (floorDivMod x k).2)
  | .decimal d => decimalResult (d.modWhole k)

def cut : Figure → Except Fault Int
  | .whole n => .ok n
  | .double x =>
    match Reading.ofDouble x, truncate? x with
    | _, some n => .ok n
    | .infinite _, none => .error .outOfRange
    | _, none => .error .badValue
  | .decimal d =>
    match d, d.truncate? with
    | _, some n => .ok n
    | .infinite _, none => .error .outOfRange
    | _, none => .error .badValue

end Figure

end Funnel
