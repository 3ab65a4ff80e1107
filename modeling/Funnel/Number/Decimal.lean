import Funnel.Number.Numeral
import Funnel.Number.Shortest

/-!
# Decimal numbers of the store

Exact decimals as a database returns them, with their scale kept, and the values that are not
numbers. The text form is the scientific one of the general decimal arithmetic: positional
unless the exponent is positive or more than five zeros would follow the point.
-/

set_option autoImplicit false

namespace Funnel.Number

open Funnel.Text

/-- A decimal: ± coefficient · 10 ^ exponent, an infinity, or not a number. -/
inductive Decimal where
  | finite (negative : Bool) (coefficient : Nat) (exponent : Int)
  | infinite (negative : Bool)
  | notANumber (negative signaling : Bool) (payload : String)
deriving DecidableEq

namespace Decimal

private def signText (negative : Bool) : String := if negative then "-" else ""

def toText : Decimal → String
  | .infinite negative => signText negative ++ "Infinity"
  | .notANumber negative signaling payload =>
    signText negative ++ (if signaling then "sNaN" else "NaN") ++ payload
  | .finite negative coefficient exponent =>
    let ds := Nat.toDigits 10 coefficient
    let left : Int := exponent + ds.length
    let point : Int := if exponent ≤ 0 ∧ -6 < left then left else 1
    let mantissa :=
      if point ≤ 0 then '0' :: '.' :: List.replicate point.natAbs '0' ++ ds
      else if (ds.length : Int) ≤ point then ds ++ List.replicate (point.natAbs - ds.length) '0'
      else ds.take point.natAbs ++ '.' :: ds.drop point.natAbs
    let tail :=
      if left = point then []
      else 'E' :: (if left - point < 0 then '-' else '+') :: Nat.toDigits 10 (left - point).natAbs
    signText negative ++ String.ofList (mantissa ++ tail)

def ofText? (s : String) : Option Decimal := do
  let cs ← numberChars? s
  match numeral? cs with
  | some n => some (.finite n.negative n.digits n.exponent)
  | none =>
    let (negative, body) := splitSign cs
    let word := body.map lowerChar
    let name := String.ofList (word.takeWhile fun c => !isAsciiDigit c)
    let payload := word.dropWhile fun c => !isAsciiDigit c
    if (name = "inf" ∨ name = "infinity") ∧ payload = [] then some (.infinite negative)
    else if (name = "nan" ∨ name = "snan") ∧ payload.all isAsciiDigit then
      let digits := payload.dropWhile (· == '0')
      some (.notANumber negative (name == "snan") (String.ofList digits))
    else none

def isZero : Decimal → Bool
  | .finite _ coefficient _ => coefficient == 0
  | _ => false

/-- The nearest double; a signaling not-a-number has none. -/
def toDouble? : Decimal → Option Float
  | .finite negative coefficient exponent =>
    some (Numeral.toDouble ⟨negative, coefficient, exponent⟩)
  | .infinite negative => some (if negative then -(1.0 / 0.0) else 1.0 / 0.0)
  | .notANumber _ signaling _ => if signaling then none else some (0.0 / 0.0)

def fraction? : Decimal → Option (Bool × Ratio)
  | .finite negative coefficient exponent =>
    let p : Nat := pow10 exponent.natAbs
    some (negative, if 0 ≤ exponent then ⟨coefficient * p, 1⟩ else ⟨coefficient, p⟩)
  | _ => none

end Decimal

end Funnel.Number
