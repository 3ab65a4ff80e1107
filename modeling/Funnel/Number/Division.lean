import Funnel.Number.Sum

/-!
# Floored division

A double is divided by a whole number, and the quotient floored, as it is done on doubles: by the
remainder that truncated division leaves. Each step is worked out in whole numbers of units of
2 ^ -1074 and rounded once.
-/

set_option autoImplicit false

namespace Funnel.Number

/-- One in units of 2 ^ -1074. -/
def unitsOfOne : Int := pow2 1074

/-- A number of units rounded to that of a double. -/
def roundedUnits (n : Int) : Int := unitsOfDouble (doubleOfUnits n)

/-- The quotient of two numbers of units, the second positive, rounded to that of a double. -/
def quotientUnits (n d : Int) : Int :=
  unitsOfDouble (nearest (decide (n < 0)) n.natAbs d.natAbs)

/-- The whole number at or below a quotient, or the one above where rounding has put the quotient
just below the whole number that it stands for. -/
def floorUnits (q : Int) : Int :=
  let whole := q - q % unitsOfOne
  if unitsOfOne < 2 * roundedUnits (q - whole) then whole + unitsOfOne else whole

/-- Floored quotient and remainder of a finite double by a positive whole number that is a double
itself; the remainder lies between zero and `k` up to rounding. Of other doubles both are no
numbers. -/
def floorDivMod (x : Float) (k : Nat) : Float × Float :=
  if isFinite x then
    let a := unitsOfDouble x
    let d := k * unitsOfOne
    let r := a.tmod d
    let q := quotientUnits (roundedUnits (a - r)) d
    let (q, r) := if r < 0 then (roundedUnits (q - unitsOfOne), r + d) else (q, r)
    (doubleOfUnits (floorUnits q), doubleOfUnits r)
  else (0.0 / 0.0, 0.0 / 0.0)

end Funnel.Number
