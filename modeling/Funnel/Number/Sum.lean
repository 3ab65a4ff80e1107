import Funnel.Number.Binary

/-!
# Exactly rounded sums

The sum of finite doubles is taken in whole numbers and rounded once, so it does not depend on
the order of the terms. The mean divides that sum by the count.
-/

set_option autoImplicit false

namespace Funnel.Number

/-- The sum of finite doubles in units of 2 ^ -1074, the smallest double; others count as zero. -/
def unitsOfDouble (x : Float) : Int :=
  match Reading.ofDouble x with
  | .finite negative significand exponent =>
    let n : Int := (significand * pow2 (exponent + 1074).toNat : Nat)
    if negative then -n else n
  | _ => 0

def doubleOfUnits (n : Int) : Float := nearest (decide (n < 0)) n.natAbs (pow2 1074)

def totalUnits : List Float → Int
  | [] => 0
  | x :: xs => unitsOfDouble x + totalUnits xs

def runningUnits : Int → List Float → List Int
  | _, [] => []
  | total, x :: xs => (total + unitsOfDouble x) :: runningUnits (total + unitsOfDouble x) xs

/-- The exactly rounded sum; none when a running sum is beyond the largest double. -/
def exactSum? (xs : List Float) : Option Float :=
  if (runningUnits 0 xs).all fun n => isFinite (doubleOfUnits n) then
    some (doubleOfUnits (totalUnits xs))
  else none

theorem totalUnits_perm {xs ys : List Float} (h : xs.Perm ys) : totalUnits xs = totalUnits ys := by
  induction h with
  | nil => rfl
  | cons x _ ih => simp only [totalUnits, ih]
  | swap x y l =>
    simp only [totalUnits]
    omega
  | trans _ _ ih₁ ih₂ => exact ih₁.trans ih₂

/-- The sum of the doubles added from left to right. -/
def plainSum (xs : List Float) : Float := xs.foldl (· + ·) 0.0

/-- The middle value of a non-empty list, or the mean of the two middle ones. -/
def median (xs : List Float) : Float :=
  let sorted := xs.mergeSort fun a b => decide (a ≤ b)
  let n := sorted.length
  let entry (i : Nat) : Float := sorted.getD i 0.0
  if n % 2 = 1 then entry (n / 2) else (entry (n / 2 - 1) + entry (n / 2)) / 2

def larger (x y : Float) : Float := if x < y then y else x

end Funnel.Number
