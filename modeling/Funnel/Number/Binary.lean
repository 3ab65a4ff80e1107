import Funnel.Number.Power

/-!
# Doubles as exact numbers

A double is read as a sign, a whole significand and a power of two, so that rounding, printing
and exact sums are done in whole numbers. `nearest` goes the other way: the double closest to a
quotient of whole numbers, a tie going to the even significand.
-/

set_option autoImplicit false

namespace Funnel.Number

/-- What a double stands for; a finite one is ± significand · 2 ^ exponent. -/
inductive Reading where
  | notANumber
  | infinite (negative : Bool)
  | finite (negative : Bool) (significand : Nat) (exponent : Int)
deriving DecidableEq

def Reading.ofBits (bits : Nat) : Reading :=
  let negative := bits / pow2 63 % 2 == 1
  let biased : Nat := bits / pow2 52 % 2048
  let fraction := bits % pow2 52
  if biased = 2047 then if fraction = 0 then .infinite negative else .notANumber
  else if biased = 0 then .finite negative fraction (-1074)
  else .finite negative (fraction + pow2 52) ((biased : Int) - 1075)

def Reading.ofDouble (x : Float) : Reading := .ofBits x.toBits.toNat

structure Ratio where
  num : Nat
  den : Nat

def Ratio.ofScaled (significand : Nat) (exponent : Int) : Ratio :=
  match exponent with
  | .ofNat e => ⟨significand * pow2 e, 1⟩
  | .negSucc e => ⟨significand, pow2 (e + 1)⟩

theorem Ratio.den_ofScaled_pos (significand : Nat) (exponent : Int) :
    0 < (Ratio.ofScaled significand exponent).den := by
  cases exponent with
  | ofNat e => exact Nat.one_pos
  | negSucc e => exact pow2_pos (e + 1)

/-- A quotient rounded to a whole number, a half going to the even neighbour. -/
def roundHalfEven (num den : Nat) : Nat :=
  let q := num / den
  let r := num % den
  if den < 2 * r ∨ (2 * r = den ∧ q % 2 = 1) then q + 1 else q

/-- The rounded quotient is within half a unit of the quotient. -/
theorem roundHalfEven_bounds {num den : Nat} (h : 0 < den) :
    2 * num ≤ 2 * (den * roundHalfEven num den) + den ∧
      2 * (den * roundHalfEven num den) ≤ 2 * num + den := by
  have hdm := Nat.div_add_mod num den
  have hlt := Nat.mod_lt num h
  unfold roundHalfEven
  simp only
  have hmul : den * (num / den + 1) = den * (num / den) + den := Nat.mul_succ _ _
  generalize num / den = q at *
  generalize num % den = r at *
  split
  · rw [hmul]
    omega
  · omega

theorem roundHalfEven_of_dvd {k den : Nat} (h : 0 < den) : roundHalfEven (k * den) den = k := by
  unfold roundHalfEven
  simp only [Nat.mul_mod_left, Nat.mul_div_cancel _ h]
  split <;> omega

/-- The exponent of the last place when `num / den` is written with 53 significant bits, or
fewer where doubles have no smaller unit. -/
def unitExponent (num den : Nat) : Int :=
  let low : Int := (num.log2 : Int) - den.log2 - 53
  let scaled := Ratio.ofScaled 1 low
  let e := if num * scaled.den < pow2 53 * (den * scaled.num) then low else low + 1
  if e < -1074 then -1074 else e

/-- The bits of the double nearest to `num / den`, the sign bit left out. A magnitude that
rounds beyond the largest double gives infinity. -/
def nearestBits (num den : Nat) : Nat :=
  if num = 0 then 0
  else
    let e := unitExponent num den
    let unit := Ratio.ofScaled 1 e
    let q := roundHalfEven (num * unit.den) (den * unit.num)
    let bits := (e + 1074).toNat * pow2 52 + q
    if bits < 2047 * pow2 52 then bits else 2047 * pow2 52

/-- The double nearest to ± `num / den`, a tie going to the even significand. -/
def nearest (negative : Bool) (num den : Nat) : Float :=
  Float.ofBits (UInt64.ofNat (nearestBits num den + if negative then pow2 63 else 0))

def ofInt (n : Int) : Float := nearest (decide (n < 0)) n.natAbs 1

def isNaN (x : Float) : Bool := Reading.ofDouble x == .notANumber

def isFinite (x : Float) : Bool :=
  match Reading.ofDouble x with
  | .finite .. => true
  | _ => false

def fraction? (x : Float) : Option (Bool × Ratio) :=
  match Reading.ofDouble x with
  | .finite negative significand exponent => some (negative, .ofScaled significand exponent)
  | _ => none

def toInt? (x : Float) : Option Int := do
  let (negative, r) ← fraction? x
  if r.num % r.den = 0 then
    let n : Int := (r.num / r.den : Nat)
    some (if negative then -n else n)
  else none

/-- A finite double cut to a whole number toward zero. -/
def truncate? (x : Float) : Option Int := do
  let (negative, r) ← fraction? x
  let n : Int := (r.num / r.den : Nat)
  some (if negative then -n else n)

/-- A finite double rounded to `places` decimal places on its exact value, ties to even, and
back to a double; other doubles stay as they are. -/
def roundPlaces (places : Nat) (x : Float) : Float :=
  match fraction? x with
  | some (negative, r) =>
    nearest negative (roundHalfEven (r.num * pow10 places) r.den) (pow10 places)
  | none => x

end Funnel.Number
