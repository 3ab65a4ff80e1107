import Funnel.Number.Binary

/-!
# The shortest decimal of a double

Among the decimals that read back as a given double, those with the fewest significant digits
are considered, and of these the nearest to the double, a tie going to the even last digit.
-/

set_option autoImplicit false

namespace Funnel.Number

/-- A positive decimal digits · 10 ^ exponent. -/
structure Digits where
  digits : Nat
  exponent : Int
deriving DecidableEq

/-- The range of the numbers that round to significand · 2 ^ exponent, as numerators over `den`. -/
structure Window where
  value : Nat
  low : Nat
  high : Nat
  closed : Bool
  den : Nat

/-- Half a unit on either side of the value; below a power of two the lower half unit is half as
long. The ends round to the value when its significand is even. -/
def Window.ofScaled (significand : Nat) (exponent : Int) : Window :=
  let unit := Ratio.ofScaled 1 exponent
  let v := 4 * significand * unit.num
  let below := if significand = pow2 52 ∧ -1074 < exponent then unit.num else 2 * unit.num
  { value := v
    low := v - below
    high := v + 2 * unit.num
    closed := significand % 2 == 0
    den := 4 * unit.den }

/-- Whether c · 10 ^ e lies in the window. -/
def Window.holds (w : Window) (c : Nat) (e : Int) : Bool :=
  let p : Nat := pow10 e.natAbs
  let (x, lo, hi) :=
    if 0 ≤ e then (c * p * w.den, w.low, w.high) else (c * w.den, w.low * p, w.high * p)
  if w.closed then lo ≤ x && x ≤ hi else lo < x && x < hi

def decimalMagnitude (num den : Nat) : Int :=
  let guess : Int := (((num.log2 : Int) - den.log2) * 30103) / 100000 - 1
  let below (k : Int) : Bool :=
    if 0 ≤ k then num < den * pow10 k.natAbs else num * pow10 k.natAbs < den
  ((List.range 5).map fun i : Nat => guess + i).find? below |>.getD (guess + 5)

/-- The best decimal with unit 10 ^ e inside the window, if there is one. -/
def Window.onGrid? (w : Window) (e : Int) : Option Digits :=
  let p : Nat := pow10 e.natAbs
  let (num, den) := if 0 ≤ e then (w.value, w.den * p) else (w.value * p, w.den)
  let c := num / den
  let r := num % den
  match w.holds c e && c != 0, w.holds (c + 1) e with
  | true, true =>
    if 2 * r < den ∨ (2 * r = den ∧ c % 2 = 0) then some ⟨c, e⟩ else some ⟨c + 1, e⟩
  | true, false => some ⟨c, e⟩
  | false, true => some ⟨c + 1, e⟩
  | false, false => none

def Digits.strip (fuel : Nat) (d : Digits) : Digits :=
  match fuel with
  | 0 => d
  | n + 1 =>
    if d.digits ≠ 0 ∧ d.digits % 10 = 0 then Digits.strip n ⟨d.digits / 10, d.exponent + 1⟩ else d

/-- The shortest decimal that reads back as significand · 2 ^ exponent, without trailing zeros. -/
def shortestDigits (significand : Nat) (exponent : Int) : Digits :=
  let w := Window.ofScaled significand exponent
  let k := decimalMagnitude w.value w.den
  let grids := (List.range 17).map fun i : Nat => k - 1 - (i : Int)
  (grids.findSome? w.onGrid?).getD ⟨significand, exponent⟩ |>.strip 20

/-- How a general decimal number is written out. -/
structure GeneralFormat where
  /-- Decimal points further left than this, counted from the first digit, use an exponent. -/
  lowestPoint : Int
  /-- Decimal points further right than this use an exponent. -/
  highestPoint : Int
  /-- Digits that the exponent has at least. -/
  exponentWidth : Nat
  /-- Whether a whole number ends in a point and a zero. -/
  showsPoint : Bool

def paddedDigits (width n : Nat) : List Char :=
  let ds := Nat.toDigits 10 n
  List.replicate (width - ds.length) '0' ++ ds

def GeneralFormat.write (f : GeneralFormat) (d : Digits) : String :=
  let ds := Nat.toDigits 10 d.digits
  let point : Int := ds.length + d.exponent
  if f.lowestPoint ≤ point ∧ point ≤ f.highestPoint then
    if point ≤ 0 then
      String.ofList ('0' :: '.' :: List.replicate point.natAbs '0' ++ ds)
    else if 0 ≤ d.exponent then
      String.ofList (ds ++ List.replicate d.exponent.natAbs '0' ++
        if f.showsPoint then ['.', '0'] else [])
    else
      String.ofList (ds.take point.natAbs ++ '.' :: ds.drop point.natAbs)
  else
    let e := point - 1
    let mantissa := match ds with
      | [] => []
      | [c] => [c]
      | c :: r => c :: '.' :: r
    let sign := if e < 0 then '-' else '+'
    String.ofList (mantissa ++ 'e' :: sign :: paddedDigits f.exponentWidth e.natAbs)

/-- Numbers are shown positionally from 0.0001 up to 16 digits before the point. -/
def doubleFormat : GeneralFormat := ⟨-3, 16, 2, true⟩

/-- The text of a double: its shortest decimal, `nan`, `inf` or `-inf`. -/
def showDouble (x : Float) : String :=
  match Reading.ofDouble x with
  | .notANumber => "nan"
  | .infinite negative => if negative then "-inf" else "inf"
  | .finite negative significand exponent =>
    let body :=
      if significand = 0 then "0.0" else doubleFormat.write (shortestDigits significand exponent)
    if negative then "-" ++ body else body

end Funnel.Number
