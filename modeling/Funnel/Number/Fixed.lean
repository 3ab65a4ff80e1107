import Funnel.Number.Shortest

/-!
# Fixed decimal places

A number with a given count of decimal places, rounded on its exact value with ties to even.
The digits before the point can be grouped in threes. The sign is that of the number, also
where it rounds to zero.
-/

set_option autoImplicit false

namespace Funnel.Number

def groupThousands (ds : List Char) : List Char :=
  match ds with
  | [] => []
  | c :: r =>
    if r.length % 3 = 0 ∧ r ≠ [] then c :: ',' :: groupThousands r else c :: groupThousands r

def fixedMagnitude (places : Nat) (grouped : Bool) (num den : Nat) : String :=
  let scaled := roundHalfEven (num * pow10 places) den
  let whole := Nat.toDigits 10 (scaled / pow10 places)
  let head := if grouped then groupThousands whole else whole
  if places = 0 then String.ofList head
  else String.ofList (head ++ '.' :: paddedDigits places (scaled % pow10 places))

def fixedRatio (places : Nat) (grouped negative : Bool) (num den : Nat) : String :=
  let body := fixedMagnitude places grouped num den
  if negative then "-" ++ body else body

def fixed (places : Nat) (grouped : Bool) (x : Float) : String :=
  match Reading.ofDouble x with
  | .notANumber => "nan"
  | .infinite negative => if negative then "-inf" else "inf"
  | .finite negative significand exponent =>
    let r := Ratio.ofScaled significand exponent
    fixedRatio places grouped negative r.num r.den

end Funnel.Number
