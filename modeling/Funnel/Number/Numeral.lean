import Funnel.Number.Binary
import Funnel.Text.Blank
import Funnel.Text.Case
import Funnel.Text.Digit

/-!
# Reading numbers

A numeral is an optional sign, digits with at most one point, and an optional power of ten. A
free text is read as a number after its ends are trimmed, decimal digits of any script stand for
their value, and a single underscore may stand between two digits. How many digits there are is not
limited.
-/

set_option autoImplicit false

namespace Funnel.Number

open Funnel.Text

/-- ± digits · 10 ^ exponent, as written. -/
structure Numeral where
  negative : Bool
  digits : Nat
  exponent : Int
deriving DecidableEq

def natOfDigits (ds : List Char) : Nat := ds.foldl (fun n c => 10 * n + (c.toNat - 48)) 0

def splitSign : List Char → Bool × List Char
  | '-' :: r => (true, r)
  | '+' :: r => (false, r)
  | r => (false, r)

def tenPower? : List Char → Option Int
  | [] => some 0
  | c :: r =>
    if c = 'e' ∨ c = 'E' then
      let (negative, ds) := splitSign r
      if ds ≠ [] ∧ ds.all isAsciiDigit then
        let e : Int := natOfDigits ds
        some (if negative then -e else e)
      else none
    else none

def numeral? (cs : List Char) : Option Numeral := do
  let (negative, body) := splitSign cs
  let whole := body.takeWhile isAsciiDigit
  let rest := body.dropWhile isAsciiDigit
  let (part, rest) := match rest with
    | '.' :: r => (r.takeWhile isAsciiDigit, r.dropWhile isAsciiDigit)
    | _ => ([], rest)
  if whole = [] ∧ part = [] then none
  else do
    let e ← tenPower? rest
    some ⟨negative, natOfDigits (whole ++ part), e - part.length⟩

def Numeral.toDouble (n : Numeral) : Float :=
  let size : Int := (Nat.log2 n.digits : Nat)
  let low := size + (if 0 ≤ n.exponent then 3 else 4) * n.exponent
  let high := size + 1 + (if 0 ≤ n.exponent then 4 else 3) * n.exponent
  if n.digits = 0 ∨ high < -1100 then nearest n.negative 0 1
  else if 1100 < low then nearest n.negative (pow2 1100) 1
  else
    let p : Nat := pow10 n.exponent.natAbs
    if 0 ≤ n.exponent then nearest n.negative (n.digits * p) 1 else nearest n.negative n.digits p

/-- Digits of any script as ASCII digits; other characters beyond ASCII have no place in a
number. -/
def asciiForm (c : Char) : Char :=
  match decimalValue? c with
  | some v => Char.ofNat (48 + v)
  | none => if c.toNat < 128 then c else '?'

/-- The text without the underscores between two digits; none when one stands elsewhere. -/
def joinDigits? : (afterDigit : Bool) → List Char → Option (List Char)
  | _, [] => some []
  | afterDigit, '_' :: r =>
    match r with
    | c :: _ => if afterDigit && isAsciiDigit c then joinDigits? false r else none
    | [] => none
  | _, c :: r => (joinDigits? (isAsciiDigit c) r).map (c :: ·)

/-- The characters of a free number text, ready for the numeral grammar. -/
def numberChars? (s : String) : Option (List Char) :=
  joinDigits? false ((trimChars s.toList).map asciiForm)

/-- Names of the numbers that have no digits. -/
def specialNumber? (cs : List Char) : Option Float :=
  let (negative, body) := splitSign cs
  let word := String.ofList (body.map lowerChar)
  if word = "inf" ∨ word = "infinity" then
    some (if negative then -(1.0 / 0.0) else 1.0 / 0.0)
  else if word = "nan" then some (0.0 / 0.0)
  else none

def readDouble? (s : String) : Option Float := do
  let cs ← numberChars? s
  match numeral? cs with
  | some n => some n.toDouble
  | none => specialNumber? cs

def readInt? (s : String) : Option Int := do
  let cs ← numberChars? s
  let (negative, ds) := splitSign cs
  if ds ≠ [] ∧ ds.all isAsciiDigit then
    let n : Int := natOfDigits ds
    some (if negative then -n else n)
  else none

end Funnel.Number
