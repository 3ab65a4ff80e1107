import Funnel.Number.Decimal

/-!
# Decimal arithmetic

Sums, products and quotients of decimals, worked out exactly and then rounded to 28 digits with a
half going to the even neighbour. A result that is no number or is beyond the largest decimal is a
signal. A quotient has as few digits as its exponent allows, and a whole quotient has to fit into
the precision.
-/

set_option autoImplicit false

namespace Funnel.Number

/-- What an operation on decimals runs into. -/
inductive Signal where
  | invalidOperation
  | overflow
deriving DecidableEq, Repr

namespace Decimal

/-- Digits that a result has at most. -/
def precision : Nat := 28

/-- The exponent of the first digit of the largest decimals. -/
def maxExponent : Int := 999999

/-- The exponent of the last digit of the largest decimals. -/
def topExponent : Int := 999972

/-- The exponent of the smallest decimal. -/
def tinyExponent : Int := -1000026

/-- The number of digits of a coefficient; zero has one. -/
def digitCount (n : Nat) : Nat := (Nat.toDigits 10 n).length

/-- A coefficient cut by `drop` digits, with a half going to the even neighbour. -/
def dropDigits (n drop : Nat) : Nat :=
  if digitCount n < drop then 0 else roundHalfEven n (pow10 drop)

/-- The decimal of the given precision nearest to ± coefficient · 10 ^ exponent. -/
def rounded (negative : Bool) (coefficient : Nat) (exponent : Int) : Except Signal Decimal :=
  if coefficient = 0 then
    .ok (.finite negative 0 (min (max exponent tinyExponent) maxExponent))
  else
    let least := digitCount coefficient + exponent - precision
    if topExponent < least then .error .overflow
    else
      let least := max least tinyExponent
      if exponent < least then
        let n := dropDigits coefficient (least - exponent).toNat
        let (n, least) := if precision < digitCount n then (n / 10, least + 1) else (n, least)
        if topExponent < least then .error .overflow else .ok (.finite negative n least)
      else .ok (.finite negative coefficient exponent)

/-- The payload of a result that is not a number, without leading zeros. -/
def fittedPayload (payload : String) : String :=
  let ds := payload.toList
  if ds.length ≤ precision then payload
  else String.ofList ((ds.drop (ds.length - precision)).dropWhile (· == '0'))

/-- A quiet not-a-number among the operands is the result; a signaling one is a signal. -/
def notANumber? (a b : Decimal) : Option (Except Signal Decimal) :=
  match a, b with
  | .notANumber _ true _, _ | _, .notANumber _ true _ => some (.error .invalidOperation)
  | .notANumber negative false payload, _ | _, .notANumber negative false payload =>
    some (.ok (.notANumber negative false (fittedPayload payload)))
  | _, _ => none

def isNegative : Decimal → Bool
  | .finite negative _ _ | .infinite negative | .notANumber negative _ _ => negative

def ofInt (n : Int) : Decimal := .finite (decide (n < 0)) n.natAbs 0

def negated : Decimal → Decimal
  | .finite negative n e => .finite (!negative) n e
  | .infinite negative => .infinite (!negative)
  | .notANumber negative signaling payload => .notANumber (!negative) signaling payload

/-- A coefficient written with a smaller exponent, or cut to a larger one. -/
def rescaled (n : Nat) (exponent wanted : Int) : Nat :=
  if wanted ≤ exponent then n * pow10 (exponent - wanted).toNat
  else dropDigits n (wanted - exponent).toNat

/-- The sum of two finite decimals. A term that is too small to show is replaced by one that
rounds the same way, so that no coefficient grows without need. -/
def addFinite (s : Bool) (m : Nat) (e : Int) (t : Bool) (n : Nat) (f : Int) :
    Except Signal Decimal :=
  if m = 0 ∧ n = 0 then rounded (s && t) 0 (min e f)
  else if m = 0 then
    let e := max (min e f) (f - precision - 1)
    rounded t (rescaled n f e) e
  else if n = 0 then
    let f := max (min e f) (e - precision - 1)
    rounded s (rescaled m e f) f
  else
    let (s, m, e, t, n, f) := if e < f then (t, n, f, s, m, e) else (s, m, e, t, n, f)
    let least : Int := e + min (-1) ((digitCount m : Int) - precision - 2)
    let (n, f) := if digitCount n + f - 1 < least then (1, least) else (n, f)
    let m := m * pow10 (e - f).toNat
    if s = t then rounded s (m + n) f
    else if n < m then rounded s (m - n) f
    else if m < n then rounded t (n - m) f
    else rounded false 0 f

def add (a b : Decimal) : Except Signal Decimal :=
  match notANumber? a b with
  | some result => result
  | none =>
    match a, b with
    | .finite s m e, .finite t n f => addFinite s m e t n f
    | .infinite s, .infinite t => if s = t then .ok (.infinite s) else .error .invalidOperation
    | .infinite s, _ => .ok (.infinite s)
    | _, b => .ok b

def sub (a b : Decimal) : Except Signal Decimal :=
  match notANumber? a b with
  | some result => result
  | none => add a b.negated

def mul (a b : Decimal) : Except Signal Decimal :=
  match notANumber? a b with
  | some result => result
  | none =>
    let negative := a.isNegative != b.isNegative
    match a, b with
    | .finite _ m e, .finite _ n f => rounded negative (m * n) (e + f)
    | _, _ => if a.isZero || b.isZero then .error .invalidOperation else .ok (.infinite negative)

/-- Trailing zeros moved into the exponent, up to the exponent that is wanted. -/
def stripped (fuel : Nat) (n : Nat) (e wanted : Int) : Nat × Int :=
  match fuel with
  | 0 => (n, e)
  | fuel + 1 => if e < wanted ∧ n % 10 = 0 then stripped fuel (n / 10) (e + 1) wanted else (n, e)

/-- The quotient of two finite decimals, the second not zero. One digit more than the precision is
worked out, and a remainder keeps that digit away from a half. -/
def divFinite (negative : Bool) (m : Nat) (e : Int) (n : Nat) (f : Int) : Except Signal Decimal :=
  if m = 0 then rounded negative 0 (e - f)
  else
    let shift : Int := digitCount n - digitCount m + precision + 1
    let p : Nat := pow10 shift.natAbs
    let (num, den) := if 0 ≤ shift then (m * p, n) else (m, n * p)
    let q := num / den
    if num % den = 0 then
      let (q, g) := stripped (digitCount q) q (e - f - shift) (e - f)
      rounded negative q g
    else rounded negative (if q % 5 = 0 then q + 1 else q) (e - f - shift)

def div (a b : Decimal) : Except Signal Decimal :=
  match notANumber? a b with
  | some result => result
  | none =>
    let negative := a.isNegative != b.isNegative
    match a, b with
    | .finite _ m e, .finite _ n f =>
      if n = 0 then .error .invalidOperation else divFinite negative m e n f
    | .infinite _, .finite _ _ _ => .ok (.infinite negative)
    | .finite _ _ _, _ => .ok (.finite negative 0 tinyExponent)
    | _, _ => .error .invalidOperation

/-- The whole quotient of two magnitudes and the remainder with its exponent; none if the quotient
has too many digits. -/
def wholeDivision? (m : Nat) (e : Int) (n : Nat) (f : Int) : Option (Nat × Nat × Int) :=
  let distance : Int := digitCount m + e - (digitCount n + f)
  let ideal := min e f
  if m = 0 ∨ distance ≤ -2 then some (0, rescaled m e ideal, ideal)
  else if distance ≤ precision then
    let m := m * pow10 (e - ideal).toNat
    let n := n * pow10 (f - ideal).toNat
    if m / n < pow10 precision then some (m / n, m % n, ideal) else none
  else none

/-- The quotient by a positive whole number, cut toward zero. -/
def divWhole (a : Decimal) (k : Nat) : Except Signal Decimal :=
  match a with
  | .notANumber _ true _ => .error .invalidOperation
  | .notANumber s false payload => .ok (.notANumber s false (fittedPayload payload))
  | .infinite s => .ok (.infinite s)
  | .finite s m e =>
    match wholeDivision? m e k 0 with
    | some (q, _, _) => .ok (.finite s q 0)
    | none => .error .invalidOperation

/-- What the cut quotient by a positive whole number leaves. -/
def modWhole (a : Decimal) (k : Nat) : Except Signal Decimal :=
  match a with
  | .notANumber _ true _ | .infinite _ => .error .invalidOperation
  | .notANumber s false payload => .ok (.notANumber s false (fittedPayload payload))
  | .finite s m e =>
    match wholeDivision? m e k 0 with
    | some (_, r, g) => rounded s r g
    | none => .error .invalidOperation

def compareMagnitudes (m : Nat) (e : Int) (n : Nat) (f : Int) : Ordering :=
  if m = 0 ∨ n = 0 then compare m n
  else
    match compare (digitCount m + e) (digitCount n + f) with
    | .eq =>
      let ideal := min e f
      compare (m * pow10 (e - ideal).toNat) (n * pow10 (f - ideal).toNat)
    | o => o

def compare? (a b : Decimal) : Option Ordering :=
  match a, b with
  | .notANumber .., _ | _, .notANumber .. => none
  | .infinite s, .infinite t => some (compare t.toNat s.toNat)
  | .infinite s, _ => some (if s then .lt else .gt)
  | _, .infinite t => some (if t then .gt else .lt)
  | .finite s m e, .finite t n f =>
    if m = 0 ∧ n = 0 then some .eq
    else if m = 0 then some (if t then .gt else .lt)
    else if n = 0 then some (if s then .lt else .gt)
    else
      match s, t with
      | false, true => some .gt
      | true, false => some .lt
      | false, false => some (compareMagnitudes m e n f)
      | true, true => some (compareMagnitudes n f m e)

def truncate? : Decimal → Option Int
  | .finite negative m e =>
    let n : Nat := if 0 ≤ e then m * pow10 e.toNat else m / pow10 e.natAbs
    some (if negative then -n else n)
  | _ => none

def ofDouble (x : Float) : Decimal :=
  match Reading.ofDouble x with
  | .notANumber => .notANumber false false ""
  | .infinite negative => .infinite negative
  | .finite negative m e =>
    if 0 ≤ e then .finite negative (m * pow2 e.toNat) 0
    else .finite negative (m * Nat.pow 5 e.natAbs) e

end Decimal

end Funnel.Number
