import Funnel.Value

/-!
# Reading JSON

The grammar of RFC 8259, with the numbers `NaN`, `Infinity` and `-Infinity` besides. Whole
numbers stay whole; the last of several fields of one name counts. Whole numbers of more than
4300 digits are refused; that is the one limit on digits that is kept, and nesting has none.
-/

set_option autoImplicit false

namespace Funnel.Json

open Funnel.Number Funnel.Text

def isSpace (c : Char) : Bool := c == ' ' || c == '\t' || c == '\n' || c == '\r'

def skip (cs : List Char) : List Char := cs.dropWhile isSpace

def hexValue? (c : Char) : Option Nat :=
  if '0' ≤ c ∧ c ≤ '9' then some (c.toNat - 48)
  else if 'a' ≤ c ∧ c ≤ 'f' then some (c.toNat - 87)
  else if 'A' ≤ c ∧ c ≤ 'F' then some (c.toNat - 55)
  else none

def hex4? : List Char → Option (Nat × List Char)
  | a :: b :: c :: d :: r => do
    let a ← hexValue? a
    let b ← hexValue? b
    let c ← hexValue? c
    let d ← hexValue? d
    some (((a * 16 + b) * 16 + c) * 16 + d, r)
  | _ => none

/-- The character of an escape after its `u`; two halves of a pair give one character, and a half
on its own the replacement character. -/
def unicodeEscape? (cs : List Char) : Option (Char × List Char) := do
  let (n, r) ← hex4? cs
  if 0xD800 ≤ n ∧ n < 0xDC00 then
    match r with
    | '\\' :: 'u' :: r' =>
      match hex4? r' with
      | some (m, r'') =>
        if 0xDC00 ≤ m ∧ m < 0xE000 then
          some (Char.ofNat (0x10000 + (n - 0xD800) * 1024 + (m - 0xDC00)), r'')
        else some ('\uFFFD', r)
      | none => some ('\uFFFD', r)
    | _ => some ('\uFFFD', r)
  else if 0xDC00 ≤ n ∧ n < 0xE000 then some ('\uFFFD', r)
  else some (Char.ofNat n, r)

/-- The rest of a text after its opening mark; `acc` holds what was read, in reverse. -/
def textTail? : (fuel : Nat) → List Char → (acc : List Char) → Option (String × List Char)
  | 0, _, _ => none
  | _ + 1, [], _ => none
  | n + 1, c :: r, acc =>
    if c = '"' then some (String.ofList acc.reverse, r)
    else if c = '\\' then
      match r with
      | '"' :: r => textTail? n r ('"' :: acc)
      | '\\' :: r => textTail? n r ('\\' :: acc)
      | '/' :: r => textTail? n r ('/' :: acc)
      | 'b' :: r => textTail? n r ('\x08' :: acc)
      | 'f' :: r => textTail? n r ('\x0c' :: acc)
      | 'n' :: r => textTail? n r ('\n' :: acc)
      | 'r' :: r => textTail? n r ('\r' :: acc)
      | 't' :: r => textTail? n r ('\t' :: acc)
      | 'u' :: r =>
        match unicodeEscape? r with
        | some (c, r) => textTail? n r (c :: acc)
        | none => none
      | _ => none
    else if c.toNat < 32 then none
    else textTail? n r (c :: acc)

def number? (cs : List Char) : Option (Value × List Char) := do
  let (negative, body) := match cs with
    | '-' :: r => (true, r)
    | _ => (false, cs)
  let whole ← match body with
    | '0' :: _ => some ['0']
    | c :: _ => if isAsciiDigit c then some (body.takeWhile isAsciiDigit) else none
    | [] => none
  let rest := body.drop whole.length
  let (part, rest) := match rest with
    | '.' :: r =>
      let ds := r.takeWhile isAsciiDigit
      if ds = [] then ([], rest) else (ds, r.dropWhile isAsciiDigit)
    | _ => ([], rest)
  let (power, rest) := match rest with
    | e :: r =>
      if e = 'e' ∨ e = 'E' then
        let (sign, ds) := match r with
          | '+' :: r => (['+'], r)
          | '-' :: r => (['-'], r)
          | _ => ([], r)
        let exponent := ds.takeWhile isAsciiDigit
        if exponent = [] then ([], rest) else (e :: sign ++ exponent, ds.dropWhile isAsciiDigit)
      else ([], rest)
    | [] => ([], [])
  if part = [] ∧ power = [] then
    if 4300 < whole.length then none
    else
      let n : Int := natOfDigits whole
      some (.int (if negative then -n else n), rest)
  else do
    let e ← tenPower? power
    some (.double (Numeral.toDouble ⟨negative, natOfDigits (whole ++ part), e - part.length⟩), rest)

def word? (word : String) (v : Value) (cs : List Char) : Option (Value × List Char) :=
  if word.toList.isPrefixOf cs then some (v, cs.drop word.length) else none

mutual

def value? : (fuel : Nat) → List Char → Option (Value × List Char)
  | 0, _ => none
  | n + 1, cs =>
    match cs with
    | [] => none
    | '"' :: r => (textTail? (r.length + 1) r []).map fun (s, r) => (.text s, r)
    | '[' :: r =>
      match skip r with
      | ']' :: r => some (.list [], r)
      | r => (items? n r []).map fun (vs, r) => (.list vs, r)
    | '\x7b' :: r =>
      match skip r with
      | '\x7d' :: r => some (.object [], r)
      | r => (fields? n r []).map fun (fs, r) => (.object fs, r)
    | 'n' :: _ => word? "null" .null cs
    | 't' :: _ => word? "true" (.bool true) cs
    | 'f' :: _ => word? "false" (.bool false) cs
    | 'N' :: _ => word? "NaN" (.double (0.0 / 0.0)) cs
    | 'I' :: _ => word? "Infinity" (.double (1.0 / 0.0)) cs
    | '-' :: 'I' :: _ => word? "-Infinity" (.double (-(1.0 / 0.0))) cs
    | _ => number? cs

def items? : (fuel : Nat) → List Char → (acc : List Value) → Option (List Value × List Char)
  | 0, _, _ => none
  | n + 1, cs, acc =>
    match value? n cs with
    | none => none
    | some (v, r) =>
      match skip r with
      | ',' :: r => items? n (skip r) (v :: acc)
      | ']' :: r => some ((v :: acc).reverse, r)
      | _ => none

def fields? : (fuel : Nat) → List Char → (acc : Fields) → Option (Fields × List Char)
  | 0, _, _ => none
  | n + 1, cs, acc =>
    match cs with
    | '"' :: r =>
      match textTail? (r.length + 1) r [] with
      | none => none
      | some (name, r) =>
        match skip r with
        | ':' :: r =>
          match value? n (skip r) with
          | none => none
          | some (v, r) =>
            let acc := Named.put acc name v
            match skip r with
            | ',' :: r => fields? n (skip r) acc
            | '\x7d' :: r => some (acc, r)
            | _ => none
        | _ => none
    | _ => none

end

def read? (s : String) : Option Value :=
  let cs := skip s.toList
  match value? (2 * cs.length + 2) cs with
  | some (v, r) => if skip r = [] then some v else none
  | none => none

end Funnel.Json
