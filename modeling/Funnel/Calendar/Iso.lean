import Funnel.Calendar.Moment
import Funnel.Number.Numeral
import Funnel.Number.Shortest

/-!
# ISO 8601 text

Dates are read in the extended and basic calendar forms and in the week forms. A moment is a
date, any one character, and a time with up to six digits of a fraction and an offset. The
reader is lenient where the format leaves room: digits after the sixth are dropped, and one odd
ASCII character may stand right before an offset.
-/

set_option autoImplicit false

namespace Funnel.Calendar

open Funnel.Number Funnel.Text

namespace Iso

/-- The first character, or NUL where the text has ended. -/
def peek : List Char → Char
  | [] => '\x00'
  | c :: _ => c

/-- A number of exactly `count` digits, and what follows. -/
def digits? (count : Nat) (cs : List Char) : Option (Nat × List Char) :=
  let ds := cs.take count
  if ds.length = count ∧ ds.all isAsciiDigit then some (natOfDigits ds, cs.drop count) else none

/-- The date at the head of a text of which `size` characters belong to it. What stands after a
complete date is not looked at. -/
def leadingDate? (size : Nat) (cs : List Char) : Option Date := do
  let (year, r) ← digits? 4 cs
  let dashed := peek r == '-'
  let r := if dashed then r.drop 1 else r
  if peek r = 'W' then
    let (week, r) ← digits? 2 (r.drop 1)
    let used := if dashed then 8 else 7
    if used < size then
      if dashed ∧ peek r ≠ '-' then none
      else
        let (weekday, _) ← digits? 1 (if dashed then r.drop 1 else r)
        Date.ofIsoWeek? year week weekday
    else Date.ofIsoWeek? year week 1
  else
    let (month, r) ← digits? 2 r
    if dashed ∧ peek r ≠ '-' then none
    else
      let (day, _) ← digits? 2 (if dashed then r.drop 1 else r)
      Date.ofCivil? year month day

/-- A text that is only a date: 7, 8 or 10 bytes long. -/
def date? (s : String) : Option Date :=
  if s.utf8ByteSize = 7 ∨ s.utf8ByteSize = 8 ∨ s.utf8ByteSize = 10 then
    leadingDate? s.utf8ByteSize s.toList
  else none

/-- How many characters of a moment's text belong to its date. -/
def dateLength (cs : List Char) : Nat :=
  let char (i : Nat) : Char := cs.getD i '\x00'
  if cs.length = 7 then 7
  else if char 4 = '-' then
    if char 5 = 'W' then
      if 8 < cs.length ∧ char 8 = '-' then
        if 10 < cs.length ∧ isAsciiDigit (char 10) then 8 else 10
      else 8
    else 10
  else if char 4 = 'W' then
    let run := 7 + ((cs.drop 7).takeWhile isAsciiDigit).length
    if run < 9 then run else if run % 2 = 0 then 7 else 8
  else 8

/-- Hour, minute, second and microseconds as read, and whether something was left over. -/
structure TimeFields where
  hour : Nat
  minute : Nat
  second : Nat
  micros : Nat
  leftover : Bool

/-- The digits of a fraction as microseconds; `next` is the character after the time. -/
def fraction? (next : Char) (cs : List Char) : Option (Nat × Bool) := do
  let count := min cs.length 6
  if count = 0 then none
  else
    let (n, r) ← digits? count cs
    let r := r.dropWhile isAsciiDigit
    let last := if r = [] then next else peek r
    some (n * pow10 (6 - count), last != '\x00')

/-- What follows one two-digit field of a time. -/
inductive After where
  | done (leftover : Bool)
  | field (rest : List Char)
  | fraction (rest : List Char)
  | broken

/-- Decides how a time goes on after a field. Whether fields are parted by colons shows after
the first one. -/
def after (colons : Bool) (next : Char) (cs : List Char) : After :=
  match cs with
  | [] => .done (next != '\x00')
  | [c] => if c.toNat < 128 then .done (c != '\x00') else .broken
  | c :: r =>
    if colons ∧ c = ':' then .field r
    else if c = '.' ∨ c = ',' then .fraction r
    else if colons then .broken
    else .field cs

/-- A time with one to three fields and a fraction; `next` is the character after it. -/
def timeFields? (next : Char) (cs : List Char) : Option TimeFields := do
  let (hour, r) ← digits? 2 cs
  let colons := (if r = [] then next else peek r) == ':'
  match after colons next r with
  | .broken => none
  | .done leftover => some ⟨hour, 0, 0, 0, leftover⟩
  | .fraction r => (fraction? next r).map fun (us, left) => ⟨hour, 0, 0, us, left⟩
  | .field r =>
    let (minute, r) ← digits? 2 r
    match after colons next r with
    | .broken => none
    | .done leftover => some ⟨hour, minute, 0, 0, leftover⟩
    | .fraction r => (fraction? next r).map fun (us, left) => ⟨hour, minute, 0, us, left⟩
    | .field r =>
      let (second, r) ← digits? 2 r
      match after colons next r with
      | .broken => none
      | .done leftover => some ⟨hour, minute, second, 0, leftover⟩
      | .fraction r | .field r =>
        (fraction? next r).map fun (us, left) => ⟨hour, minute, second, us, left⟩

def isOffsetSign (c : Char) : Bool := c == '+' || c == '-' || c == 'Z'

/-- A UTC offset in microseconds from its fields. An offset of no whole second counts as zero;
a day or more is no offset. -/
def offsetOfFields? (negative : Bool) (f : TimeFields) : Option Int :=
  let seconds := f.hour * 3600 + f.minute * 60 + f.second
  let micros : Int := (seconds * microsPerSecond + f.micros : Nat)
  if seconds = 0 then some 0
  else if micros < microsPerDay then some (if negative then -micros else micros)
  else none

def clock? (cs : List Char) : Option ClockTime := do
  let time := cs.takeWhile fun c => !isOffsetSign c
  match cs.dropWhile fun c => !isOffsetSign c with
  | [] =>
    let f ← timeFields? '\x00' time
    if f.leftover then none else ClockTime.ofFields? f.hour f.minute f.second f.micros none
  | sign :: zone =>
    let f ← timeFields? sign time
    let offset ←
      if sign = 'Z' then if peek zone = '\x00' then some 0 else none
      else do
        let z ← timeFields? '\x00' zone
        if z.leftover then none else offsetOfFields? (sign == '-') z
    ClockTime.ofFields? f.hour f.minute f.second f.micros (some offset)

/-- A time of day, with a leading `T` or without. -/
def time? (s : String) : Option ClockTime :=
  match s.toList with
  | 'T' :: r => clock? r
  | cs => clock? cs

/-- A date, or a date and a time parted by any one character. -/
def moment? (s : String) : Option Moment :=
  let cs := s.toList
  if cs.length < 7 then none
  else do
    let n := dateLength cs
    let date ← leadingDate? n (cs.take n)
    match cs.drop n with
    | [] => some (.onDay date .midnight)
    | _ :: r =>
      let t ← clock? r
      some (.onDay date t)

end Iso

/-- `n` with at least `width` digits. -/
def padded (width n : Nat) : String := String.ofList (paddedDigits width n)

def Date.iso (d : Date) : String :=
  padded 4 d.year ++ "-" ++ padded 2 d.month ++ "-" ++ padded 2 d.day

/-- The time of day as HH:MM:SS, with six digits of a fraction when it is not zero. -/
def clockText (micros : Nat) : String :=
  let seconds := micros / microsPerSecond
  let part := micros % microsPerSecond
  padded 2 (seconds / 3600) ++ ":" ++ padded 2 (seconds / 60 % 60) ++ ":" ++
    padded 2 (seconds % 60) ++ if part = 0 then "" else "." ++ padded 6 part

/-- A UTC offset as +HH:MM, with seconds and a fraction where they are not zero. -/
def offsetText (offset : Int) : String :=
  let sign := if offset < 0 then "-" else "+"
  let seconds := offset.natAbs / microsPerSecond
  let part := offset.natAbs % microsPerSecond
  sign ++ padded 2 (seconds / 3600) ++ ":" ++ padded 2 (seconds / 60 % 60) ++
    (if seconds % 60 = 0 ∧ part = 0 then "" else ":" ++ padded 2 (seconds % 60)) ++
    if part = 0 then "" else "." ++ padded 6 part

def ClockTime.iso (t : ClockTime) : String :=
  clockText t.micros ++ match t.offset with
    | none => ""
    | some o => offsetText o

/-- The moment with `separator` between date and time. -/
def Moment.text (separator : String) (m : Moment) : String :=
  m.date.iso ++ separator ++ clockText m.micros ++ match m.offset with
    | none => ""
    | some o => offsetText o

def Moment.iso (m : Moment) : String := m.text "T"

end Funnel.Calendar
