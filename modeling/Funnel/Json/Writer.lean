import Funnel.Value

/-!
# Writing JSON

Answers are written as JSON in raw Unicode. A double that is whole and below 10 ^ 15 is written
as a whole number, any other by its shortest decimal. What JSON has no form for, an infinite
double, not-a-number or an exact decimal, is an object with one marked field.
-/

set_option autoImplicit false

namespace Funnel.Json

open Funnel.Number Funnel.Calendar

def textChar (c : Char) : List Char :=
  if c = '"' ∨ c = '\\' then ['\\', c]
  else if c = '\n' then ['\\', 'n']
  else if c = '\r' then ['\\', 'r']
  else if c = '\t' then ['\\', 't']
  else if c.toNat < 32 then '\\' :: 'u' :: Text.hexDigits 4 c.toNat
  else [c]

def text (s : String) : String := String.ofList ('"' :: s.toList.flatMap textChar ++ ['"'])

/-- An object with one field that holds a text. -/
def marked (mark s : String) : String := "\x7b" ++ text mark ++ ": " ++ text s ++ "\x7d"

def double (x : Float) : String :=
  match Reading.ofDouble x with
  | .notANumber => marked "$float" "nan"
  | .infinite negative => marked "$float" (if negative then "-inf" else "inf")
  | .finite .. =>
    match toInt? x with
    | some n => if n.natAbs < pow10 15 then toString n else showDouble x
    | none => showDouble x

mutual

def write : Value → String
  | .null => "null"
  | .bool b => if b then "true" else "false"
  | .int n => toString n
  | .double x => double x
  | .decimal d => marked "$decimal" d.toText
  | .text s => text s
  | .date d => text d.iso
  | .moment m => text m.iso
  | .list items => "[" ++ writeItems items ++ "]"
  | .object fields => "\x7b" ++ writeFields fields ++ "\x7d"

def writeItems : List Value → String
  | [] => ""
  | [v] => write v
  | v :: rest => write v ++ ", " ++ writeItems rest

def writeFields : List (String × Value) → String
  | [] => ""
  | [(n, v)] => text n ++ ": " ++ write v
  | (n, v) :: rest => text n ++ ": " ++ write v ++ ", " ++ writeFields rest

end

end Funnel.Json
