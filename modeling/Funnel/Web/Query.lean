/-!
# Query strings

Names and values of a query string, in order. A plus is a blank, a percent sign with two
hexadecimal digits is a byte of UTF-8, and other characters beyond ASCII stand for the bytes they
were sent as, one character a byte. Bytes that are no UTF-8 show as the replacement character.
-/

set_option autoImplicit false

namespace Funnel.Web

def hexValue? (c : Char) : Option Nat :=
  if '0' ≤ c ∧ c ≤ '9' then some (c.toNat - '0'.toNat)
  else if 'a' ≤ c ∧ c ≤ 'f' then some (c.toNat - 'a'.toNat + 10)
  else if 'A' ≤ c ∧ c ≤ 'F' then some (c.toNat - 'A'.toNat + 10)
  else none

def replacement : Char := '\ufffd'

/-- Whether a byte continues a character, within bounds that the first byte may narrow. -/
def continues (low high : Nat) : List Nat → Bool
  | b :: _ => low ≤ b && b ≤ high
  | [] => false

def following? (b : Nat) : Option (Nat × Nat × Nat) :=
  if 0xC2 ≤ b ∧ b ≤ 0xDF then some (1, 0x80, 0xBF)
  else if b = 0xE0 then some (2, 0xA0, 0xBF)
  else if b = 0xED then some (2, 0x80, 0x9F)
  else if 0xE1 ≤ b ∧ b ≤ 0xEF then some (2, 0x80, 0xBF)
  else if b = 0xF0 then some (3, 0x90, 0xBF)
  else if b = 0xF4 then some (3, 0x80, 0x8F)
  else if 0xF1 ≤ b ∧ b ≤ 0xF3 then some (3, 0x80, 0xBF)
  else none

def leadingBits (b : Nat) : Nat :=
  if b < 0xE0 then b % 0x20 else if b < 0xF0 then b % 0x10 else b % 0x08

/-- A character that bytes are being read for. -/
structure Unfinished where
  code : Nat
  left : Nat
  low : Nat
  high : Nat

/-- Reads bytes as characters; a broken character is replaced once. -/
def decodeBytes : Option Unfinished → List Nat → List Char
  | none, [] => []
  | some _, [] => [replacement]
  | some p, b :: rest =>
    if p.low ≤ b ∧ b ≤ p.high then
      let code := p.code * 0x40 + b % 0x40
      if p.left ≤ 1 then Char.ofNat code :: decodeBytes none rest
      else decodeBytes (some ⟨code, p.left - 1, 0x80, 0xBF⟩) rest
    else
      replacement ::
        (if b < 0x80 then Char.ofNat b :: decodeBytes none rest
        else
          match following? b with
          | some (left, low, high) => decodeBytes (some ⟨leadingBits b, left, low, high⟩) rest
          | none => replacement :: decodeBytes none rest)
  | none, b :: rest =>
    if b < 0x80 then Char.ofNat b :: decodeBytes none rest
    else
      match following? b with
      | some (left, low, high) => decodeBytes (some ⟨leadingBits b, left, low, high⟩) rest
      | none => replacement :: decodeBytes none rest

/-- A piece of a query string: a byte written with a percent sign, or a character as sent. -/
inductive Piece where
  | byte (b : Nat)
  | char (c : Char)

def pieces : List Char → List Piece
  | '%' :: a :: b :: rest =>
    match hexValue? a, hexValue? b with
    | some x, some y => .byte (16 * x + y) :: pieces rest
    | _, _ => .char '%' :: pieces (a :: b :: rest)
  | '+' :: rest => .char ' ' :: pieces rest
  | c :: rest =>
    (if c.toNat < 128 then [.char c]
      else (String.singleton c).toUTF8.toList.map fun b => .char (Char.ofNat b.toNat)) ++
      pieces rest
  | [] => []

def decodePieces : (bytes : List Nat) → List Piece → List Char
  | bytes, .byte b :: rest => decodePieces (bytes ++ [b]) rest
  | bytes, .char c :: rest => decodeBytes none bytes ++ c :: decodePieces [] rest
  | bytes, [] => decodeBytes none bytes

def decode (cs : List Char) : String := String.ofList (decodePieces [] (pieces cs))

/-- The name and value of one part; without an equals sign the value is empty. -/
def entry (part : List Char) : String × String :=
  (decode (part.takeWhile (· != '=')), decode ((part.dropWhile (· != '=')).drop 1))

def cut (separator : Char) : List Char → List (List Char)
  | [] => [[]]
  | c :: cs =>
    match cut separator cs with
    | part :: parts => if c = separator then [] :: part :: parts else (c :: part) :: parts
    | [] => [[c]]

def parseQuery (query : String) : List (String × String) :=
  ((cut '&' query.toList).filter fun part => !part.isEmpty).map entry

def queryValue? (query name : String) : Option String := (parseQuery query).reverse.lookup name

end Funnel.Web
