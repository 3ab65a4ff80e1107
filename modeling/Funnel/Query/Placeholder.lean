import Funnel.Query.Select

/-!
# Placeholders

A placeholder is a dollar sign with a name of ASCII letters, digits and underscores that does not
start with a digit. Names are taken as long as they go, from left to right.
-/

set_option autoImplicit false

namespace Funnel.Placeholder

def isNameStart (c : Char) : Bool :=
  ('a' ≤ c && c ≤ 'z') || ('A' ≤ c && c ≤ 'Z') || c == '_'

def isNameChar (c : Char) : Bool := isNameStart c || ('0' ≤ c && c ≤ '9')

/-- The text cut at its placeholders: each piece is a name or a single other character. -/
inductive Piece where
  | name (chars : List Char)
  | other (c : Char)
deriving DecidableEq

/-- The longest run of name characters, and what follows it. -/
def spanName (cs : List Char) : List Char × List Char :=
  (cs.takeWhile isNameChar, cs.dropWhile isNameChar)

theorem length_spanName (cs : List Char) : (spanName cs).2.length ≤ cs.length :=
  (List.dropWhile_suffix isNameChar).length_le

/-- Cuts a text from left to right. -/
def pieces : List Char → List Piece
  | [] => []
  | '$' :: c :: r =>
    if isNameStart c then .name (c :: (spanName r).1) :: pieces (spanName r).2
    else .other '$' :: pieces (c :: r)
  | c :: r => .other c :: pieces r
termination_by cs => cs.length
decreasing_by
  · have := length_spanName r
    simp only [List.length_cons]
    omega
  · simp
  · simp

/-- The names in the text, in order and with repetitions. -/
def scan (cs : List Char) : List (List Char) :=
  (pieces cs).filterMap fun
    | .name n => some n
    | .other _ => none

def names (s : String) : List String := (scan s.toList).map String.ofList

def replace (replacement : List Char) (cs : List Char) : List Char :=
  (pieces cs).flatMap fun
    | .name _ => replacement
    | .other c => [c]

def IsName (n : List Char) : Prop :=
  ∃ c r, n = c :: r ∧ isNameStart c = true ∧ r.all isNameChar = true

end Funnel.Placeholder
