/-!
# Letter case

Case is only ever compared against ASCII words. Three rules are needed: the lower-case form, which
the Kelvin sign shares with `K`, the upper-case form, which the dotless i, the long s and the
ligatures share with ASCII letters, and the coarser fold under which the dotted and dotless i and
the long s also count as `i` and `s`.
-/

set_option autoImplicit false

namespace Funnel.Text

/-- The lower-case form, where it is an ASCII letter; every other character stays as it is. -/
def lowerChar (c : Char) : Char :=
  if 'A' ≤ c ∧ c ≤ 'Z' then Char.ofNat (c.toNat + 32)
  else if c = '\u212A' then 'k'
  else c

/-- Lower case, exact for comparison with a lower-case ASCII word. -/
def lower (s : String) : String := s.map lowerChar

/-- The ASCII letter that a character matches when case is ignored. -/
def foldChar (c : Char) : Char :=
  if c = '\u0130' ∨ c = '\u0131' then 'i'
  else if c = '\u017F' then 's'
  else lowerChar c

/-- Characters beyond ASCII whose upper-case form is made of ASCII letters. -/
def asciiUppers : List (Char × List Char) :=
  [('\u0131', ['I']), ('\u017F', ['S']), ('\u00DF', ['S', 'S']), ('\uFB00', ['F', 'F']),
    ('\uFB01', ['F', 'I']), ('\uFB02', ['F', 'L']), ('\uFB03', ['F', 'F', 'I']),
    ('\uFB04', ['F', 'F', 'L']), ('\uFB05', ['S', 'T']), ('\uFB06', ['S', 'T'])]

/-- The upper-case form, where it is made of ASCII letters; every other character stays as it
is. -/
def upperChars (c : Char) : List Char :=
  if 'a' ≤ c ∧ c ≤ 'z' then [Char.ofNat (c.toNat - 32)]
  else if c.toNat < 128 then [c]
  else (asciiUppers.lookup c).getD [c]

/-- The letters of `word` (lower-case ASCII) at the head of the text, case ignored, and what
follows. -/
def dropWord? : List Char → List Char → Option (List Char)
  | [], cs => some cs
  | _ :: _, [] => none
  | w :: ws, c :: cs => if foldChar c = w then dropWord? ws cs else none

end Funnel.Text
