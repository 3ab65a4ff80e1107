/-!
# Sorted ranges of code points

A character class above U+007F is a sorted array of inclusive ranges, searched by bisection.
-/

set_option autoImplicit false

namespace Funnel.Text

/-- Whether `n` lies in one of the ranges with index in `[lo, hi)`. -/
def inRangesBetween (ranges : Array (Nat × Nat)) (n lo hi : Nat) : Bool :=
  if lo < hi then
    let mid := (lo + hi) / 2
    match ranges[mid]? with
    | none => false
    | some (a, b) =>
      if n < a then inRangesBetween ranges n lo mid
      else if b < n then inRangesBetween ranges n (mid + 1) hi
      else true
  else false
termination_by hi - lo

def inRanges (ranges : Array (Nat × Nat)) (n : Nat) : Bool :=
  inRangesBetween ranges n 0 ranges.size

end Funnel.Text
