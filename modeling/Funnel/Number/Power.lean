/-!
# Powers

Powers of the two bases in which numbers are stored and shown.
-/

set_option autoImplicit false

namespace Funnel.Number

def pow2 (e : Nat) : Nat := Nat.pow 2 e

def pow10 (e : Nat) : Nat := Nat.pow 10 e

theorem pow2_pos (e : Nat) : 0 < pow2 e := Nat.pow_pos (by decide)

theorem pow2_add (a b : Nat) : pow2 (a + b) = pow2 a * pow2 b := Nat.pow_add 2 a b

theorem pow2_zero : pow2 0 = 1 := rfl

theorem pow2_lt {a b : Nat} (h : a < b) : pow2 a < pow2 b := Nat.pow_lt_pow_right (by decide) h

theorem pow2_le {a b : Nat} (h : a ≤ b) : pow2 a ≤ pow2 b := Nat.pow_le_pow_right (by decide) h

theorem lt_of_pow2_lt {a b : Nat} (h : pow2 a < pow2 b) : a < b := by
  rcases Nat.lt_or_ge a b with hlt | hle
  · exact hlt
  · exact absurd h (Nat.not_lt.mpr (pow2_le hle))

end Funnel.Number
