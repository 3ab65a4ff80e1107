import Funnel.Number.Numeral
import Funnel.Proofs.Calendar.Iso
import Funnel.Proofs.Number.Nearest
import Mathlib.Data.List.TakeWhile

/-!
# Whole numbers as text

The decimal text of a whole number is read as the double nearest to the number, however many digits
it has. From half a unit above the largest double on that is an infinity.
-/

set_option autoImplicit false

namespace Funnel.Number

open Funnel.Text

theorem isFinite_nearest_one_iff (negative : Bool) (n : Nat) :
    isFinite (nearest negative n 1) = true ↔ n < overflow := by
  rw [isFinite_nearest_iff Nat.one_pos, Nat.mul_one]

/-- A whole number without a power of ten is read as the double nearest to it. -/
theorem toDouble_whole (negative : Bool) (n : Nat) :
    Numeral.toDouble ⟨negative, n, 0⟩ = nearest negative n 1 := by
  unfold Numeral.toDouble
  simp only [Int.le_refl, if_true, Int.mul_zero, Int.add_zero, Int.natAbs_zero]
  split
  · rename_i hzero
    rcases hzero with rfl | hlow
    · rfl
    · omega
  · split
    · rename_i hn hhigh
      have hhuge : overflow ≤ pow2 1100 := by decide +kernel
      have hle : pow2 1100 ≤ n :=
        Nat.le_trans (pow2_le (by omega)) (pow2_log2_le fun hzero => hn (.inl hzero))
      have hbits : ∀ {k : Nat}, overflow ≤ k → nearestBits k 1 = 2047 * pow2 52 := fun hk =>
        nearestBits_overflow Nat.one_pos (by rwa [Nat.mul_one])
      rw [nearest, nearest, hbits hhuge, hbits (Nat.le_trans hhuge hle)]
    · rw [show pow10 0 = 1 from rfl, Nat.mul_one]

theorem joinDigits?_eq_some {cs : List Char} (h : ∀ c ∈ cs, c ≠ '_') (afterDigit : Bool) :
    joinDigits? afterDigit cs = some cs := by
  induction cs generalizing afterDigit with
  | nil => rfl
  | cons c cs ih =>
    rw [List.forall_mem_cons] at h
    rw [joinDigits?, ih h.2, Option.map_some]
    exact fun hc => absurd hc h.1

def wholeChars (n : Int) : List Char :=
  if n < 0 then '-' :: Nat.toDigits 10 n.natAbs else Nat.toDigits 10 n.natAbs

theorem toList_toString (n : Int) : (toString n).toList = wholeChars n := by
  unfold wholeChars
  cases n with
  | ofNat n =>
    have hsign : ¬ Int.ofNat n < 0 := Int.not_lt.mpr (Int.natCast_nonneg n)
    rw [if_neg hsign]
    change (toString n).toList = _
    rw [Nat.toString_eq_repr, Nat.toList_repr]
    rfl
  | negSucc n =>
    rw [if_pos (Int.negSucc_lt_zero n)]
    change ("-" ++ toString (n + 1)).toList = _
    rw [String.toList_append, Nat.toString_eq_repr, Nat.toList_repr]
    rfl

theorem isAsciiDigit_of_mem_toDigits {n : Nat} {c : Char} (h : c ∈ Nat.toDigits 10 n) :
    isAsciiDigit c = true :=
  Calendar.isAsciiDigit_of_isDigit (Nat.isDigit_of_mem_toDigits (by decide) (by decide) h)

theorem toNat_of_isAsciiDigit {c : Char} (h : isAsciiDigit c = true) :
    48 ≤ c.toNat ∧ c.toNat ≤ 57 := by
  simpa only [isAsciiDigit, Bool.and_eq_true, decide_eq_true_eq] using h

/-- A minus and digits lie close together in ASCII, away from all blanks and from the underscore. -/
theorem toNat_of_mem_wholeChars {n : Int} {c : Char} (h : c ∈ wholeChars n) :
    45 ≤ c.toNat ∧ c.toNat ≤ 57 := by
  have hdigit : c ∈ Nat.toDigits 10 n.natAbs → 45 ≤ c.toNat ∧ c.toNat ≤ 57 := fun hmem => by
    have hbounds := toNat_of_isAsciiDigit (isAsciiDigit_of_mem_toDigits hmem)
    omega
  unfold wholeChars at h
  split at h
  · rcases List.mem_cons.mp h with rfl | h
    · decide
    · exact hdigit h
  · exact hdigit h

theorem asciiForm_eq_self {c : Char} (h : 45 ≤ c.toNat ∧ c.toNat ≤ 57) : asciiForm c = c := by
  unfold asciiForm decimalValue?
  rw [if_pos (by omega)]
  split
  · rename_i v hv
    split at hv
    · rw [← Option.some.inj hv, Nat.add_sub_cancel' (by omega)]
      exact Char.ofNat_toNat c
    · cases hv
  · rw [if_pos (by omega)]

theorem isBlank_of_mem_wholeChars {n : Int} {c : Char} (h : c ∈ wholeChars n) :
    isBlank c = false := by
  have hbounds := toNat_of_mem_wholeChars h
  exact isBlank_eq_false (by omega)

theorem trimChars_wholeChars (n : Int) : trimChars (wholeChars n) = wholeChars n :=
  trimChars_of_forall fun _ => isBlank_of_mem_wholeChars

theorem numberChars?_toString (n : Int) : numberChars? (toString n) = some (wholeChars n) := by
  have hmap : (wholeChars n).map asciiForm = wholeChars n :=
    (List.map_congr_left fun _ hc => asciiForm_eq_self (toNat_of_mem_wholeChars hc)).trans
      (List.map_id _)
  have hplain : ∀ c ∈ wholeChars n, c ≠ '_' := by
    rintro c hc rfl
    exact absurd (toNat_of_mem_wholeChars hc) (by decide)
  rw [numberChars?, toList_toString, trimChars_wholeChars, hmap]
  exact joinDigits?_eq_some hplain false

theorem splitSign_digits {cs : List Char} (h : ∀ c ∈ cs, isAsciiDigit c = true) :
    splitSign cs = (false, cs) := by
  unfold splitSign
  split
  · exact absurd (h '-' (List.mem_cons_self ..)) (by decide)
  · exact absurd (h '+' (List.mem_cons_self ..)) (by decide)
  · rfl

theorem splitSign_wholeChars (n : Int) :
    splitSign (wholeChars n) = (decide (n < 0), Nat.toDigits 10 n.natAbs) := by
  unfold wholeChars
  split
  · rename_i h
    rw [decide_eq_true h]
    rfl
  · rename_i h
    rw [decide_eq_false h]
    exact splitSign_digits fun _ => isAsciiDigit_of_mem_toDigits

theorem numeral?_wholeChars (n : Int) :
    numeral? (wholeChars n) = some ⟨decide (n < 0), n.natAbs, 0⟩ := by
  have hall : ∀ c ∈ Nat.toDigits 10 n.natAbs, isAsciiDigit c = true := fun _ =>
    isAsciiDigit_of_mem_toDigits
  have htake : (Nat.toDigits 10 n.natAbs).takeWhile isAsciiDigit = Nat.toDigits 10 n.natAbs :=
    List.takeWhile_eq_self_iff.mpr hall
  have hdrop : (Nat.toDigits 10 n.natAbs).dropWhile isAsciiDigit = [] :=
    List.dropWhile_eq_nil_iff.mpr hall
  have hne : Nat.toDigits 10 n.natAbs ≠ [] := Nat.toDigits_ne_nil
  have hvalue : natOfDigits (Nat.toDigits 10 n.natAbs) = n.natAbs := Nat.ofDigitChars_ten_toDigits
  unfold numeral?
  simp only [splitSign_wholeChars, htake, hdrop]
  rw [if_neg (fun h => hne h.1), List.append_nil, hvalue]
  rfl

theorem readDouble?_toString (n : Int) : readDouble? (toString n) = some (ofInt n) := by
  simp only [readDouble?, numberChars?_toString, Option.bind_eq_bind, Option.bind_some,
    numeral?_wholeChars, toDouble_whole]
  rfl

end Funnel.Number
