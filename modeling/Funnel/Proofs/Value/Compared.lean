import Funnel.Proofs.Number.Units
import Funnel.Value.Figure

/-!
# Figures are compared exactly

Two decimals are told apart by the place of their first digit, and only where that is the same by
all their digits. Either way it is their exact values that are compared, so a double is below a
whole number if its units are.
-/

set_option autoImplicit false

namespace Funnel

open Number

namespace Number.Decimal

variable {m n : Nat} {e f : Int}

theorem pow10_pos (k : Nat) : 0 < pow10 k := Nat.pow_pos (by decide)

theorem pow10_add (a b : Nat) : pow10 (a + b) = pow10 a * pow10 b := Nat.pow_add 10 a b

theorem pow10_le {a b : Nat} (h : a ≤ b) : pow10 a ≤ pow10 b :=
  Nat.pow_le_pow_right (by decide) h

theorem digitCount_pos (m : Nat) : 0 < digitCount m :=
  List.length_pos_iff.mpr Nat.toDigits_ne_nil

theorem lt_pow10_digitCount (m : Nat) : m < pow10 (digitCount m) :=
  (Nat.length_toDigits_le_iff (b := 10) (by decide) (digitCount_pos m)).mp (Nat.le_refl _)

theorem pow10_le_of_digitCount (hm : m ≠ 0) : pow10 (digitCount m - 1) ≤ m := by
  have hpos := digitCount_pos m
  by_cases hone : digitCount m = 1
  · rw [hone]
    exact Nat.pos_of_ne_zero hm
  · refine Nat.not_lt.mp fun hlt => ?_
    have hle : digitCount m ≤ digitCount m - 1 :=
      (Nat.length_toDigits_le_iff (b := 10) (by decide) (by omega)).mpr hlt
    omega

/-- A number whose first digit stands lower is smaller. -/
theorem scaled_lt_of_digitCount {g : Int} (hn : n ≠ 0) (hg : g ≤ e) (hf : g ≤ f)
    (h : (digitCount m + e : Int) < digitCount n + f) :
    m * pow10 (e - g).toNat < n * pow10 (f - g).toNat := by
  have hpos := digitCount_pos n
  calc m * pow10 (e - g).toNat < pow10 (digitCount m) * pow10 (e - g).toNat :=
        (Nat.mul_lt_mul_right (pow10_pos _)).mpr (lt_pow10_digitCount m)
    _ = pow10 (digitCount m + (e - g).toNat) := (pow10_add _ _).symm
    _ ≤ pow10 (digitCount n - 1 + (f - g).toNat) := pow10_le (by omega)
    _ = pow10 (digitCount n - 1) * pow10 (f - g).toNat := pow10_add _ _
    _ ≤ n * pow10 (f - g).toNat := Nat.mul_le_mul_right _ (pow10_le_of_digitCount hn)

theorem compareMagnitudes_eq (hm : m ≠ 0) (hn : n ≠ 0) : compareMagnitudes m e n f =
    compare (m * pow10 (e - min e f).toNat) (n * pow10 (f - min e f).toNat) := by
  unfold compareMagnitudes
  rw [if_neg (by omega)]
  rcases Int.lt_trichotomy (digitCount m + e) (digitCount n + f) with hlt | heq | hgt
  · rw [Int.compare_eq_lt.mpr hlt]
    exact (Nat.compare_eq_lt.mpr
      (scaled_lt_of_digitCount hn (Int.min_le_left e f) (Int.min_le_right e f) hlt)).symm
  · rw [Int.compare_eq_eq.mpr heq]
  · rw [Int.compare_eq_gt.mpr hgt]
    exact (Nat.compare_eq_gt.mpr
      (scaled_lt_of_digitCount hm (Int.min_le_right e f) (Int.min_le_left e f) hgt)).symm

theorem compare?_ofInt (negative : Bool) (hn : 0 < n) :
    (finite negative m e).compare? (ofInt n) = some (if negative ∨ m = 0 then .lt
      else compare (m * pow10 (e - min e 0).toNat) (n * pow10 (0 - min e 0).toNat)) := by
  have hne : n ≠ 0 := Nat.ne_of_gt hn
  have hsign : decide ((n : Int) < 0) = false := decide_eq_false (by omega)
  unfold ofInt compare?
  rw [hsign, Int.natAbs_natCast]
  dsimp only
  rw [if_neg (by omega)]
  by_cases hm : m = 0
  · rw [if_pos hm, if_neg Bool.false_ne_true, if_pos (Or.inr hm)]
  · rw [if_neg hm, if_neg hne]
    cases negative with
    | true => rfl
    | false =>
      rw [if_neg (by simp [hm])]
      dsimp only
      rw [compareMagnitudes_eq hm hne]

end Number.Decimal

theorem compare_mul_right {a b c : Nat} (hc : 0 < c) : compare (a * c) (b * c) = compare a b := by
  simp only [Nat.compare_eq_ite_lt, Nat.mul_lt_mul_right hc]

theorem compare_beq_lt (a b : Nat) : (compare a b == .lt) = decide (a < b) := by
  rw [Nat.compare_eq_ite_lt]
  by_cases hlt : a < b
  · rw [if_pos hlt, decide_eq_true hlt]
    rfl
  · rw [if_neg hlt, decide_eq_false hlt]
    split <;> rfl

namespace Figure

theorem compare_ofDouble {negative : Bool} {m n : Nat} {e : Int} {x : Float} (hn : 0 < n)
    (h : Reading.ofDouble x = .finite negative m e) :
    (Decimal.ofDouble x).compare? (.ofInt n) = some (if negative ∨ m = 0 then .lt
      else compare (m * pow2 e.toNat) (n * pow2 (-e).toNat)) := by
  unfold Decimal.ofDouble
  rw [h]
  dsimp only
  by_cases he : 0 ≤ e
  · have hpow : m * pow2 e.toNat = 0 ↔ m = 0 := by
      rw [Nat.mul_eq_zero]
      exact or_iff_left (Nat.ne_of_gt (pow2_pos _))
    have hzero : (-e).toNat = 0 := by omega
    have hone : pow10 (0 - min 0 0 : Int).toNat = 1 := rfl
    rw [if_pos he, Decimal.compare?_ofInt negative hn, hone, hzero, pow2_zero, Nat.mul_one,
      Nat.mul_one]
    simp only [hpow]
  · have hfive : 0 < Nat.pow 5 e.natAbs := Nat.pow_pos (by decide)
    have hpow : m * Nat.pow 5 e.natAbs = 0 ↔ m = 0 := by
      rw [Nat.mul_eq_zero]
      exact or_iff_left (Nat.ne_of_gt hfive)
    have hmin : min e 0 = e := by omega
    have hzero : e.toNat = 0 := by omega
    have hplaces : (0 - e).toNat = e.natAbs := by omega
    have hbits : (-e).toNat = e.natAbs := by omega
    have hten : pow10 e.natAbs = pow2 e.natAbs * Nat.pow 5 e.natAbs := Nat.mul_pow 2 5 e.natAbs
    have hsame : (e - e).toNat = 0 := by omega
    have hone : pow10 0 = 1 := rfl
    rw [if_neg he, Decimal.compare?_ofInt negative hn, hmin, hsame, hone, hplaces, hzero, hbits,
      hten, Nat.mul_one, ← Nat.mul_assoc, compare_mul_right hfive, pow2_zero, Nat.mul_one]
    simp only [hpow]

/-- A finite double is below a whole number if it has fewer units. -/
theorem isBelow_double {x : Float} (hx : isFinite x = true) {n : Nat} (hn : 0 < n) :
    isBelow (.double x) (.whole n) = .ok (decide (unitsOfDouble x < n * oneUnits)) := by
  have hpositive : 0 < n * oneUnits := Nat.mul_pos hn oneUnits_pos
  unfold isFinite at hx
  split at hx
  · rename_i negative m e hreading
    obtain ⟨-, hlow, -⟩ := Reading.bounds_of_ofBits hreading
    have hunits : unitsOfDouble x = signed negative (m * pow2 (e + 1074).toNat) := by
      rw [unitsOfDouble, hreading]
      rfl
    have hcompare := compare_ofDouble hn hreading
    unfold isBelow toDecimal
    rw [hcompare]
    refine congrArg Except.ok ?_
    rw [hunits]
    by_cases hbelow : negative = true ∨ m = 0
    · have hnonpos : signed negative (m * pow2 (e + 1074).toNat) ≤ 0 :=
        signed_nonpos (hbelow.imp_right fun hm => by rw [hm, Nat.zero_mul])
      have hlt := Int.lt_of_le_of_lt hnonpos (Int.natCast_pos.mpr hpositive)
      rw [Int.natCast_mul] at hlt
      rw [if_pos hbelow, decide_eq_true hlt]
      rfl
    · obtain ⟨hsign, -⟩ := not_or.mp hbelow
      have hcast : signed negative (m * pow2 (e + 1074).toNat) < n * oneUnits ↔
          m * pow2 (e + 1074).toNat < n * oneUnits := by
        rw [signed, if_neg hsign, ← Int.natCast_mul, Int.ofNat_lt]
      rw [if_neg hbelow, compare_beq_lt]
      exact decide_eq_decide.mpr ((scaled_lt_iff hlow).trans hcast.symm)
  · cases hx

theorem isBelow_whole {m n : Nat} (hn : 0 < n) :
    isBelow (.whole m) (.whole n) = .ok (decide (m < n)) := by
  have hsign : decide ((m : Int) < 0) = false := decide_eq_false (by omega)
  have hone : pow10 (0 - min 0 0 : Int).toNat = 1 := rfl
  have hcompare : (Decimal.ofInt m).compare? (.ofInt n) =
      some (if m = 0 then .lt else compare m n) := by
    rw [Decimal.ofInt, hsign, Int.natAbs_natCast, Decimal.compare?_ofInt false hn, hone,
      Nat.mul_one, Nat.mul_one]
    simp only [Bool.false_eq_true, false_or]
  unfold isBelow toDecimal
  rw [hcompare]
  refine congrArg Except.ok ?_
  by_cases hm : m = 0
  · rw [if_pos hm, hm, decide_eq_true hn]
    rfl
  · rw [if_neg hm, compare_beq_lt]

end Figure

end Funnel
