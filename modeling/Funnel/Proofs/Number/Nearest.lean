import Funnel.Number.Division
import Funnel.Proofs.Number.Bits

/-!
# Rounding to a finite double

A quotient is rounded to a finite double exactly if it lies below the point from which on rounding
gives infinity. Every number that is put together from few finite doubles lies below it.
-/

set_option autoImplicit false

namespace Funnel.Number

theorem pow2_log2_le {n : Nat} (h : n ≠ 0) : pow2 n.log2 ≤ n := Nat.log2_self_le h

theorem le_log2 {k n : Nat} (h : pow2 k ≤ n) : k ≤ n.log2 :=
  (Nat.le_log2 (Nat.ne_of_gt (Nat.lt_of_lt_of_le (pow2_pos k) h))).mpr h

theorem lt_pow2_log2 (n : Nat) : n < pow2 (n.log2 + 1) := Nat.lt_log2_self

theorem Ratio.num_ofScaled_one (e : Int) : (Ratio.ofScaled 1 e).num = pow2 e.toNat := by
  cases e with
  | ofNat e => exact Nat.one_mul _
  | negSucc e => rfl

theorem Ratio.den_ofScaled_one (e : Int) : (Ratio.ofScaled 1 e).den = pow2 (-e).toNat := by
  cases e with
  | ofNat e =>
    have hzero : (-(e : Int)).toNat = 0 := by omega
    exact (congrArg pow2 hzero).symm
  | negSucc e => rfl

/-- A quotient is smaller than a multiple of a power of two. -/
def Under (c num den : Nat) (e : Int) : Prop :=
  num * pow2 (-e).toNat < c * (den * pow2 e.toNat)

section Under

variable {c num den : Nat} {e f : Int}

/-- The comparison in whole numbers, with both sides scaled up. -/
theorem under_iff (k : Nat) (h : 0 ≤ e + k) :
    Under c num den e ↔ num * pow2 k < c * (den * pow2 (e + k).toNat) := by
  obtain ⟨j, hj⟩ : ∃ j, k = (-e).toNat + j := ⟨k - (-e).toNat, by omega⟩
  have hsum : (e + k).toNat = e.toNat + j := by omega
  rw [Under, hsum, hj, pow2_add, pow2_add, ← Nat.mul_assoc num, ← Nat.mul_assoc den,
    ← Nat.mul_assoc c (den * _)]
  exact (Nat.mul_lt_mul_right (pow2_pos j)).symm

theorem Under.mono (h : Under c num den e) (hle : e ≤ f) : Under c num den f := by
  have hscaled := (under_iff (-e).toNat (by omega)).mp h
  refine (under_iff (-e).toNat (by omega)).mpr (Nat.lt_of_lt_of_le hscaled ?_)
  have hpow : pow2 (e + (-e).toNat).toNat ≤ pow2 (f + (-e).toNat).toNat := pow2_le (by omega)
  exact Nat.mul_le_mul_left c (Nat.mul_le_mul_left den hpow)

theorem under_of_log2 (hden : den ≠ 0) (h : e = (num.log2 : Int) - den.log2 - 52) :
    Under (pow2 53) num den e := by
  have hnat : (e + (den.log2 + 52 : Nat)).toNat = num.log2 := by omega
  refine (under_iff (den.log2 + 52) (by omega)).mpr ?_
  rw [hnat]
  calc num * pow2 (den.log2 + 52)
      < pow2 (num.log2 + 1) * pow2 (den.log2 + 52) :=
        (Nat.mul_lt_mul_right (pow2_pos _)).mpr (lt_pow2_log2 num)
    _ = pow2 53 * (pow2 den.log2 * pow2 num.log2) := by
        simp only [← pow2_add]
        congr 1
        omega
    _ ≤ pow2 53 * (den * pow2 num.log2) :=
        Nat.mul_le_mul_left _ (Nat.mul_le_mul_right _ (pow2_log2_le hden))

end Under

theorem roundHalfEven_le {c num den : Nat} (hden : 0 < den) (h : num < c * den) :
    roundHalfEven num den ≤ c := by
  have hq : num / den < c := (Nat.div_lt_iff_lt_mul hden).mpr h
  unfold roundHalfEven
  simp only
  split <;> omega

/-- Half a unit below a whole number is not rounded up to it yet. -/
theorem roundHalfEven_lt {c num den : Nat} (hden : 0 < den) (h : 2 * num + den < 2 * c * den) :
    roundHalfEven num den < c := by
  have hupper := (@roundHalfEven_bounds num den hden).2
  have hlt : (2 * den) * roundHalfEven num den < (2 * den) * c := by
    calc (2 * den) * roundHalfEven num den = 2 * (den * roundHalfEven num den) := Nat.mul_assoc ..
      _ ≤ 2 * num + den := hupper
      _ < 2 * c * den := h
      _ = (2 * den) * c := Nat.mul_right_comm 2 c den
  exact Nat.lt_of_mul_lt_mul_left hlt

theorem le_roundHalfEven (num den : Nat) : num / den ≤ roundHalfEven num den := by
  unfold roundHalfEven
  dsimp only
  split <;> omega

/-- Half a unit above an odd whole number is rounded up. -/
theorem lt_roundHalfEven {c num den : Nat} (hden : 0 < den) (hodd : c % 2 = 1)
    (h : 2 * (c * den) + den ≤ 2 * num) : c < roundHalfEven num den := by
  have hq : c ≤ num / den := (Nat.le_div_iff_mul_le hden).mpr (by omega)
  rcases Nat.lt_or_eq_of_le hq with hlt | heq
  · exact Nat.lt_of_lt_of_le hlt (le_roundHalfEven num den)
  · have hhalf : den ≤ 2 * (num % den) := by
      have hdm := Nat.div_add_mod' num den
      rw [← heq] at hdm
      omega
    unfold roundHalfEven
    simp only [← heq]
    split <;> omega

/-- The exponent of the last of 53 significant bits, as if there were no smallest double. -/
def lastExponent (num den : Nat) : Int :=
  let low : Int := (num.log2 : Int) - den.log2 - 53
  if num * pow2 (-low).toNat < pow2 53 * (den * pow2 low.toNat) then low else low + 1

theorem not_under_lastExponent {num den : Nat} (hnum : num ≠ 0) :
    ¬ Under (pow2 52) num den (lastExponent num den) := by
  unfold lastExponent
  simp only
  generalize hlow : (num.log2 : Int) - den.log2 - 53 = low
  split
  · intro hunder
    have hnat : (low + (den.log2 + 53 : Nat)).toNat = num.log2 := by omega
    replace hunder := (under_iff (den.log2 + 53) (by omega)).mp hunder
    rw [hnat] at hunder
    refine Nat.not_lt.mpr ?_ hunder
    calc pow2 52 * (den * pow2 num.log2)
        ≤ pow2 52 * (pow2 (den.log2 + 1) * pow2 num.log2) :=
          Nat.mul_le_mul_left _ (Nat.mul_le_mul_right _ (Nat.le_of_lt (lt_pow2_log2 den)))
      _ = pow2 num.log2 * pow2 (den.log2 + 53) := by
          simp only [← pow2_add]
          congr 1
          omega
      _ ≤ num * pow2 (den.log2 + 53) := Nat.mul_le_mul_right _ (pow2_log2_le hnum)
  · rename_i hnot
    intro hunder
    refine hnot ((under_iff (-low).toNat (by omega)).mpr ?_)
    have hnat : (low + 1 + (-low).toNat).toNat = 1 + (low + (-low).toNat).toNat := by omega
    replace hunder := (under_iff (-low).toNat (by omega)).mp hunder
    rwa [hnat, pow2_add 1, Nat.mul_left_comm den, ← Nat.mul_assoc] at hunder

theorem unitExponent_eq_max (num den : Nat) :
    unitExponent num den = max (-1074) (lastExponent num den) := by
  unfold unitExponent
  simp only [Ratio.num_ofScaled_one, Ratio.den_ofScaled_one]
  change (if lastExponent num den < -1074 then -1074 else lastExponent num den) = _
  omega

theorem under_lastExponent {num den : Nat} (hden : den ≠ 0) :
    Under (pow2 53) num den (lastExponent num den) := by
  unfold lastExponent
  simp only
  split
  · assumption
  · exact under_of_log2 hden (by omega)

/-- A quotient has at most 53 bits above its unit. -/
theorem under_unitExponent {num den : Nat} (hden : den ≠ 0) :
    Under (pow2 53) num den (unitExponent num den) := by
  refine (under_lastExponent hden).mono ?_
  rw [unitExponent_eq_max]
  omega

theorem le_significand {num den : Nat} (hnum : num ≠ 0) (hden : 0 < den) :
    pow2 52 ≤ roundHalfEven (num * pow2 (-lastExponent num den).toNat)
      (den * pow2 (lastExponent num den).toNat) := by
  have hfirst := Nat.not_lt.mp (@not_under_lastExponent num den hnum)
  have hbelow := Nat.mul_pos hden (pow2_pos (lastExponent num den).toNat)
  exact Nat.le_trans ((Nat.le_div_iff_mul_le hbelow).mpr hfirst) (le_roundHalfEven _ _)

/-- A quotient that has 54 bits above a unit is rounded to a double with a larger one. -/
theorem le_nearestBits {num den biased : Nat} (hnum : num ≠ 0) (hden : 0 < den)
    (hpos : 0 < biased) (hle : biased ≤ 2047) (h : ¬ Under (pow2 53) num den (biased - 1076)) :
    biased * pow2 52 ≤ nearestBits num den := by
  have hlast : (biased : Int) - 1076 < lastExponent num den := Int.not_le.mp fun hless =>
    h ((under_lastExponent (Nat.ne_of_gt hden)).mono hless)
  have hunit : unitExponent num den = lastExponent num den := by
    rw [unitExponent_eq_max]
    omega
  have hlow := le_significand hnum hden
  unfold nearestBits
  rw [if_neg hnum]
  simp only [Ratio.num_ofScaled_one, Ratio.den_ofScaled_one, hunit]
  generalize lastExponent num den = e at *
  split
  · have hfew : biased ≤ (e + 1074).toNat + 1 := by omega
    calc biased * pow2 52 ≤ ((e + 1074).toNat + 1) * pow2 52 := Nat.mul_le_mul_right _ hfew
      _ = (e + 1074).toNat * pow2 52 + pow2 52 := Nat.succ_mul _ _
      _ ≤ _ := Nat.add_le_add_left hlow _
  · exact Nat.mul_le_mul_right _ hle

/-- From here on rounding gives infinity: half a unit above the largest double. -/
def overflow : Nat := pow2 1024 - pow2 970

theorem overflow_lt : overflow < pow2 53 * pow2 971 := by decide +kernel

theorem two_mul_overflow : 2 * overflow + pow2 971 = 2 * pow2 53 * pow2 971 := by decide +kernel

theorem lastExponent_le {num den : Nat} (hnum : num ≠ 0) (h : num < overflow * den) :
    lastExponent num den ≤ 971 := by
  have htop : num < pow2 53 * (den * pow2 971) := by
    rw [Nat.mul_comm den, ← Nat.mul_assoc]
    exact Nat.lt_of_lt_of_le h (Nat.mul_le_mul_right den (Nat.le_of_lt overflow_lt))
  have hlow : (num.log2 : Int) - den.log2 - 53 ≤ 971 := by
    have hlt : pow2 num.log2 < pow2 (1025 + den.log2) := by
      calc pow2 num.log2 ≤ num := pow2_log2_le hnum
        _ < pow2 53 * (den * pow2 971) := htop
        _ ≤ pow2 53 * (pow2 (den.log2 + 1) * pow2 971) := Nat.mul_le_mul_left _
            (Nat.mul_le_mul_right _ (Nat.le_of_lt (lt_pow2_log2 den)))
        _ = pow2 (1025 + den.log2) := by
            simp only [← pow2_add]
            congr 1
            omega
    have := lt_of_pow2_lt hlt
    omega
  unfold lastExponent
  simp only
  generalize (num.log2 : Int) - den.log2 - 53 = low at *
  split
  · exact hlow
  · rename_i hnot
    have hne : low ≠ 971 := by
      rintro rfl
      have hnegated : (-971 : Int).toNat = 0 := rfl
      have hplain : (971 : Int).toNat = 971 := rfl
      rw [hnegated, hplain, pow2_zero, Nat.mul_one] at hnot
      exact hnot htop
    omega

theorem nearestBits_lt {num den : Nat} (hden : 0 < den) (h : num < overflow * den) :
    nearestBits num den < 2047 * pow2 52 := by
  unfold nearestBits
  split
  · decide
  · rename_i hnum
    have hlast := lastExponent_le hnum h
    have hunder := @under_unitExponent num den (Nat.ne_of_gt hden)
    have hmax := unitExponent_eq_max num den
    simp only [Ratio.num_ofScaled_one, Ratio.den_ofScaled_one]
    generalize unitExponent num den = e at *
    have hbelow : 0 < den * pow2 e.toNat := Nat.mul_pos hden (pow2_pos _)
    have h53 : pow2 53 = 2 * pow2 52 := by decide
    have hbits : (e + 1074).toNat * pow2 52 +
        roundHalfEven (num * pow2 (-e).toNat) (den * pow2 e.toNat) < 2047 * pow2 52 := by
      -- With the largest exponent a significand that is rounded up to 54 bits would be too large.
      by_cases hmost : e = 971
      · subst hmost
        have hlt : roundHalfEven (num * 1) (den * pow2 971) < pow2 53 := by
          refine roundHalfEven_lt hbelow ?_
          calc 2 * (num * 1) + den * pow2 971 = 2 * num + den * pow2 971 := by rw [Nat.mul_one]
            _ < 2 * (overflow * den) + den * pow2 971 := by omega
            _ = (2 * overflow + pow2 971) * den := by
                rw [Nat.add_mul, Nat.mul_assoc, Nat.mul_comm den]
            _ = 2 * pow2 53 * (den * pow2 971) := by
                rw [two_mul_overflow, Nat.mul_assoc, Nat.mul_comm den]
        change 2045 * pow2 52 + roundHalfEven (num * 1) (den * pow2 971) < 2047 * pow2 52
        omega
      · have hle := roundHalfEven_le hbelow hunder
        have hfew : (e + 1074).toNat ≤ 2044 := by omega
        have := Nat.mul_le_mul_right (pow2 52) hfew
        have : 0 < pow2 52 := pow2_pos 52
        omega
    rw [if_pos hbits]
    exact hbits

theorem isFinite_nearest {num den : Nat} (hden : 0 < den) (h : num < overflow * den)
    (negative : Bool) : isFinite (nearest negative num den) = true := by
  have hbits := nearestBits_lt hden h
  have h52 : pow2 52 = 4503599627370496 := by decide
  have h63 : pow2 63 = 9223372036854775808 := by decide
  apply isFinite_ofBits
  rw [h52] at hbits ⊢
  cases negative with
  | false =>
    rw [if_neg Bool.false_ne_true, UInt64.toNat_ofNat']
    omega
  | true =>
    rw [if_pos rfl, h63, UInt64.toNat_ofNat']
    omega

theorem le_unitExponent {num den : Nat} (hden : 0 < den) (h : overflow * den ≤ num) :
    971 ≤ unitExponent num den := by
  refine Int.not_lt.mp fun hless => ?_
  have hunder := (@under_unitExponent num den (Nat.ne_of_gt hden)).mono
    (f := 970) (by omega)
  have htop : pow2 53 * pow2 970 ≤ overflow := by decide +kernel
  have hle : pow2 53 * (den * pow2 970) ≤ num := by
    rw [Nat.mul_left_comm, Nat.mul_comm den]
    exact Nat.le_trans (Nat.mul_le_mul_right den htop) h
  change num * 1 < pow2 53 * (den * pow2 970) at hunder
  omega

theorem nearestBits_overflow {num den : Nat} (hden : 0 < den) (h : overflow * den ≤ num) :
    nearestBits num den = 2047 * pow2 52 := by
  have hnum : num ≠ 0 := by
    rintro rfl
    exact absurd h (Nat.not_le.mpr (Nat.mul_pos (by decide +kernel) hden))
  have hexponent := le_unitExponent hden h
  have hlow := le_significand hnum hden
  have hmax := unitExponent_eq_max num den
  unfold nearestBits
  rw [if_neg hnum]
  simp only [Ratio.num_ofScaled_one, Ratio.den_ofScaled_one]
  generalize unitExponent num den = e at *
  refine if_neg (Nat.not_lt.mpr ?_)
  have hbelow : 0 < den * pow2 e.toNat := Nat.mul_pos hden (pow2_pos _)
  have h53 : pow2 53 = 2 * pow2 52 := by decide
  by_cases hleast : e = 971
  · subst hleast
    have hlt : pow2 53 - 1 < roundHalfEven (num * 1) (den * pow2 971) := by
      refine lt_roundHalfEven hbelow (by decide) ?_
      calc 2 * ((pow2 53 - 1) * (den * pow2 971)) + den * pow2 971
          = (2 * (pow2 53 - 1) * pow2 971 + pow2 971) * den := by
            rw [Nat.add_mul, Nat.mul_comm den, ← Nat.mul_assoc, ← Nat.mul_assoc]
        _ = 2 * overflow * den := congrArg (· * den) (by decide +kernel)
        _ = 2 * (overflow * den) := Nat.mul_assoc ..
        _ ≤ 2 * (num * 1) := by omega
    change _ ≤ 2045 * pow2 52 + roundHalfEven (num * 1) (den * pow2 971)
    omega
  · have hlast : lastExponent num den = e := by omega
    rw [hlast] at hlow
    have hmany := Nat.mul_le_mul_right (pow2 52) (show 2046 ≤ (e + 1074).toNat by omega)
    omega

theorem isFinite_nearest_iff {num den : Nat} (hden : 0 < den) (negative : Bool) :
    isFinite (nearest negative num den) = true ↔ num < overflow * den := by
  refine ⟨fun h => ?_, fun h => isFinite_nearest hden h negative⟩
  rcases Nat.lt_or_ge num (overflow * den) with hlt | hle
  · exact hlt
  · rw [nearest, nearestBits_overflow hden hle] at h
    cases negative <;> exact absurd h (by decide)

theorem isFinite_doubleOfUnits_iff {n : Int} :
    isFinite (doubleOfUnits n) = true ↔ n.natAbs < overflow * pow2 1074 :=
  isFinite_nearest_iff (pow2_pos 1074) _

/-- Every double stays away from the bound by half a unit of the largest doubles. -/
theorem natAbs_unitsOfDouble_add_le (x : Float) :
    (unitsOfDouble x).natAbs + pow2 2044 ≤ overflow * pow2 1074 := by
  have hlargest : (pow2 53 - 1) * pow2 2045 + pow2 2044 ≤ overflow * pow2 1074 := by
    decide +kernel
  have hle : (unitsOfDouble x).natAbs ≤ (pow2 53 - 1) * pow2 2045 := by
    unfold unitsOfDouble
    split
    · rename_i negative significand exponent hreading
      obtain ⟨hlt, -, htop⟩ := Reading.bounds_of_ofBits hreading
      have hproduct : significand * pow2 (exponent + 1074).toNat ≤ (pow2 53 - 1) * pow2 2045 :=
        Nat.mul_le_mul (Nat.le_pred_of_lt hlt) (pow2_le (by omega))
      simp only
      split <;> omega
    · exact Nat.zero_le _
  omega

theorem unitsOfOne_pos : 0 < unitsOfOne := Int.natCast_pos.mpr (pow2_pos 1074)

theorem natAbs_unitsOfOne_lt : unitsOfOne.natAbs < pow2 2044 := by
  rw [unitsOfOne, Int.natAbs_natCast]
  exact pow2_lt (by decide)

/-- A floored quotient is at most one away from the quotient. -/
theorem natAbs_floorUnits_le (q : Int) : (floorUnits q).natAbs ≤ q.natAbs + unitsOfOne.natAbs := by
  have hpos := unitsOfOne_pos
  have hnonneg := Int.emod_nonneg q (Int.ne_of_gt hpos)
  have hlt := Int.emod_lt_of_pos q hpos
  unfold floorUnits
  simp only
  generalize q % unitsOfOne = r at *
  split <;> omega

theorem isFinite_floorUnits (y : Float) :
    isFinite (doubleOfUnits (floorUnits (unitsOfDouble y))) = true := by
  refine isFinite_doubleOfUnits_iff.mpr ?_
  have hfloor := natAbs_floorUnits_le (unitsOfDouble y)
  have hroom := natAbs_unitsOfDouble_add_le y
  have hone := natAbs_unitsOfOne_lt
  omega

theorem isFinite_floorDivMod {x : Float} (hx : isFinite x = true) {k : Nat} (hk : 0 < k)
    (hlt : k < overflow) :
    isFinite (floorDivMod x k).1 = true ∧ isFinite (floorDivMod x k).2 = true := by
  have hdivisor : (k * unitsOfOne : Int) = (k * pow2 1074 : Nat) := (Int.natCast_mul k _).symm
  have hpos : 0 < k * pow2 1074 := Nat.mul_pos hk (pow2_pos 1074)
  have hroom : k * pow2 1074 < overflow * pow2 1074 :=
    (Nat.mul_lt_mul_right (pow2_pos 1074)).mpr hlt
  have hrest : ((unitsOfDouble x).tmod (k * unitsOfOne)).natAbs < k * pow2 1074 := by
    rw [hdivisor, Int.natAbs_tmod]
    exact Nat.mod_lt _ hpos
  unfold floorDivMod
  rw [if_pos hx]
  simp only
  generalize (unitsOfDouble x).tmod (k * unitsOfOne) = r at *
  rw [hdivisor]
  split
  · exact ⟨isFinite_floorUnits _, isFinite_doubleOfUnits_iff.mpr (by omega)⟩
  · exact ⟨isFinite_floorUnits _, isFinite_doubleOfUnits_iff.mpr (by omega)⟩

end Funnel.Number
