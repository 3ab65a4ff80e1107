import Funnel.Number.Division
import Funnel.Number.Fixed
import Funnel.Proofs.Number.Nearest
import Mathlib.Tactic.Ring

/-!
# Doubles in units of the smallest one

A finite double is a whole number of units of 2 ^ -1074. Its whole part and its decimals are read
off that number, and rounding a quotient to a double is off by at most half of the last of its 53
bits. What a number is rounded to depends on its value alone, however the quotient is written.
-/

set_option autoImplicit false

namespace Funnel.Number

section Quotients

variable {a b c d : Nat}

theorem roundHalfEven_mul_right (hc : 0 < c) :
    roundHalfEven (a * c) (b * c) = roundHalfEven a b := by
  have hbelow : b * c < 2 * (a % b * c) ↔ b < 2 * (a % b) := by
    rw [← Nat.mul_assoc]
    exact Nat.mul_lt_mul_right hc
  have hhalf : 2 * (a % b * c) = b * c ↔ 2 * (a % b) = b := by
    rw [← Nat.mul_assoc]
    exact Nat.mul_left_inj (Nat.ne_of_gt hc)
  unfold roundHalfEven
  simp only [Nat.mul_div_mul_right a b hc, Nat.mul_mod_mul_right, hbelow, hhalf]

theorem roundHalfEven_congr (hb : 0 < b) (hd : 0 < d) (h : a * d = c * b) :
    roundHalfEven a b = roundHalfEven c d := by
  rw [← roundHalfEven_mul_right hd, h, Nat.mul_comm b d, roundHalfEven_mul_right hb]

/-- The number after an odd one is reached from half a unit below on. -/
theorem lt_roundHalfEven_iff (hb : 0 < b) (hodd : c % 2 = 1) :
    c < roundHalfEven a b ↔ 2 * (c * b) + b ≤ 2 * a := by
  refine ⟨fun h => Nat.not_lt.mp fun hlt => ?_, lt_roundHalfEven hb hodd⟩
  refine absurd h (Nat.not_lt.mpr (Nat.le_of_lt_succ (roundHalfEven_lt hb ?_)))
  change 2 * a + b < 2 * (c + 1) * b
  have hproduct : 2 * (c + 1) * b = 2 * (c * b) + 2 * b := by ring
  omega

theorem div_congr (hb : 0 < b) (hd : 0 < d) (h : a * d = c * b) : a / b = c / d := by
  rw [← Nat.mul_div_mul_right a b hd, h, Nat.mul_comm b d, Nat.mul_div_mul_right c d hb]

end Quotients

abbrev oneUnits : Nat := pow2 1074

theorem oneUnits_pos : 0 < oneUnits := pow2_pos 1074

theorem pow2_toNat_mul (e : Int) (h : -1074 ≤ e) :
    pow2 (-e).toNat * pow2 (e + 1074).toNat = oneUnits * pow2 e.toNat := by
  rw [← pow2_add, ← pow2_add]
  congr 1
  omega

/-- A number with a binary exponent is compared to a whole number by their units. -/
theorem scaled_lt_iff {m n : Nat} {e : Int} (h : -1074 ≤ e) :
    m * pow2 e.toNat < n * pow2 (-e).toNat ↔ m * pow2 (e + 1074).toNat < n * oneUnits := by
  have hleft : m * pow2 (e + 1074).toNat * pow2 (-e).toNat = m * pow2 e.toNat * oneUnits := by
    rw [Nat.mul_assoc, Nat.mul_comm (pow2 _), pow2_toNat_mul e h, Nat.mul_comm oneUnits,
      Nat.mul_assoc]
  rw [← Nat.mul_lt_mul_right oneUnits_pos, ← hleft, Nat.mul_right_comm n,
    Nat.mul_lt_mul_right (pow2_pos _)]

theorem Ratio.ofScaled_units {significand : Nat} {exponent : Int} (h : -1074 ≤ exponent) :
    (ofScaled significand exponent).num * oneUnits =
      significand * pow2 (exponent + 1074).toNat * (ofScaled significand exponent).den := by
  cases exponent with
  | ofNat e =>
    have hsum : ((e : Int) + 1074).toNat = e + 1074 := by omega
    change significand * pow2 e * pow2 1074 = significand * pow2 ((e : Int) + 1074).toNat * 1
    rw [hsum, pow2_add, Nat.mul_one, Nat.mul_assoc]
  | negSucc e =>
    have hsum : (Int.negSucc e + 1074).toNat + (e + 1) = 1074 := by omega
    change significand * pow2 1074 = _ * pow2 (e + 1)
    rw [Nat.mul_assoc, ← pow2_add, hsum]

def signed (negative : Bool) (n : Nat) : Int := if negative then -n else n

theorem signed_nonpos {negative : Bool} {n : Nat} (h : negative = true ∨ n = 0) :
    signed negative n ≤ 0 := by
  rw [signed]
  rcases h with rfl | rfl
  · rw [if_pos rfl]
    exact Int.neg_nonpos_of_nonneg (Int.natCast_nonneg n)
  · cases negative <;> exact Int.le_refl 0

theorem signed_mul (negative : Bool) (n k : Nat) :
    signed negative n * k = signed negative (n * k) := by
  cases negative with
  | false => exact (Int.natCast_mul n k).symm
  | true => rw [signed, signed, if_pos rfl, if_pos rfl, Int.neg_mul, Int.natCast_mul]

/-- A finite double as a fraction and as a number of units. -/
structure Measures (x : Float) (negative : Bool) (r : Ratio) : Prop where
  fraction : fraction? x = some (negative, r)
  den_pos : 0 < r.den
  units : unitsOfDouble x = signed negative (unitsOfDouble x).natAbs
  value : r.num * oneUnits = (unitsOfDouble x).natAbs * r.den

variable {x : Float}

theorem exists_measures (hx : isFinite x = true) : ∃ negative r, Measures x negative r := by
  unfold isFinite at hx
  split at hx
  · rename_i negative significand exponent hreading
    obtain ⟨-, hlow, -⟩ := Reading.bounds_of_ofBits hreading
    have hunits : unitsOfDouble x =
        signed negative (significand * pow2 (exponent + 1074).toNat) := by
      rw [unitsOfDouble, hreading]
      rfl
    have habs : (unitsOfDouble x).natAbs = significand * pow2 (exponent + 1074).toNat := by
      rw [hunits, signed]
      split <;> omega
    refine ⟨negative, .ofScaled significand exponent, ?_, Ratio.den_ofScaled_pos _ _, ?_, ?_⟩
    · rw [fraction?, hreading]
    · rw [habs, hunits]
    · rw [habs, Ratio.ofScaled_units hlow]
  · cases hx

namespace Measures

variable {negative : Bool} {r : Ratio}

theorem num_div (h : Measures x negative r) :
    r.num / r.den = (unitsOfDouble x).natAbs / oneUnits :=
  div_congr h.den_pos oneUnits_pos h.value

theorem round_num (h : Measures x negative r) (p : Nat) :
    roundHalfEven (r.num * p) r.den = roundHalfEven ((unitsOfDouble x).natAbs * p) oneUnits := by
  refine roundHalfEven_congr h.den_pos oneUnits_pos ?_
  rw [Nat.mul_right_comm, h.value, Nat.mul_right_comm]

end Measures

theorem pow2_dvd_unitsOfDouble {k : Nat} (h : pow2 (52 + k) ≤ (unitsOfDouble x).natAbs) :
    pow2 k ∣ (unitsOfDouble x).natAbs := by
  unfold unitsOfDouble at h ⊢
  split at h
  · rename_i negative significand exponent hreading
    obtain ⟨hlt, -, -⟩ := Reading.bounds_of_ofBits hreading
    have habs : ∀ n : Nat, (if negative then -(n : Int) else n).natAbs = n := by
      intro n
      split <;> omega
    simp only [habs] at h ⊢
    have hplaces : 52 + k < 53 + (exponent + 1074).toNat := by
      refine lt_of_pow2_lt (Nat.lt_of_le_of_lt h ?_)
      rw [pow2_add]
      exact (Nat.mul_lt_mul_right (pow2_pos _)).mpr hlt
    refine Nat.dvd_trans ?_ (Nat.dvd_mul_left _ significand)
    exact Nat.pow_dvd_pow 2 (by omega)
  · exact absurd h (Nat.not_le.mpr (pow2_pos _))

theorem truncate?_of_nonneg (hx : isFinite x = true) (h0 : 0 ≤ unitsOfDouble x) :
    truncate? x = some (unitsOfDouble x / oneUnits) := by
  obtain ⟨negative, r, h⟩ := exists_measures hx
  have hwhole : ((r.num / r.den : Nat) : Int) = unitsOfDouble x / oneUnits := by
    rw [h.num_div, Int.natCast_ediv, Int.natAbs_of_nonneg h0]
  have hsign : negative = true → unitsOfDouble x = 0 := by
    rintro rfl
    have hunits := h.units
    rw [signed, if_pos rfl] at hunits
    omega
  rw [truncate?, h.fraction]
  simp only [Option.bind_eq_bind, Option.bind_some, hwhole]
  cases negative with
  | false => rfl
  | true => rw [hsign rfl, if_pos rfl, Int.zero_ediv, Int.neg_zero]

/-- A double that is a whole number is so many times one. -/
theorem unitsOfDouble_of_toInt? {n : Int} (h : toInt? x = some n) :
    isFinite x = true ∧ unitsOfDouble x = n * oneUnits := by
  obtain ⟨⟨negative, r⟩, hr, h⟩ := Option.bind_eq_some_iff.mp h
  have hx : isFinite x = true := by
    unfold fraction? at hr
    unfold isFinite
    split at hr
    · rfl
    · cases hr
  obtain ⟨negative', r', hm⟩ := exists_measures hx
  cases hm.fraction.symm.trans hr
  refine ⟨hx, ?_⟩
  dsimp only at h
  split at h
  · rename_i hwhole
    have hdvd : oneUnits ∣ (unitsOfDouble x).natAbs := by
      refine Nat.dvd_of_mul_dvd_mul_right hm.den_pos ?_
      rw [← hm.value, Nat.mul_comm]
      exact Nat.mul_dvd_mul_right (Nat.dvd_of_mod_eq_zero hwhole) oneUnits
    have hdiv : (unitsOfDouble x).natAbs / oneUnits * oneUnits = (unitsOfDouble x).natAbs :=
      Nat.div_mul_cancel hdvd
    have hn : n = signed negative ((unitsOfDouble x).natAbs / oneUnits) := by
      rw [← hm.num_div]
      exact (Option.some.inj h).symm
    rw [hn, signed_mul, hdiv]
    exact hm.units
  · cases h

/-- The decimals of a finite double, with the sign that it is written with. -/
theorem exists_fixed_eq (hx : isFinite x = true) : ∃ negative,
    unitsOfDouble x = signed negative (unitsOfDouble x).natAbs ∧ ∀ places grouped,
      fixed places grouped x =
        fixedRatio places grouped negative (unitsOfDouble x).natAbs oneUnits := by
  obtain ⟨negative, r, h⟩ := exists_measures hx
  refine ⟨negative, h.units, fun places grouped => ?_⟩
  have hfixed : fixed places grouped x = fixedRatio places grouped negative r.num r.den := by
    have hr := h.fraction
    unfold fraction? at hr
    unfold fixed
    split at hr
    · rename_i hreading
      rw [hreading]
      cases hr
      rfl
    · cases hr
  rw [hfixed, fixedRatio, fixedRatio, fixedMagnitude, fixedMagnitude, h.round_num]

section Nearest

variable {num den : Nat}

/-- A number below a power of two has its last bit 53 places further down at most. -/
theorem unitExponent_le {k : Nat} (hnum : num ≠ 0) (h : num < pow2 k * den) :
    unitExponent num den ≤ max (-1074) ((k : Int) - 53) := by
  have hfirst := @not_under_lastExponent num den hnum
  have hlast : lastExponent num den < (k : Int) - 52 := by
    refine Int.not_le.mp fun hle => hfirst ?_
    refine Under.mono ?_ hle
    refine (under_iff 52 (by omega)).mpr ?_
    have hk : ((k : Int) - 52 + (52 : Nat)).toNat = k := by omega
    rw [hk, Nat.mul_comm (pow2 52), Nat.mul_comm den]
    exact (Nat.mul_lt_mul_right (pow2_pos 52)).mpr h
  rw [unitExponent_eq_max]
  omega

/-- A number from a power of two on has its last bit at most 52 places further down. -/
theorem le_unitExponent_of_le {k : Nat} (hden : den ≠ 0) (h : pow2 k * den ≤ num) :
    (k : Int) - 52 ≤ unitExponent num den := by
  refine Int.not_lt.mp fun hlt => ?_
  have hunder := (@under_unitExponent num den hden).mono (f := (k : Int) - 53) (by omega)
  replace hunder := (under_iff 53 (by omega)).mp hunder
  have hk : ((k : Int) - 53 + (53 : Nat)).toNat = k := by omega
  rw [hk, Nat.mul_comm (pow2 53), Nat.mul_comm den] at hunder
  exact absurd (Nat.lt_of_mul_lt_mul_right hunder) (Nat.not_lt.mpr h)

/-- The last bit of a rounded quotient, as a power of two in units. -/
def lastPlace (num den : Nat) : Nat := (unitExponent num den + 1074).toNat

/-- A quotient rounded to a whole number of its last bits. -/
def lastBits (num den : Nat) : Nat :=
  roundHalfEven (num * pow2 (-unitExponent num den).toNat) (den * pow2 (unitExponent num den).toNat)

/-- The number of units that a quotient is rounded to. -/
def nearestUnits (num den : Nat) : Nat := lastBits num den * pow2 (lastPlace num den)

/-- What bits stand for, from their fields. -/
theorem Reading.ofBits_of_fields {bits biased fraction : Nat} {negative : Bool}
    (hsign : (bits / pow2 63 % 2 == 1) = negative) (hbiased : bits / pow2 52 % 2048 = biased)
    (hfraction : bits % pow2 52 = fraction) (hspecial : biased ≠ 2047) :
    ofBits bits = if biased = 0 then .finite negative fraction (-1074)
      else .finite negative (fraction + pow2 52) ((biased : Int) - 1075) := by
  unfold ofBits
  rw [hsign, hbiased, hfraction]
  exact if_neg hspecial

theorem unitsOfDouble_of_fields {x : Float} {biased fraction : Nat} {negative : Bool}
    (hsign : (x.toBits.toNat / pow2 63 % 2 == 1) = negative)
    (hbiased : x.toBits.toNat / pow2 52 % 2048 = biased)
    (hfraction : x.toBits.toNat % pow2 52 = fraction) (hspecial : biased ≠ 2047) :
    unitsOfDouble x = signed negative
      (if biased = 0 then fraction else (fraction + pow2 52) * pow2 (biased - 1)) := by
  rw [unitsOfDouble, Reading.ofDouble, Reading.ofBits_of_fields hsign hbiased hfraction hspecial]
  by_cases hzero : biased = 0
  · rw [if_pos hzero, if_pos hzero]
    dsimp only
    have hlast : (-1074 + 1074 : Int).toNat = 0 := by decide
    rw [hlast, pow2_zero, Nat.mul_one]
    rfl
  · rw [if_neg hzero, if_neg hzero]
    dsimp only
    have hplace : ((biased : Int) - 1075 + 1074).toNat = biased - 1 := by omega
    rw [hplace]
    rfl

/-- A significand that is written with its place, a carry into a 54th bit included. -/
theorem significand_eq {q place : Nat} (hq : q ≤ pow2 53) (hlow : pow2 52 ≤ q ∨ place = 0) :
    (if place + q / pow2 52 = 0 then q % pow2 52
      else (q % pow2 52 + pow2 52) * pow2 (place + q / pow2 52 - 1)) = q * pow2 place := by
  have hpos : 0 < pow2 52 := pow2_pos 52
  have h53 : pow2 53 = 2 * pow2 52 := pow2_add 1 52
  rw [h53] at hq
  rcases Nat.lt_or_ge q (pow2 52) with hlt | hle
  · obtain rfl : place = 0 := hlow.resolve_left (Nat.not_le.mpr hlt)
    rw [Nat.div_eq_of_lt hlt, Nat.mod_eq_of_lt hlt, if_pos rfl, pow2_zero, Nat.mul_one]
  · rcases Nat.lt_or_eq_of_le hq with hlt | rfl
    · have hdiv : q / pow2 52 = 1 := Nat.div_eq_of_lt_le (by omega) (by omega)
      have hmod := Nat.div_add_mod q (pow2 52)
      rw [hdiv, Nat.mul_one, Nat.add_comm] at hmod
      rw [hdiv, if_neg (Nat.succ_ne_zero place), hmod, Nat.add_sub_cancel]
    · rw [Nat.mul_div_cancel 2 hpos, Nat.mul_mod_left, if_neg (by omega), Nat.zero_add,
        Nat.add_sub_assoc (by decide), pow2_add, Nat.mul_comm (pow2 place), ← Nat.mul_assoc,
        Nat.mul_comm 2]
      rfl

/-- Bits that stand for `q` times the power of two at a place, where the first of the 53 bits is
set or the place is the last one. -/
theorem unitsOfDouble_ofBits {q place : Nat} (negative : Bool) (hq : q ≤ pow2 53)
    (hlow : pow2 52 ≤ q ∨ place = 0) (htop : place * pow2 52 + q < 2047 * pow2 52) :
    unitsOfDouble (Float.ofBits
      (UInt64.ofNat (place * pow2 52 + q + if negative then pow2 63 else 0))) =
        signed negative (q * pow2 place) := by
  rw [← significand_eq hq hlow]
  have h52 : pow2 52 = 4503599627370496 := by decide
  have h63 : pow2 63 = 9223372036854775808 := by decide
  rw [h52] at htop
  generalize hu : UInt64.ofNat (place * pow2 52 + q + if negative then pow2 63 else 0) = u
  have hnat : u.toNat =
      place * 4503599627370496 + q + if negative then 9223372036854775808 else 0 := by
    rw [← hu, UInt64.toNat_ofNat', h52, h63]
    split <;> omega
  have hbiased : u.toNat / pow2 52 % 2048 = place + q / pow2 52 := by
    rw [hnat, h52]
    split <;> omega
  have hfraction : u.toNat % pow2 52 = q % pow2 52 := by
    rw [hnat, h52]
    split <;> omega
  have hsign : (u.toNat / pow2 63 % 2 == 1) = negative := by
    rw [hnat, h63]
    cases negative with
    | false => exact beq_eq_false_iff_ne.mpr (by rw [if_neg Bool.false_ne_true]; omega)
    | true => exact beq_iff_eq.mpr (by rw [if_pos rfl]; omega)
  have hspecial : place + q / pow2 52 ≠ 2047 := by
    rw [h52]
    omega
  have hbits := toBits_ofBits (u := u) (by rw [hbiased]; exact hspecial)
  exact unitsOfDouble_of_fields (by rw [hbits]; exact hsign) (by rw [hbits]; exact hbiased)
    (by rw [hbits]; exact hfraction) hspecial

theorem lastBits_le (hden : 0 < den) : lastBits num den ≤ pow2 53 :=
  roundHalfEven_le (Nat.mul_pos hden (pow2_pos _)) (under_unitExponent (Nat.ne_of_gt hden))

theorem le_lastBits (hnum : num ≠ 0) (hden : 0 < den) :
    pow2 52 ≤ lastBits num den ∨ lastPlace num den = 0 := by
  have hmax := unitExponent_eq_max num den
  by_cases hlast : lastExponent num den = unitExponent num den
  · refine .inl ?_
    have hlow := le_significand hnum hden
    rwa [hlast] at hlow
  · refine .inr ?_
    unfold lastPlace
    omega

theorem nearestBits_eq (hnum : num ≠ 0) (hden : 0 < den) (h : num < overflow * den) :
    nearestBits num den = lastPlace num den * pow2 52 + lastBits num den := by
  have hlt := nearestBits_lt hden h
  unfold nearestBits at hlt ⊢
  rw [if_neg hnum] at hlt ⊢
  simp only [Ratio.num_ofScaled_one, Ratio.den_ofScaled_one] at hlt ⊢
  split at hlt
  · rename_i hfinite
    exact if_pos hfinite
  · exact absurd hlt (Nat.lt_irrefl _)

theorem nearestUnits_zero (den : Nat) : nearestUnits 0 den = 0 := by
  have hzero : lastBits 0 den = 0 := by
    rw [lastBits, Nat.zero_mul, roundHalfEven]
    simp only [Nat.zero_div, Nat.zero_mod]
    split <;> omega
  rw [nearestUnits, hzero, Nat.zero_mul]

theorem unitsOfDouble_nearest (hden : 0 < den) (h : num < overflow * den) (negative : Bool) :
    unitsOfDouble (nearest negative num den) =
      signed negative (nearestUnits num den) := by
  by_cases hnum : num = 0
  · subst hnum
    have hnearest : nearestBits 0 den = 0 := if_pos rfl
    rw [nearestUnits_zero, nearest, hnearest]
    cases negative <;> decide
  · have hbits := nearestBits_eq hnum hden h
    have htop := nearestBits_lt hden h
    rw [hbits] at htop
    rw [nearest, hbits]
    exact unitsOfDouble_ofBits negative (lastBits_le hden) (le_lastBits hnum hden) htop

/-- Rounding to a double is off by half of the last bit at most. -/
theorem nearestUnits_bounds (hden : 0 < den) :
    2 * (num * oneUnits) ≤
        2 * (nearestUnits num den * den) + den * pow2 (lastPlace num den) ∧
      2 * (nearestUnits num den * den) ≤
        2 * (num * oneUnits) + den * pow2 (lastPlace num den) := by
  unfold nearestUnits
  have hlow : -1074 ≤ unitExponent num den := by
    rw [unitExponent_eq_max]
    omega
  have hscale := pow2_toNat_mul (unitExponent num den) hlow
  have hpos := pow2_pos (unitExponent num den).toNat
  have hbounds := @roundHalfEven_bounds (num * pow2 (-unitExponent num den).toNat)
    (den * pow2 (unitExponent num den).toNat) (Nat.mul_pos hden hpos)
  change _ ≤ 2 * (_ * lastBits num den) + _ ∧ 2 * (_ * lastBits num den) ≤ _ at hbounds
  change pow2 (-unitExponent num den).toNat * pow2 (lastPlace num den) = _ at hscale
  generalize pow2 (unitExponent num den).toNat = above at *
  generalize pow2 (-unitExponent num den).toNat = below at *
  generalize pow2 (lastPlace num den) = place at *
  generalize lastBits num den = q at *
  have hnum : num * below * place = num * oneUnits * above := by
    rw [Nat.mul_assoc, hscale, Nat.mul_assoc]
  have hq : den * above * q * place = q * place * den * above := by ring
  have hden' : den * above * place = den * place * above := by ring
  have hleft := Nat.mul_le_mul_right place hbounds.1
  have hright := Nat.mul_le_mul_right place hbounds.2
  simp only [Nat.add_mul, Nat.mul_assoc 2, hnum, hq, hden'] at hleft hright
  constructor
  · refine Nat.le_of_mul_le_mul_right ?_ hpos
    simpa only [Nat.add_mul, Nat.mul_assoc 2] using hleft
  · refine Nat.le_of_mul_le_mul_right ?_ hpos
    simpa only [Nat.add_mul, Nat.mul_assoc 2] using hright

theorem nearestUnits_whole {n : Nat} (h : n < pow2 53) (hden : 0 < den) :
    nearestUnits (n * den) den = n * oneUnits := by
  by_cases hn : n = 0
  · rw [hn, Nat.zero_mul, nearestUnits_zero, Nat.zero_mul]
  have hlow := unitExponent_eq_max (n * den) den
  have hhigh := unitExponent_le (k := 53)
    (Nat.ne_of_gt (Nat.mul_pos (Nat.pos_of_ne_zero hn) hden)) ((Nat.mul_lt_mul_right hden).mpr h)
  have hscale := pow2_toNat_mul (unitExponent (n * den) den) (by omega)
  have hzero : (unitExponent (n * den) den).toNat = 0 := by omega
  have hexact : lastBits (n * den) den = n * pow2 (-unitExponent (n * den) den).toNat := by
    rw [lastBits, hzero, pow2_zero, Nat.mul_one, Nat.mul_right_comm, roundHalfEven_of_dvd hden]
  rw [hzero, pow2_zero, Nat.mul_one] at hscale
  rw [nearestUnits, hexact, lastPlace, Nat.mul_assoc, hscale]

end Nearest

theorem unitsOfDouble_ofInt {n : Nat} (h : n < pow2 53) :
    unitsOfDouble (ofInt n) = (n * oneUnits : Nat) := by
  have hsign : decide ((n : Int) < 0) = false := decide_eq_false (by omega)
  have hsmall : n < overflow * 1 := by
    have h53 : pow2 53 < overflow := by decide +kernel
    omega
  have hunits := @nearestUnits_whole 1 n h Nat.one_pos
  rw [Nat.mul_one] at hunits
  rw [ofInt, hsign, Int.natAbs_natCast, unitsOfDouble_nearest Nat.one_pos hsmall, hunits]
  rfl

end Funnel.Number
