import Funnel.Proofs.Number.Quotient
import Funnel.Proofs.Number.Units
import Funnel.Proofs.Number.Unsigned

/-!
# Quotients of doubles are rounded once

Dividing cuts the quotient of the significands and keeps of the rest whether it reaches a half and
whether anything else is left of it. That is enough to round to any smaller number of bits, so a
double divided by a whole number is the double nearest to the exact quotient.
-/

set_option autoImplicit false

namespace Funnel.Number

open Float.Model (Format UnpackedFloat totalExponent)
open Float.Model.UnpackedFloat

/-- A cut quotient with its round bit, the half below its last place, and its sticky bit, whatever
is neither a half nor nothing. -/
structure Keeps (em : ExtendedMantissa) (num den : Nat) : Prop where
  mantissa : em.mantissa = num / den
  roundBit : em.roundBit = decide (den ≤ 2 * (num % den))
  stickyBit : em.stickyBit = decide (num % den ≠ 0 ∧ 2 * (num % den) ≠ den)

theorem keeps_quotient {num den : Nat} (hden : 0 < den) :
    Keeps (.ofMantissaAndAccuracy (num / den) (accuracyOfFraction (num % den) den)) num den := by
  unfold accuracyOfFraction
  by_cases hexact : num % den = 0
  · rw [if_pos hexact]
    exact ⟨rfl, by simp [ExtendedMantissa.ofMantissaAndAccuracy, hexact, Nat.not_le.mpr hden],
      by simp [ExtendedMantissa.ofMantissaAndAccuracy, hexact]⟩
  · rw [if_neg hexact]
    rcases Nat.lt_trichotomy (2 * (num % den)) den with hlt | heq | hgt
    · rw [Nat.compare_eq_lt.mpr hlt]
      exact ⟨rfl, by simp [ExtendedMantissa.ofMantissaAndAccuracy, hlt],
        by simp [ExtendedMantissa.ofMantissaAndAccuracy, hexact, Nat.ne_of_lt hlt]⟩
    · rw [Nat.compare_eq_eq.mpr heq]
      exact ⟨rfl, by simp [ExtendedMantissa.ofMantissaAndAccuracy, heq],
        by simp [ExtendedMantissa.ofMantissaAndAccuracy, heq]⟩
    · rw [Nat.compare_eq_gt.mpr hgt]
      exact ⟨rfl, by simp [ExtendedMantissa.ofMantissaAndAccuracy, Nat.le_of_lt hgt],
        by simp [ExtendedMantissa.ofMantissaAndAccuracy, hexact, Nat.ne_of_gt hgt]⟩

namespace Keeps

variable {em : ExtendedMantissa} {num den : Nat}

theorem roundedMantissa (h : Keeps em num den) : em.roundedMantissa = roundHalfEven num den := by
  obtain ⟨m, roundBit, stickyBit⟩ := em
  obtain ⟨rfl, rfl, rfl⟩ := h
  have hparity := Nat.mod_two_eq_zero_or_one (num / den)
  unfold roundHalfEven ExtendedMantissa.roundedMantissa
  rcases Nat.lt_trichotomy (2 * (num % den)) den with hlt | heq | hgt
  · have hround : decide (den ≤ 2 * (num % den)) = false := by simp [hlt]
    simp only [hround]
    rw [if_neg (by omega)]
    cases decide (num % den ≠ 0 ∧ 2 * (num % den) ≠ den) <;> rfl
  · have hround : decide (den ≤ 2 * (num % den)) = true := by simp [heq]
    have hsticky : decide (num % den ≠ 0 ∧ 2 * (num % den) ≠ den) = false := by simp [heq]
    simp only [hround, hsticky]
    change num / den + num / den % 2 = _
    split <;> omega
  · have hround : decide (den ≤ 2 * (num % den)) = true := by simp [Nat.le_of_lt hgt]
    have hsticky : decide (num % den ≠ 0 ∧ 2 * (num % den) ≠ den) = true := by
      simp only [decide_eq_true_eq]
      omega
    simp only [hround, hsticky]
    rw [if_pos (.inl hgt)]
    rfl

theorem shiftRightOne (h : Keeps em num den) (hden : 0 < den) :
    Keeps em.shiftRightOne num (den * 2) := by
  obtain ⟨hmantissa, hround, hsticky⟩ := h
  have hrest := Nat.mod_lt num hden
  have hmod : num % (den * 2) = num % den + den * (num / den % 2) := Nat.mod_mul
  have hparity := Nat.mod_two_eq_zero_or_one (num / den)
  refine ⟨?_, ?_, ?_⟩
  · rw [ExtendedMantissa.shiftRightOne, hmantissa, Nat.div_div_eq_div_mul]
  · simp only [ExtendedMantissa.shiftRightOne, hmantissa, hmod]
    rcases hparity with hpar | hpar
    · rw [hpar, Nat.mul_zero]
      simp
      omega
    · rw [hpar, Nat.mul_one]
      simp
      omega
  · simp only [ExtendedMantissa.shiftRightOne, hround, hsticky, hmod, ← Bool.decide_or]
    refine decide_eq_decide.mpr ?_
    rcases hparity with hpar | hpar
    · rw [hpar, Nat.mul_zero]
      omega
    · rw [hpar, Nat.mul_one]
      omega

/-- Further bits are cut without a loss. -/
theorem shiftRight (h : Keeps em num den) (hden : 0 < den) (s : Nat) :
    Keeps (em >>> s) num (den * pow2 s) := by
  change Keeps (Nat.repeat ExtendedMantissa.shiftRightOne s em) num (den * pow2 s)
  induction s with
  | zero => rwa [pow2_zero, Nat.mul_one]
  | succ s ih =>
    rw [Nat.repeat, pow2_add, ← Nat.mul_assoc]
    exact ih.shiftRightOne (Nat.mul_pos hden (pow2_pos s))

end Keeps

section Place

variable {c num den cut part : Nat} {e t : Int}

theorem under_two_mul : Under (2 * c) num den e ↔ Under c num den (e + 1) := by
  have hsum : (e + 1 + ((-e).toNat : Int)).toNat = 1 + (e + ((-e).toNat : Int)).toNat := by omega
  rw [under_iff (-e).toNat (by omega), under_iff (-e).toNat (by omega), hsum, pow2_add]
  have htwo : 2 * c * (den * pow2 (e + ((-e).toNat : Int)).toNat) =
      c * (den * (pow2 1 * pow2 (e + ((-e).toNat : Int)).toNat)) := by
    change _ = c * (den * (2 * _))
    ring
  rw [htwo]

theorem lastExponent_eq (hnum : num ≠ 0) (hden : den ≠ 0) (hunder : Under (pow2 53) num den e)
    (hfirst : ¬Under (pow2 52) num den e) : lastExponent num den = e := by
  have hlast := @under_lastExponent num den hden
  have hlastFirst := @not_under_lastExponent num den hnum
  have hnext : ∀ {f}, Under (pow2 53) num den f → Under (pow2 52) num den (f + 1) :=
    fun h => under_two_mul.mp h
  rcases Int.lt_trichotomy (lastExponent num den) e with hlt | heq | hgt
  · exact absurd ((hnext hlast).mono (by omega)) hfirst
  · exact heq
  · exact absurd ((hnext hunder).mono (by omega)) hlastFirst

/-- A quotient that is written with a power of two to spare. -/
def SameValue (num den cut part : Nat) (t : Int) : Prop :=
  num * (part * pow2 (-t).toNat) = cut * pow2 t.toNat * den

theorem SameValue.under_iff (h : SameValue num den cut part t) (hden : 0 < den) (hpart : 0 < part)
    (s : Nat) : Under c num den (t + s) ↔ cut < c * (part * pow2 s) := by
  have hsum : (t + s + ((-t).toNat : Int)).toNat = s + t.toNat := by omega
  rw [Number.under_iff (-t).toNat (by omega), hsum, pow2_add]
  have hleft : num * pow2 (-t).toNat * part = cut * (den * pow2 t.toNat) := by
    calc num * pow2 (-t).toNat * part = num * (part * pow2 (-t).toNat) := by ring
      _ = cut * pow2 t.toNat * den := h
      _ = cut * (den * pow2 t.toNat) := by ring
  have hright : c * (den * (pow2 s * pow2 t.toNat)) * part =
      c * (part * pow2 s) * (den * pow2 t.toNat) := by ring
  rw [← Nat.mul_lt_mul_right hpart, hleft, hright,
    Nat.mul_lt_mul_right (Nat.mul_pos hden (pow2_pos _))]

theorem SameValue.lastBits_eq (h : SameValue num den cut part t) (hden : 0 < den)
    (hpart : 0 < part) {s : Nat} (hs : unitExponent num den = t + s) :
    lastBits num den = roundHalfEven cut (part * pow2 s) := by
  refine roundHalfEven_congr (Nat.mul_pos hden (pow2_pos _)) (Nat.mul_pos hpart (pow2_pos _)) ?_
  rw [hs]
  have hsum : pow2 (-(t + s)).toNat * pow2 s * pow2 t.toNat =
      pow2 (-t).toNat * pow2 (t + s).toNat := by
    rw [← pow2_add, ← pow2_add, ← pow2_add]
    congr 1
    omega
  refine Nat.eq_of_mul_eq_mul_right (pow2_pos t.toNat) ?_
  calc num * pow2 (-(t + s)).toNat * (part * pow2 s) * pow2 t.toNat
      = num * part * (pow2 (-(t + s)).toNat * pow2 s * pow2 t.toNat) := by ring
    _ = num * (part * pow2 (-t).toNat) * pow2 (t + s).toNat := by rw [hsum]; ring
    _ = cut * (den * pow2 (t + s).toNat) * pow2 t.toNat := by rw [h]; ring

end Place

/-- A rounded significand with 53 bits: a carry into a 54th bit moves the place. -/
inductive Carried (q : Nat) (e : Int) : Nat → Int → Prop where
  | kept (h : q < pow2 53) : Carried q e q e
  | moved (h : q = pow2 53) : Carried q e (pow2 52) (e + 1)

theorem exists_carried {q : Nat} (hlow : pow2 52 ≤ q) (hq : q ≤ pow2 53) (e : Int) :
    ∃ m f, Carried q e m f ∧ pow2 52 ≤ m := by
  rcases Nat.lt_or_eq_of_le hq with hlt | heq
  · exact ⟨q, e, .kept hlt, hlow⟩
  · exact ⟨pow2 52, e + 1, .moved heq, Nat.le_refl _⟩

theorem targetExponent_of_log2 {m k : Nat} (h : m.log2 = k) {e : Int} (hlow : -1074 ≤ k + e - 52) :
    Format.binary64.targetExponent (totalExponent m e) = k + e - 52 := by
  have hmin : Format.binary64.minExponent = -1074 := by decide
  have hbits : (Format.binary64.mantissaBits : Int) = 53 := by decide
  rw [Format.targetExponent, totalExponent, h, hmin, hbits]
  omega

/-- The second shift of rounding only takes a carry back. -/
theorem shiftToTargetExponent_carried {q m : Nat} {e f : Int} (h : Carried q e m f)
    (hlow : pow2 52 ≤ q) (he : -1074 ≤ e) :
    shiftToTargetExponent .binary64 q e .exact = (⟨m, false, false⟩, f) := by
  unfold shiftToTargetExponent
  cases h with
  | kept hlt =>
    have hlog : q.log2 = 52 :=
      (Nat.log2_eq_iff (Nat.ne_of_gt (Nat.lt_of_lt_of_le (pow2_pos 52) hlow))).mpr ⟨hlow, hlt⟩
    rw [targetExponent_of_log2 hlog (by omega)]
    have hsame := @shiftToExponent_exact q 0 e (((52 : Nat) : Int) + e - 52) (by omega)
    rw [pow2_zero, Nat.mul_one] at hsame
    rw [hsame]
    congr 1
    omega
  | moved heq =>
    have hlog : q.log2 = 53 := by
      rw [heq]
      decide
    rw [targetExponent_of_log2 hlog (by omega), heq]
    have hmoved := @shiftToExponent_exact (pow2 52) 1 e (((53 : Nat) : Int) + e - 52) (by omega)
    refine hmoved.trans ?_
    congr 1
    omega

variable {num den cut part : Nat} {t : Int}

/-- The place of the last bit is read off the length of the cut quotient. -/
theorem SameValue.lastExponent_eq (h : SameValue num den cut part t) (hnum : num ≠ 0)
    (hden : 0 < den) (hpart : 0 < part) (hcut : pow2 52 ≤ cut / part) :
    lastExponent num den = t + ((cut / part).log2 - 52 : Nat) := by
  have hlog := le_log2 hcut
  have hquotient : cut / part ≠ 0 := Nat.ne_of_gt (Nat.lt_of_lt_of_le (pow2_pos 52) hcut)
  have hbelow := pow2_log2_le hquotient
  have habove := lt_pow2_log2 (cut / part)
  generalize hs : (cut / part).log2 - 52 = s
  rw [show (cut / part).log2 = 52 + s by omega, pow2_add] at hbelow
  rw [show (cut / part).log2 + 1 = 53 + s by omega, pow2_add] at habove
  refine Number.lastExponent_eq hnum (Nat.ne_of_gt hden) ?_ ?_
  · refine (h.under_iff hden hpart s).mpr ?_
    rw [Nat.mul_comm part, ← Nat.mul_assoc]
    exact (Nat.div_lt_iff_lt_mul hpart).mp habove
  · refine fun hunder => absurd ((h.under_iff hden hpart s).mp hunder) (Nat.not_lt.mpr ?_)
    rw [Nat.mul_comm part, ← Nat.mul_assoc]
    exact (Nat.le_div_iff_mul_le hpart).mp hbelow

theorem le_lastBits_of_normal (hnum : num ≠ 0) (hden : 0 < den)
    (hlow : -1074 ≤ lastExponent num den) : pow2 52 ≤ lastBits num den := by
  have hfirst := le_significand hnum hden
  rwa [← Int.max_eq_right hlow, ← unitExponent_eq_max] at hfirst

/-- Rounding a cut quotient gives the last bits of the exact quotient. -/
theorem roundWithAccuracy_quotient (hnum : num ≠ 0) (hden : 0 < den) (hpart : 0 < part)
    (h : SameValue num den cut part t) (hcut : pow2 52 ≤ cut / part)
    (hlow : -1074 ≤ lastExponent num den) {m : Nat} {f : Int} (hm : 0 < m)
    (hcarried : Carried (lastBits num den) (unitExponent num den) m f) :
    roundWithAccuracy .binary64 .positive (cut / part) t (accuracyOfFraction (cut % part) part) =
      .finite .positive m f hm := by
  have hlast := h.lastExponent_eq hnum hden hpart hcut
  have hlog := le_log2 hcut
  have hunit := unitExponent_eq_max num den
  rw [Int.max_eq_right hlow, hlast] at hunit
  have hfirst : shiftToTargetExponent .binary64 (cut / part) t
      (accuracyOfFraction (cut % part) part) =
        (ExtendedMantissa.ofMantissaAndAccuracy (cut / part)
          (accuracyOfFraction (cut % part) part) >>> ((cut / part).log2 - 52),
          unitExponent num den) := by
    have htarget := @targetExponent_of_log2 (cut / part) _ rfl t (by omega)
    have hamount : (((cut / part).log2 : Int) + t - 52 - t).toNat = (cut / part).log2 - 52 := by
      omega
    simp only [shiftToTargetExponent, htarget, shiftToExponent, hamount, hunit]
  have hrounded := ((@keeps_quotient cut part hpart).shiftRight hpart
    ((cut / part).log2 - 52)).roundedMantissa
  rw [← h.lastBits_eq hden hpart hunit] at hrounded
  have hsecond := shiftToTargetExponent_carried hcarried
    (le_lastBits_of_normal hnum hden hlow) (by omega)
  unfold roundWithAccuracy
  rw [hfirst]
  dsimp only
  rw [hrounded, hsecond]
  exact dif_neg (Nat.ne_of_gt hm)

/-- The nearest double is unpacked to the last bits, too. -/
theorem unpack_nearest (hnum : num ≠ 0) (hden : 0 < den) (h : num < overflow * den)
    (hlow : -1074 ≤ lastExponent num den) {m : Nat} {f : Int} (hm : 0 < m)
    (hcarried : Carried (lastBits num den) (unitExponent num den) m f) :
    (nearest false num den).toModel.unpack = .finite .positive m f hm := by
  have h52 : pow2 52 = 4503599627370496 := by decide
  have h53 : pow2 53 = 9007199254740992 := by decide
  have hfirst := le_lastBits_of_normal hnum hden hlow
  have hhigh := nearestBits_lt hden h
  have hbits := nearestBits_eq hnum hden h
  have hplace : (lastPlace num den : Int) = unitExponent num den + 1074 := by
    have := unitExponent_eq_max num den
    unfold lastPlace
    omega
  generalize hu : UInt64.ofNat (nearestBits num den) = u
  have hnat : u.toBitVec.toNat = lastPlace num den * pow2 52 + lastBits num den := by
    change u.toNat = _
    rw [← hu, ← hbits, UInt64.toNat_ofNat']
    omega
  rw [hbits] at hhigh
  have hexponent : u.toNat / pow2 52 % 2048 ≠ 2047 := by
    change u.toBitVec.toNat / _ % _ ≠ _
    rw [hnat]
    rw [h52] at hhigh ⊢
    omega
  have hsame : (nearest false num den).toModel.unpack = unpack .binary64 u.toBitVec := by
    change unpack .binary64 (Float.ofBits (UInt64.ofNat (nearestBits num den))).toBits.toBitVec = _
    rw [hu, toBits_ofBits hexponent]
  rw [hsame]
  rw [h52] at hhigh
  cases hcarried with
  | kept hlt =>
    refine @unpack_normal _ (lastPlace num den + 1) _ hm ?_ (by omega) (by omega) hfirst hlt _
      (by omega)
    rw [hnat, Nat.add_mul]
    omega
  | moved heq =>
    refine @unpack_normal _ (lastPlace num den + 2) _ hm ?_ (by omega) (by omega)
      (Nat.le_refl _) (pow2_lt (by decide)) _ (by omega)
    rw [hnat, Nat.add_mul, heq]
    omega

/-- A significand with 53 bits is below one unless its last bit stands at 2 ^ -52 or above. -/
theorem le_place_of_one_le {fraction place : Nat} (hlt : fraction < pow2 52)
    (hle : oneUnits ≤ (fraction + pow2 52) * pow2 place) : 1022 ≤ place := by
  have h53 : pow2 53 = pow2 52 + pow2 52 := by decide
  have hupper : (fraction + pow2 52) * pow2 place < pow2 (53 + place) := by
    rw [pow2_add 53]
    refine (Nat.mul_lt_mul_right (pow2_pos _)).mpr ?_
    omega
  have hexponent : 1074 < 53 + place := lt_of_pow2_lt (Nat.lt_of_le_of_lt hle hupper)
  omega

/-- A double from one on has 53 bits, at most 52 of which stand behind the point. -/
theorem exists_unpack {x : Float} (hx : isFinite x = true)
    (hone : (oneUnits : Int) ≤ unitsOfDouble x) :
    ∃ m e, ∃ hm : 0 < m, x.toModel.unpack = .finite .positive m e hm ∧ pow2 52 ≤ m ∧
      m < pow2 53 ∧ -52 ≤ e ∧ unitsOfDouble x = (m * pow2 (e + 1074).toNat : Nat) := by
  have hspecial := (unpackExponent_ne_iff _).mp ((isFinite_iff_unpackExponent x).mp hx)
  change x.toBits.toNat / pow2 52 % 2048 ≠ 2047 at hspecial
  generalize hbits : x.toBits.toNat = bits at hspecial
  generalize hbiased : bits / pow2 52 % 2048 = biased at hspecial
  generalize hfraction : bits % pow2 52 = fraction
  generalize hsign : (bits / pow2 63 % 2 == 1) = negative
  have hunits := unitsOfDouble_of_fields (x := x) (by rw [hbits, hsign]) (by rw [hbits, hbiased])
    (by rw [hbits, hfraction]) hspecial
  have hpos := oneUnits_pos
  have h52 : pow2 52 = 4503599627370496 := by decide
  have h63 : pow2 63 = 9223372036854775808 := by decide
  cases negative with
  | true =>
    have hnonpos : unitsOfDouble x ≤ 0 := hunits ▸ signed_nonpos (.inl rfl)
    omega
  | false =>
    have hlt : bits < 18446744073709551616 := hbits ▸ x.toBits.toNat_lt
    have hfractionLt : fraction < pow2 52 := hfraction ▸ Nat.mod_lt _ (pow2_pos 52)
    have hhalf : bits / pow2 63 % 2 ≠ 1 := beq_eq_false_iff_ne.mp hsign
    have hnormal : biased ≠ 0 := by
      intro hzero
      rw [signed, if_neg Bool.false_ne_true, if_pos hzero] at hunits
      have hsmall : pow2 52 < oneUnits := pow2_lt (by decide)
      omega
    rw [signed, if_neg Bool.false_ne_true, if_neg hnormal] at hunits
    have hwide : 1022 ≤ biased - 1 := by
      refine le_place_of_one_le hfractionLt ?_
      rw [hunits] at hone
      exact Int.ofNat_le.mp hone
    have h53 : pow2 53 = pow2 52 + pow2 52 := by decide
    have hplace : ((biased : Int) - 1075 + 1074).toNat = biased - 1 := by omega
    refine ⟨fraction + pow2 52, (biased : Int) - 1075, by omega, ?_, by omega, by omega, by omega,
      ?_⟩
    · change unpack .binary64 x.toBits.toBitVec = _
      refine @unpack_normal _ biased _ _ ?_ (by omega) (by omega) (by omega) (by omega) _ rfl
      change x.toBits.toNat + _ = _
      rw [hbits, h52]
      rw [h52] at hbiased hfraction
      rw [h63] at hhalf
      omega
    · rw [hunits, hplace]

theorem ofModel_pack_unpack (x : Float) : Float.ofModel (.pack x.toModel.unpack) = x := by
  have hbits := pack_unpack_toBits x
  rcases x with ⟨⟨bits, valid⟩⟩
  refine congrArg Float.ofModel ?_
  rw [Float.Model.pack, Float.Model.mk.injEq]
  exact congrArg UInt64.ofBitVec hbits

/-- The quotient of two significands with 53 bits is cut behind its 53rd bit or its 54th. -/
theorem div_normal {s₁ s₂ : Sign} {m₁ m₂ : Nat} {e₁ e₂ : Int} (hm₁ : 0 < m₁) (hm₂ : 0 < m₂)
    (hle₁ : pow2 52 ≤ m₁) (hlt₁ : m₁ < pow2 53) (hle₂ : pow2 52 ≤ m₂) (hlt₂ : m₂ < pow2 53)
    (hlow : -1021 ≤ e₁ - e₂) :
    UnpackedFloat.div .binary64 (.finite s₁ m₁ e₁ hm₁) (.finite s₂ m₂ e₂ hm₂) =
      roundWithAccuracy .binary64 (s₁ / s₂) (m₁ * pow2 53 / m₂) (e₁ - e₂ - 53)
        (accuracyOfFraction (m₁ * pow2 53 % m₂) m₂) := by
  have hlog : ∀ {m}, pow2 52 ≤ m → m < pow2 53 → m.log2 = 52 := fun hle hlt =>
    (Nat.log2_eq_iff (Nat.ne_of_gt (Nat.lt_of_lt_of_le (pow2_pos 52) hle))).mpr ⟨hle, hlt⟩
  have hmin : Format.binary64.minExponent = -1074 := by decide
  have hbits : (Format.binary64.mantissaBits : Int) = 53 := by decide
  have htarget : min (e₁ - e₂)
      (Format.binary64.targetExponent (totalExponent m₁ e₁ - totalExponent m₂ e₂)) =
        e₁ - e₂ - 53 := by
    rw [Format.targetExponent, totalExponent, totalExponent, hlog hle₁ hlt₁, hlog hle₂ hlt₂, hmin,
      hbits]
    omega
  have hshift : (e₁ - e₂ - (e₁ - e₂ - 53)).toNat = 53 := by omega
  change roundWithAccuracy _ _ _ _ _ = _
  rw [htarget, hshift, Nat.shiftLeft_eq]
  rfl

theorem unpackedWhole_of_pos {k : Nat} (hk : 0 < k) : unpackedWhole k =
    .finite .positive (k * pow2 (spare k)) (-(spare k : Int))
      (Nat.mul_pos hk (pow2_pos (spare k))) := by
  rw [unpackedWhole, dif_neg (Nat.ne_of_gt hk)]

/-- A double with 53 bits that is divided by a whole number is rounded to the nearest double. -/
theorem div_ofInt_of_unpack {x : Float} {m k : Nat} {e : Int} {hm : 0 < m}
    (hunpack : x.toModel.unpack = .finite .positive m e hm) (hle : pow2 52 ≤ m) (hlt : m < pow2 53)
    (he : -1021 ≤ e) (hk : 0 < k) (hsmall : k < pow2 53) (hnum : num ≠ 0) (hden : 0 < den)
    (hfinite : num < overflow * den)
    (hsame : SameValue num den (m * pow2 53) (k * pow2 (spare k)) (e - -(spare k : Int) - 53)) :
    x / ofInt k = nearest false num den := by
  have hbounds := significand_bounds (Nat.ne_of_gt hk) hsmall
  have hpart : 0 < k * pow2 (spare k) := Nat.mul_pos hk (pow2_pos _)
  have hcut : pow2 52 ≤ m * pow2 53 / (k * pow2 (spare k)) :=
    (Nat.le_div_iff_mul_le hpart).mpr (Nat.mul_le_mul hle (Nat.le_of_lt hbounds.2))
  have hlast := hsame.lastExponent_eq hnum hden hpart hcut
  have hlow : -1074 ≤ lastExponent num den := by omega
  obtain ⟨q, f, hcarried, hq⟩ := exists_carried (le_lastBits_of_normal hnum hden hlow)
    (lastBits_le hden) (unitExponent num den)
  have hqpos : 0 < q := Nat.lt_of_lt_of_le (pow2_pos 52) hq
  have hround := roundWithAccuracy_quotient hnum hden hpart hsame hcut hlow hqpos hcarried
  have hnearest := unpack_nearest hnum hden hfinite hlow hqpos hcarried
  have hdivision := @div_normal .positive .positive _ _ e (-(spare k : Int)) hm hpart hle hlt
    hbounds.1 hbounds.2 (by omega)
  have hsign : Sign.positive / Sign.positive = .positive := rfl
  rw [hsign, hround] at hdivision
  rw [← ofModel_pack_unpack (nearest false num den), hnearest, ← hdivision, ← hunpack,
    ← unpackedWhole_of_pos hk, ← unpack_ofInt hsmall]
  rfl

theorem div_ofInt_eq_nearest {x : Float} (hx : isFinite x = true)
    (hone : (oneUnits : Int) ≤ unitsOfDouble x) {k : Nat} (hk : 0 < k) (hsmall : k < pow2 53) :
    x / ofInt k = nearest false (unitsOfDouble x).toNat (k * oneUnits) := by
  obtain ⟨m, e, hm, hunpack, hle, hlt, he, hunits⟩ := exists_unpack hx hone
  have hspare : spare k ≤ 52 := Nat.sub_le _ _
  have hnat : (unitsOfDouble x).toNat = m * pow2 (e + 1074).toNat := by
    rw [hunits, Int.toNat_natCast]
  have hone : pow2 1074 = oneUnits := rfl
  have hroom := natAbs_unitsOfDouble_add_le x
  rw [hunits, Int.natAbs_natCast, hone] at hroom
  have hpow : pow2 (e + 1074).toNat *
      (pow2 (spare k) * pow2 (-(e - -(spare k : Int) - 53)).toNat) =
        pow2 53 * pow2 (e - -(spare k : Int) - 53).toNat * oneUnits := by
    rw [← hone, ← pow2_add, ← pow2_add, ← pow2_add, ← pow2_add]
    refine congrArg pow2 ?_
    omega
  have hpos := oneUnits_pos
  rw [hnat]
  clear hone
  generalize oneUnits = one at *
  refine div_ofInt_of_unpack hunpack hle hlt (by omega) hk hsmall
    (Nat.ne_of_gt (Nat.mul_pos hm (pow2_pos _))) (Nat.mul_pos hk hpos) ?_ ?_
  · have hfew : overflow * one ≤ overflow * (k * one) :=
      Nat.mul_le_mul_left _ (Nat.le_mul_of_pos_left _ hk)
    have hlt := Nat.lt_of_lt_of_le (Nat.lt_add_of_pos_right (pow2_pos 2044)) hroom
    exact Nat.lt_of_lt_of_le hlt hfew
  · calc m * pow2 (e + 1074).toNat *
          (k * pow2 (spare k) * pow2 (-(e - -(spare k : Int) - 53)).toNat)
        = m * k * (pow2 (e + 1074).toNat *
            (pow2 (spare k) * pow2 (-(e - -(spare k : Int) - 53)).toNat)) := by ring
      _ = m * pow2 53 * pow2 (e - -(spare k : Int) - 53).toNat * (k * one) := by
        rw [hpow]
        ring

end Funnel.Number
