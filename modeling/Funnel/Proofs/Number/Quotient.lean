import Funnel.Proofs.Number.Order

/-!
# Dividing by a whole number

A finite double that is divided by a whole number other than zero is finite: the quotient is not
larger than the dividend, and rounding does not take it beyond a double that it does not exceed.
-/

set_option autoImplicit false

namespace Funnel.Number

open Float.Model (Format UnpackedFloat totalExponent)
open Float.Model.UnpackedFloat

theorem mantissa_shiftRight (em : ExtendedMantissa) (s : Nat) :
    (em >>> s).mantissa = em.mantissa / pow2 s := by
  change (Nat.repeat ExtendedMantissa.shiftRightOne s em).mantissa = _
  induction s with
  | zero => exact (Nat.div_one _).symm
  | succ s ih =>
    rw [Nat.repeat, ExtendedMantissa.shiftRightOne, ih, Nat.div_div_eq_div_mul, pow2_add]
    rfl

theorem roundedMantissa_le_succ (em : ExtendedMantissa) :
    em.roundedMantissa ≤ em.mantissa + 1 := by
  obtain ⟨m, roundBit, stickyBit⟩ := em
  have hparity : m % 2 < 2 := Nat.mod_lt m Nat.two_pos
  cases roundBit <;> cases stickyBit
  · exact Nat.le_succ m
  · exact Nat.le_succ m
  · exact Nat.add_le_add_left (Nat.le_of_lt_succ hparity) m
  · exact Nat.le_refl _

theorem mantissa_ofMantissaAndAccuracy (q : Nat) (accuracy : Accuracy) :
    (ExtendedMantissa.ofMantissaAndAccuracy q accuracy).mantissa = q := by
  cases accuracy with
  | exact => rfl
  | inexact o => cases o <;> rfl

/-- A value is not beyond a bound: it is below it, or it is the bound with nothing cut off. -/
def Within (q : Nat) (accuracy : Accuracy) (bound : Nat) : Prop :=
  q < bound ∨ q = bound ∧ accuracy = .exact

/-- Rounding does not go beyond a bound that is not cut into. -/
theorem roundedMantissa_le {q c s : Nat} {accuracy : Accuracy}
    (h : Within q accuracy (c * pow2 s)) :
    ((ExtendedMantissa.ofMantissaAndAccuracy q accuracy) >>> s).roundedMantissa ≤ c := by
  rcases h with hlt | ⟨rfl, rfl⟩
  · refine Nat.le_trans (roundedMantissa_le_succ _) ?_
    rw [mantissa_shiftRight, mantissa_ofMantissaAndAccuracy]
    exact Nat.div_lt_of_lt_mul (by rwa [Nat.mul_comm])
  · change ((⟨c * pow2 s, false, false⟩ : ExtendedMantissa) >>> s).roundedMantissa ≤ c
    rw [shiftRight_mul_pow2]
    exact Nat.le_refl c

theorem log2_le {n k : Nat} (h : n < pow2 (k + 1)) : n.log2 ≤ k := by
  by_cases h0 : n = 0
  · rw [h0]
    exact Nat.zero_le k
  · exact Nat.le_of_lt_succ ((Nat.log2_lt h0).mpr h)

theorem bounded_dite {sign : Sign} {m : Nat} {e : Int} (h : e ≤ 971) :
    Bounded (if hm : m = 0 then .zero sign else .finite sign m e (Nat.pos_of_ne_zero hm)) := by
  by_cases hm : m = 0
  · rw [dif_pos hm]
    trivial
  · rw [dif_neg hm]
    exact h

theorem bounded_roundWithAccuracy {sign : Sign} {q s : Nat} {t : Int} {accuracy : Accuracy}
    (ht : t + s = 971) (h : Within q accuracy ((pow2 53 - 1) * pow2 s)) :
    Bounded (roundWithAccuracy .binary64 sign q t accuracy) := by
  have h53 : pow2 53 - 1 < pow2 53 := Nat.sub_lt (pow2_pos 53) Nat.one_pos
  have hlog : q.log2 ≤ 52 + s := by
    have hpow : pow2 (52 + s + 1) = pow2 53 * pow2 s := by
      rw [← pow2_add]
      congr 1
      omega
    refine log2_le ?_
    rw [hpow]
    refine Nat.lt_of_le_of_lt ?_ ((Nat.mul_lt_mul_right (pow2_pos s)).mpr h53)
    rcases h with h | h
    · exact Nat.le_of_lt h
    · exact Nat.le_of_eq h.1
  let first : Int := max (q.log2 + 1 + t - 53) (-1074)
  let k := (first - t).toNat
  have hfirst : t + k ≤ 971 := by omega
  let r := ((ExtendedMantissa.ofMantissaAndAccuracy q accuracy) >>> k).roundedMantissa
  have hr : (r.log2 : Int) + (t + k) ≤ 1023 := by
    by_cases hlast : t + k = 971
    · have hsame : k = s := by omega
      have hle : r ≤ pow2 53 - 1 := roundedMantissa_le (hsame ▸ h)
      have := log2_le (Nat.lt_of_le_of_lt hle h53)
      omega
    · have hle : r ≤ pow2 53 := by
        refine roundedMantissa_le (.inl (Nat.lt_of_lt_of_le (lt_pow2_log2 q) ?_))
        rw [← pow2_add]
        exact pow2_le (by omega)
      have := @log2_le r 53 (Nat.lt_of_le_of_lt hle (by decide))
      omega
  let second : Int := max (r.log2 + 1 + (t + k) - 53) (-1074)
  have hsecond : t + k + (second - (t + k)).toNat ≤ 971 := by omega
  unfold roundWithAccuracy
  exact bounded_dite hsecond

/-- A quotient that is not below the largest one for such a dividend and divisor is exact. -/
theorem div_eq_and_mod_eq_zero {a b c d : Nat} (ha : a ≤ c * d) (hb : d ≤ b) (h : c ≤ a / b) :
    a / b = c ∧ a % b = 0 := by
  have hdivision := Nat.div_add_mod a b
  have hproduct : c * d ≤ b * (a / b) := by
    rw [Nat.mul_comm b]
    exact Nat.mul_le_mul h hb
  have hle : a ≤ b * c := by
    rw [Nat.mul_comm b]
    exact Nat.le_trans ha (Nat.mul_le_mul_left c hb)
  exact ⟨Nat.le_antisymm (Nat.div_le_of_le_mul hle) h, by omega⟩

/-- Dividing by a significand that is not below one half of its range at a unit of at most 52 places
does not go beyond the largest double. -/
theorem bounded_div {s₁ s₂ : Sign} {m₁ m₂ : Nat} {e₁ e₂ : Int} (hm₁ : 0 < m₁) (hm₂ : 0 < m₂)
    (hlt : m₁ < pow2 53) (he₁ : e₁ ≤ 971) (hle : pow2 52 ≤ m₂) (he₂ : -52 ≤ e₂) :
    Bounded (UnpackedFloat.div .binary64 (.finite s₁ m₁ e₁ hm₁) (.finite s₂ m₂ e₂ hm₂)) := by
  have hlog₁ : m₁.log2 ≤ 52 := log2_le hlt
  have hlog₂ : 52 ≤ m₂.log2 := le_log2 hle
  let t : Int := min (e₁ - e₂)
    (Format.binary64.targetExponent (totalExponent m₁ e₁ - totalExponent m₂ e₂))
  have htarget : Format.binary64.targetExponent (totalExponent m₁ e₁ - totalExponent m₂ e₂) =
    max ((m₁.log2 + 1 + e₁) - (m₂.log2 + 1 + e₂) - 53) (-1074) := rfl
  let k := (e₁ - e₂ - t).toNat
  obtain ⟨s, hs⟩ : ∃ s : Nat, t + s = 971 := ⟨(971 - t).toNat, by omega⟩
  have hk : k ≤ 52 + s := by omega
  refine bounded_roundWithAccuracy hs ?_
  change Within ((m₁ <<< k) / m₂) (accuracyOfFraction ((m₁ <<< k) % m₂) m₂) _
  rw [Nat.shiftLeft_eq]
  change Within (m₁ * pow2 k / m₂) (accuracyOfFraction (m₁ * pow2 k % m₂) m₂) _
  rcases Nat.lt_or_ge (m₁ * pow2 k / m₂) ((pow2 53 - 1) * pow2 s) with hbelow | habove
  · exact .inl hbelow
  · have hdividend : m₁ * pow2 k ≤ (pow2 53 - 1) * pow2 s * pow2 52 := by
      rw [Nat.mul_assoc, ← pow2_add]
      exact Nat.mul_le_mul (Nat.le_sub_one_of_lt hlt) (pow2_le (by omega))
    obtain ⟨hquotient, hrest⟩ := div_eq_and_mod_eq_zero hdividend hle habove
    refine .inr ⟨hquotient, ?_⟩
    rw [hrest]
    rfl

theorem lt_of_unpack_eq_finite {b : BitVec 64} {sign : Sign} {m : Nat} {e : Int} {hm : 0 < m}
    (h : unpack .binary64 b = .finite sign m e hm) : m < pow2 53 := by
  by_cases hspecial : @unpackExponent .binary64 b = -1#11
  · rw [unpack_special hspecial] at h
    by_cases hmantissa : @unpackMantissa .binary64 b = 0#52
    · rw [if_pos hmantissa] at h
      cases h
    · rw [if_neg hmantissa] at h
      cases h
  · rcases unpack_cases hspecial with ⟨sign, hzero⟩ | ⟨sign, n, f, hn, hfinite, hlt, -⟩
    · rw [hzero] at h
      cases h
    · rw [hfinite] at h
      cases h
      exact hlt

theorem le_nearestBits_one {n : Nat} (h0 : n ≠ 0) : 1023 * pow2 52 ≤ nearestBits n 1 := by
  refine le_nearestBits h0 Nat.one_pos (by decide) (by decide) fun hunder => ?_
  change n * pow2 53 < pow2 53 * (1 * 1) at hunder
  have h53 : pow2 53 = 9007199254740992 := by decide
  rw [h53] at hunder
  omega

/-- A whole number other than zero is unpacked to a significand of 53 bits, at most 52 of which
stand behind the point. -/
theorem unpack_ofInt_bounds {n : Nat} (h0 : n ≠ 0) (h : n < overflow) :
    ∃ m e, ∃ hm : 0 < m, (ofInt n).toModel.unpack = .finite .positive m e hm ∧
      pow2 52 ≤ m ∧ -52 ≤ e := by
  have hhigh := @nearestBits_lt n 1 Nat.one_pos (by rwa [Nat.mul_one])
  have h52 : pow2 52 = 4503599627370496 := by decide
  have h53 : pow2 53 = pow2 52 + pow2 52 := by decide
  have hpos : 0 < pow2 52 := pow2_pos 52
  have hnat : (UInt64.ofNat (nearestBits n 1)).toNat = nearestBits n 1 := by
    rw [UInt64.toNat_ofNat']
    omega
  have hlow : 1023 ≤ nearestBits n 1 / pow2 52 :=
    (Nat.le_div_iff_mul_le hpos).mpr (le_nearestBits_one h0)
  have hbiased : nearestBits n 1 / pow2 52 < 2047 := (Nat.div_lt_iff_lt_mul hpos).mpr hhigh
  have hfraction : nearestBits n 1 % pow2 52 < pow2 52 := Nat.mod_lt _ hpos
  have hparts := Nat.div_add_mod' (nearestBits n 1) (pow2 52)
  have hexponent : (UInt64.ofNat (nearestBits n 1)).toNat / pow2 52 % 2048 ≠ 2047 := by
    rw [hnat]
    omega
  refine ⟨nearestBits n 1 % pow2 52 + pow2 52, (nearestBits n 1 / pow2 52 : Nat) - 1075,
    by omega, ?_, by omega, by omega⟩
  rw [ofInt_natCast]
  change unpack .binary64 (Float.ofBits _).toBits.toBitVec = _
  rw [toBits_ofBits hexponent]
  refine @unpack_normal _ (nearestBits n 1 / pow2 52) _ (by omega) ?_ (by omega) hbiased (by omega)
    (by omega) _ rfl
  change (UInt64.ofNat (nearestBits n 1)).toNat + _ = _
  omega

theorem isFinite_div_ofInt {x : Float} (hx : isFinite x = true) {n : Nat} (h0 : n ≠ 0)
    (h : n < overflow) : isFinite (x / ofInt n) = true := by
  have hbounded := bounded_of_isFinite hx
  obtain ⟨m, e, hm, hunpack, hle, he⟩ := unpack_ofInt_bounds h0 h
  apply isFinite_pack
  rw [hunpack]
  cases hcase : x.toModel.unpack with
  | zero sign => trivial
  | finite sign n f hn =>
    rw [hcase] at hbounded
    exact bounded_div hn hm (lt_of_unpack_eq_finite hcase) hbounded hle he
  | infinity sign =>
    rw [hcase] at hbounded
    cases hbounded
  | notANumber =>
    rw [hcase] at hbounded
    cases hbounded

end Funnel.Number
