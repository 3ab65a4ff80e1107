import Funnel.Number.Binary

/-!
# Bits of doubles

A double that is made of bits has those bits, unless they are those of an infinity or of no number.
-/

set_option autoImplicit false

namespace Funnel.Number

open Float.Model (Format)
open Float.Model.UnpackedFloat

theorem toBitVec_ofBitVec (v : BitVec 1) : (Sign.ofBitVec v).toBitVec = v := by
  revert v
  decide

theorem append_fields (b : BitVec 64) :
    (b.extractLsb' 63 1 ++ b.extractLsb' 52 11 ++ b.extractLsb' 0 52 : BitVec 64) = b := by
  apply BitVec.eq_of_getLsbD_eq
  intro i hi
  simp only [BitVec.getLsbD_append, BitVec.getLsbD_extractLsb']
  grind

theorem packComponents_unpack (b : BitVec 64) :
    packComponents .binary64 (.ofBitVec (@unpackSign .binary64 b)) (@unpackExponent .binary64 b)
      (@unpackMantissa .binary64 b) = b := by
  have hsign := toBitVec_ofBitVec (@unpackSign .binary64 b)
  change (Sign.ofBitVec (@unpackSign .binary64 b)).toBitVec ++ @unpackExponent .binary64 b ++
    @unpackMantissa .binary64 b = b
  rw [hsign]
  exact append_fields b

theorem toNat_one_append (mantissa : BitVec 52) :
    (1#1 ++ mantissa).toNat = pow2 52 + mantissa.toNat := by
  rw [BitVec.toNat_append, ← Nat.shiftLeft_add_eq_or_of_lt mantissa.isLt]
  rfl

theorem pack_finite (sign : Sign) {m : Nat} (hm : 0 < m) (e : Int) :
    pack .binary64 (.finite sign m e hm) =
      if 2048 ≤ (e + 1023 + 52).toNat + 1 then packedInfinity .binary64 sign
      else if m.log2 + 1 = 53 then
        packComponents .binary64 sign (BitVec.ofNat 11 (e + 1023 + 52).toNat) (BitVec.ofNat 52 m)
      else packComponents .binary64 sign 0 (BitVec.ofNat 52 m) := rfl

theorem pack_subnormal (sign : Sign) {m : Nat} (hm : 0 < m) (hlt : m < pow2 52) {e : Int}
    (he : e = -1074) :
    pack .binary64 (.finite sign m e hm) = packComponents .binary64 sign 0 (BitVec.ofNat 52 m) := by
  have hlog : m.log2 < 52 := (Nat.log2_lt (Nat.ne_of_gt hm)).mpr hlt
  rw [pack_finite, if_neg (by omega), if_neg (by omega)]

theorem pack_normal (sign : Sign) {m : Nat} (hm : 0 < m) (hle : pow2 52 ≤ m) (hlt : m < pow2 53)
    {e : Int} {biased : Nat} (he : e = biased - 1075) (hbiased : biased < 2047) :
    pack .binary64 (.finite sign m e hm) =
      packComponents .binary64 sign (BitVec.ofNat 11 biased) (BitVec.ofNat 52 m) := by
  have hlog : m.log2 = 52 := (Nat.log2_eq_iff (Nat.ne_of_gt hm)).mpr ⟨hle, hlt⟩
  have hexponent : (e + 1023 + 52).toNat = biased := by omega
  rw [pack_finite, if_neg (by omega), if_pos (by omega), hexponent]

/-- Reading bits and writing them again changes nothing, unless the exponent is the special one. -/
theorem pack_unpack {b : BitVec 64} (h : @unpackExponent .binary64 b ≠ -1#11) :
    pack .binary64 (unpack .binary64 b) = b := by
  have hparts := packComponents_unpack b
  have hmantissa : (@unpackMantissa .binary64 b).toNat < pow2 52 := BitVec.isLt _
  have hbias : (Format.binary64.exponentBias : Int) = 1023 := by decide
  delta unpack
  dsimp only
  rw [if_neg h]
  by_cases hexponent : @unpackExponent .binary64 b = 0#11
  · rw [if_pos hexponent]
    rw [hexponent] at hparts
    by_cases hzero : @unpackMantissa .binary64 b = 0#52
    · rw [dif_pos hzero]
      rw [hzero] at hparts
      exact hparts
    · rw [dif_neg hzero, pack_subnormal _ _ hmantissa, BitVec.ofNat_toNat, BitVec.setWidth_eq]
      · exact hparts
      · rw [hexponent]
        decide
  · rw [if_neg hexponent]
    have hbiased : (@unpackExponent .binary64 b).toNat < 2047 := by
      have hlt : (@unpackExponent .binary64 b).toNat < 2048 := BitVec.isLt _
      have hne : (@unpackExponent .binary64 b).toNat ≠ 2047 := fun heq =>
        h (BitVec.eq_of_toNat_eq heq)
      omega
    have hone := toNat_one_append (@unpackMantissa .binary64 b)
    have hlow : BitVec.ofNat 52 (1#1 ++ @unpackMantissa .binary64 b).toNat =
        @unpackMantissa .binary64 b := by
      apply BitVec.eq_of_toNat_eq
      rw [hone, BitVec.toNat_ofNat]
      have h52 : pow2 52 = 4503599627370496 := by decide
      omega
    have hhigh : BitVec.ofNat 11 (@unpackExponent .binary64 b).toNat =
        @unpackExponent .binary64 b := by
      rw [BitVec.ofNat_toNat, BitVec.setWidth_eq]
    refine (pack_normal _ _ (hone ▸ Nat.le_add_right _ _)
      (hone ▸ Nat.add_lt_add_left hmantissa _) ?_ hbiased).trans ?_
    · rw [hbias]
      omega
    · rw [hhigh]
      exact (congrArg (packComponents .binary64 _ _) hlow).trans hparts

theorem toBits_ofBits {u : UInt64} (h : u.toNat / pow2 52 % 2048 ≠ 2047) :
    (Float.ofBits u).toBits = u := by
  have hexponent : @unpackExponent .binary64 u.toBitVec ≠ -1#11 := by
    intro heq
    have hbits : (u.toBitVec.extractLsb' 52 11).toNat = 2047 := congrArg BitVec.toNat heq
    rw [BitVec.extractLsb'_toNat, Nat.shiftRight_eq_div_pow] at hbits
    exact h hbits
  exact congrArg UInt64.ofBitVec (pack_unpack hexponent)

/-- What finite bits stand for: a significand of at most 53 bits, and an exponent between those of
the smallest and the largest doubles. -/
theorem Reading.bounds_of_ofBits {bits : Nat} {negative : Bool} {significand : Nat}
    {exponent : Int} (h : ofBits bits = .finite negative significand exponent) :
    significand < pow2 53 ∧ -1074 ≤ exponent ∧ exponent ≤ 971 := by
  have h53 : pow2 53 = pow2 52 + pow2 52 := by decide
  have hfraction : bits % pow2 52 < pow2 52 := Nat.mod_lt _ (pow2_pos 52)
  unfold ofBits at h
  simp only at h
  split at h
  · split at h <;> cases h
  · rename_i hspecial
    split at h
    · cases h
      exact ⟨by omega, by decide, by decide⟩
    · cases h
      omega

theorem isFinite_ofBits {u : UInt64} (h : u.toNat / pow2 52 % 2048 ≠ 2047) :
    isFinite (Float.ofBits u) = true := by
  rw [isFinite, Reading.ofDouble, toBits_ofBits h, Reading.ofBits]
  simp only [if_neg h]
  by_cases hzero : u.toNat / pow2 52 % 2048 = 0
  · rw [if_pos hzero]
  · rw [if_neg hzero]

end Funnel.Number
