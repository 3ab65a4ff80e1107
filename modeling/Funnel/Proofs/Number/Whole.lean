import Funnel.Number.Sum
import Funnel.Proofs.Number.Nearest
import Mathlib.Algebra.GroupWithZero.Nat

/-!
# Sums of whole doubles

A whole number below 2 ^ 53 is a double, and adding such doubles is exact as long as the sum is
below that bound too: the larger exponent gives way to the smaller one, and rounding only shifts
zeros out again.
-/

set_option autoImplicit false

namespace Funnel.Number

open Float.Model (Format UnpackedFloat totalExponent)
open Float.Model.UnpackedFloat

def spare (n : Nat) : Nat := 52 - n.log2

def unpackedWhole (n : Nat) : UnpackedFloat :=
  if h : n = 0 then .zero .positive
  else .finite .positive (n * pow2 (spare n)) (-(spare n : Int))
    (Nat.mul_pos (Nat.pos_of_ne_zero h) (pow2_pos _))

variable {n : Nat}

theorem log2_lt (h0 : n ≠ 0) (h : n < pow2 53) : n.log2 < 53 := (Nat.log2_lt h0).mpr h

theorem log2_mul_pow2 (h0 : n ≠ 0) (k : Nat) : (n * pow2 k).log2 = n.log2 + k := by
  have hne : n * pow2 k ≠ 0 := Nat.ne_of_gt (Nat.mul_pos (Nat.pos_of_ne_zero h0) (pow2_pos k))
  refine (Nat.log2_eq_iff hne).mpr ⟨?_, ?_⟩
  · change pow2 (n.log2 + k) ≤ _
    rw [pow2_add]
    exact Nat.mul_le_mul_right _ (pow2_log2_le h0)
  · change _ < pow2 (n.log2 + k + 1)
    rw [Nat.add_right_comm, pow2_add]
    exact (Nat.mul_lt_mul_right (pow2_pos k)).mpr (lt_pow2_log2 n)

theorem significand_bounds (h0 : n ≠ 0) (h : n < pow2 53) :
    pow2 52 ≤ n * pow2 (spare n) ∧ n * pow2 (spare n) < pow2 53 := by
  have hlog := log2_lt h0 h
  have hsum : n.log2 + spare n = 52 := by
    unfold spare
    omega
  have hne : n * pow2 (spare n) ≠ 0 :=
    Nat.ne_of_gt (Nat.mul_pos (Nat.pos_of_ne_zero h0) (pow2_pos _))
  exact (Nat.log2_eq_iff hne).mp ((log2_mul_pow2 h0 _).trans hsum)

theorem unitExponent_one (h0 : n ≠ 0) (h : n < pow2 53) :
    unitExponent n 1 = -(spare n : Int) := by
  have hlog := log2_lt h0 h
  have hone : Nat.log2 1 = 0 := by decide
  have hlow : ((n.log2 : Int) - (0 : Nat) - 53).toNat = 0 := by omega
  have hhigh : (-((n.log2 : Int) - (0 : Nat) - 53)).toNat = spare n + 1 := by
    unfold spare
    omega
  have hnot : ¬ n * pow2 (spare n + 1) < pow2 53 * (1 * pow2 0) := by
    have hbound := (significand_bounds h0 h).1
    rw [pow2_add, ← Nat.mul_assoc, pow2_zero, Nat.mul_one]
    exact Nat.not_lt.mpr (Nat.mul_le_mul_right (pow2 1) hbound)
  rw [unitExponent_eq_max, lastExponent]
  simp only [hone, hlow, hhigh, if_neg hnot]
  unfold spare
  omega

theorem nearestBits_one (h0 : n ≠ 0) (h : n < pow2 53) :
    nearestBits n 1 = (1074 - spare n) * pow2 52 + n * pow2 (spare n) := by
  have hbounds := significand_bounds h0 h
  have hexponent : (-(spare n : Int) + 1074).toNat = 1074 - spare n := by omega
  have hunit : (-(spare n : Int)).toNat = 0 := by omega
  have hplaces : (-(-(spare n : Int))).toNat = spare n := by omega
  have hwhole : roundHalfEven (n * pow2 (spare n)) (1 * pow2 0) = n * pow2 (spare n) := by
    have hsame := @roundHalfEven_of_dvd (n * pow2 (spare n)) 1 Nat.one_pos
    rwa [Nat.mul_one] at hsame
  have h53 : pow2 53 = 2 * pow2 52 := by decide
  have hfew : (1074 - spare n) * pow2 52 ≤ 1074 * pow2 52 :=
    Nat.mul_le_mul_right _ (Nat.sub_le _ _)
  have hlt : (1074 - spare n) * pow2 52 + n * pow2 (spare n) < 2047 * pow2 52 := by
    have := pow2_pos 52
    omega
  unfold nearestBits
  rw [if_neg h0]
  simp only [unitExponent_one h0 h, Ratio.num_ofScaled_one, Ratio.den_ofScaled_one, hexponent,
    hunit, hplaces, hwhole, if_pos hlt]

theorem toNat_unpackMantissa (b : BitVec 64) :
    (@unpackMantissa .binary64 b).toNat = b.toNat % pow2 52 := by
  change (b.extractLsb' 0 52).toNat = _
  rw [BitVec.extractLsb'_toNat, Nat.shiftRight_zero]
  rfl

theorem toNat_unpackExponent (b : BitVec 64) :
    (@unpackExponent .binary64 b).toNat = b.toNat / pow2 52 % 2048 := by
  change (b.extractLsb' 52 11).toNat = _
  rw [BitVec.extractLsb'_toNat, Nat.shiftRight_eq_div_pow]
  rfl

theorem toNat_unpackSign (b : BitVec 64) :
    (@unpackSign .binary64 b).toNat = b.toNat / pow2 63 % 2 := by
  change (b.extractLsb' 63 1).toNat = _
  rw [BitVec.extractLsb'_toNat, Nat.shiftRight_eq_div_pow]
  rfl

/-- Bits without a sign and with an exponent between the special ones are those of a number with a
significand of 53 bits. -/
theorem unpack_normal {b : BitVec 64} {biased m : Nat} (hm : 0 < m)
    (hb : b.toNat + pow2 52 = biased * pow2 52 + m) (hbiased : 0 < biased) (hlt : biased < 2047)
    (hle : pow2 52 ≤ m) (hm53 : m < pow2 53) {e : Int} (he : e = biased - 1075) :
    unpack .binary64 b = .finite .positive m e hm := by
  have h52 : pow2 52 = 4503599627370496 := by decide
  have h53 : pow2 53 = 9007199254740992 := by decide
  have h63 : pow2 63 = 9223372036854775808 := by decide
  rw [h52] at hb hle
  rw [h53] at hm53
  have hexponent : (@unpackExponent .binary64 b).toNat = biased := by
    rw [toNat_unpackExponent, h52]
    omega
  have hmantissa : pow2 52 + (@unpackMantissa .binary64 b).toNat = m := by
    rw [toNat_unpackMantissa, h52]
    omega
  have hsign : @unpackSign .binary64 b = 0#1 := by
    apply BitVec.eq_of_toNat_eq
    rw [toNat_unpackSign, h63]
    change _ = 0
    omega
  have hspecial : @unpackExponent .binary64 b ≠ -1#11 := by
    intro h
    rw [h] at hexponent
    have hones : (-1#11).toNat = 2047 := rfl
    omega
  have hnormal : @unpackExponent .binary64 b ≠ 0#11 := by
    intro h
    rw [h] at hexponent
    have hzeros : (0#11).toNat = 0 := rfl
    omega
  have hbias : (Format.binary64.exponentBias : Int) = 1023 := by decide
  delta unpack
  dsimp only
  rw [if_neg hspecial, if_neg hnormal, UnpackedFloat.finite.injEq]
  refine ⟨?_, ?_, ?_⟩
  · rw [hsign]
    rfl
  · exact (toNat_one_append _).trans hmantissa
  · rw [hexponent, hbias, he]
    omega

theorem nearestBits_lt_special (h : n < pow2 53) :
    nearestBits n 1 < 2047 * pow2 52 := by
  have h53 : pow2 53 < overflow := by decide +kernel
  exact nearestBits_lt Nat.one_pos (by omega)

theorem unpack_whole (h : n < pow2 53) :
    unpack .binary64 (UInt64.ofNat (nearestBits n 1)).toBitVec = unpackedWhole n := by
  by_cases h0 : n = 0
  · subst h0
    rw [unpackedWhole, dif_pos rfl]
    rfl
  · have hbits := nearestBits_one h0 h
    have hbounds := significand_bounds h0 h
    have hsmall := nearestBits_lt_special h
    have h52 : pow2 52 = 4503599627370496 := by decide
    have hnat : (UInt64.ofNat (nearestBits n 1)).toBitVec.toNat = nearestBits n 1 := by
      change (UInt64.ofNat (nearestBits n 1)).toNat = _
      rw [UInt64.toNat_ofNat']
      omega
    have hspare : spare n ≤ 52 := Nat.sub_le _ _
    rw [unpackedWhole, dif_neg h0]
    refine @unpack_normal _ (1075 - spare n) _ _ ?_ (by omega) (by omega) hbounds.1 hbounds.2 _
      (by omega)
    rw [hnat, hbits, h52]
    omega

theorem shiftRight_mul_pow2 (m k : Nat) :
    (⟨m * pow2 k, false, false⟩ : ExtendedMantissa) >>> k = ⟨m, false, false⟩ := by
  change Nat.repeat ExtendedMantissa.shiftRightOne k ⟨m * pow2 k, false, false⟩ = _
  induction k generalizing m with
  | zero => rw [pow2_zero, Nat.mul_one]; rfl
  | succ k ih =>
    have hdouble : m * pow2 (k + 1) = 2 * m * pow2 k := by
      rw [Nat.add_comm k, pow2_add, ← Nat.mul_assoc, Nat.mul_comm m]
      rfl
    rw [hdouble, Nat.repeat, ih (2 * m), ExtendedMantissa.shiftRightOne]
    simp

/-- However many zeros a whole number is followed by, its 53 bits end in the same place. -/
theorem targetExponent_mul_pow2 (h0 : n ≠ 0) (h : n < pow2 53) {k : Nat} {e : Int}
    (he : e = -(k : Int)) :
    Format.binary64.targetExponent (totalExponent (n * pow2 k) e) = -(spare n : Int) := by
  have hlog := log2_lt h0 h
  have hmin : Format.binary64.minExponent = -1074 := by decide
  have hbits : (Format.binary64.mantissaBits : Int) = 53 := by decide
  rw [Format.targetExponent, totalExponent, log2_mul_pow2 h0, hmin, hbits, he]
  unfold spare
  omega

theorem shiftToExponent_exact {m j : Nat} {e t : Int} (h : t = e + j) :
    shiftToExponent (m * pow2 j) e .exact t = (⟨m, false, false⟩, t) := by
  have hshift : (t - e).toNat = j := by omega
  rw [shiftToExponent, hshift]
  refine Prod.ext (shiftRight_mul_pow2 m j) ?_
  omega

theorem round_whole (h0 : n ≠ 0) (h : n < pow2 53) {k : Nat} (hk : spare n ≤ k) :
    UnpackedFloat.round .binary64 .positive (n * pow2 k) (-(k : Int)) = unpackedWhole n := by
  have hpos : n * pow2 (spare n) ≠ 0 :=
    Nat.ne_of_gt (Nat.mul_pos (Nat.pos_of_ne_zero h0) (pow2_pos _))
  have hsplit : n * pow2 k = n * pow2 (spare n) * pow2 (k - spare n) := by
    rw [Nat.mul_assoc, ← pow2_add]
    congr 2
    omega
  have htarget := targetExponent_mul_pow2 h0 h (k := k) rfl
  have hkeep : decreaseExponent (n * pow2 k) (-(k : Int)) (-(spare n : Int)) =
      (n * pow2 k, -(k : Int)) := by
    have hzero : (-(k : Int) - -(spare n : Int)).toNat = 0 := by omega
    simp only [decreaseExponent, hzero, Nat.shiftLeft_zero, Int.natCast_zero, Int.sub_zero]
  have hfirst : shiftToTargetExponent .binary64 (n * pow2 k) (-(k : Int)) .exact =
      (⟨n * pow2 (spare n), false, false⟩, -(spare n : Int)) := by
    rw [shiftToTargetExponent, htarget, hsplit]
    exact shiftToExponent_exact (by omega)
  have hsecond : shiftToTargetExponent .binary64 (n * pow2 (spare n)) (-(spare n : Int)) .exact =
      (⟨n * pow2 (spare n), false, false⟩, -(spare n : Int)) := by
    rw [shiftToTargetExponent, targetExponent_mul_pow2 h0 h rfl]
    have hsame := @shiftToExponent_exact (n * pow2 (spare n)) 0 (-(spare n : Int)) _ rfl
    simpa [pow2_zero] using hsame
  rw [UnpackedFloat.round]
  simp only [htarget, hkeep]
  rw [roundWithAccuracy, hfirst]
  have hrounded : ExtendedMantissa.roundedMantissa ⟨n * pow2 (spare n), false, false⟩ =
      n * pow2 (spare n) := rfl
  dsimp only
  rw [hrounded, hsecond, unpackedWhole, dif_neg h0]
  exact dif_neg hpos

theorem spare_anti {a b : Nat} (h0 : a ≠ 0) (h : a ≤ b) : spare b ≤ spare a := by
  have hlog : a.log2 ≤ b.log2 := by
    have hb : b ≠ 0 := by omega
    exact (Nat.le_log2 hb).mpr (Nat.le_trans (Nat.log2_self_le h0) h)
  unfold spare
  omega

theorem decreaseExponent_whole {k j : Nat} (h : j ≤ k) :
    (decreaseExponent (n * pow2 j) (-(j : Int)) (-(k : Int))).1 = n * pow2 k := by
  have hshift : (-(j : Int) - -(k : Int)).toNat = k - j := by omega
  have hsum : pow2 k = pow2 j * pow2 (k - j) := by
    rw [← pow2_add]
    congr 1
    omega
  rw [decreaseExponent, hshift, Nat.shiftLeft_eq, hsum, Nat.mul_assoc]
  rfl

theorem add_whole {a b : Nat} (h : a + b < pow2 53) :
    add .binary64 (unpackedWhole a) (unpackedWhole b) = unpackedWhole (a + b) := by
  by_cases ha : a = 0
  · subst ha
    rw [Nat.zero_add, unpackedWhole, dif_pos rfl, unpackedWhole]
    by_cases hb : b = 0
    · rw [dif_pos hb]
      rfl
    · rw [dif_neg hb]
      rfl
  by_cases hb : b = 0
  · subst hb
    rw [Nat.add_zero, unpackedWhole, dif_neg ha, unpackedWhole, dif_pos rfl]
    rfl
  let k := max (spare a) (spare b)
  have hexponent : min (-(spare a : Int)) (-(spare b : Int)) = -(k : Int) := by omega
  have hleft : (decreaseExponent (a * pow2 (spare a)) (-(spare a : Int)) (-(k : Int))).1 =
      a * pow2 k := decreaseExponent_whole (by omega)
  have hright : (decreaseExponent (b * pow2 (spare b)) (-(spare b : Int)) (-(k : Int))).1 =
      b * pow2 k := decreaseExponent_whole (by omega)
  have hsum : (a * pow2 k : Nat) + ((b * pow2 k : Nat) : Int) = ((a + b) * pow2 k : Nat) := by
    rw [Nat.add_mul, Int.natCast_add]
  have hpos : 0 < (a + b) * pow2 k := Nat.mul_pos (by omega) (pow2_pos k)
  have hround := @round_whole (a + b) (by omega) h k
    (Nat.le_trans (spare_anti ha (Nat.le_add_right a b)) (by omega))
  have hcompare : compare (((a + b) * pow2 k : Nat) : Int) 0 = .gt :=
    Int.compare_eq_gt.mpr (by omega)
  rw [unpackedWhole, dif_neg ha, unpackedWhole, dif_neg hb]
  change UnpackedFloat.normalize .binary64
    (((decreaseExponent (a * pow2 (spare a)) (-(spare a : Int))
        (min (-(spare a : Int)) (-(spare b : Int)))).1 : Nat) +
      ((decreaseExponent (b * pow2 (spare b)) (-(spare b : Int))
        (min (-(spare a : Int)) (-(spare b : Int)))).1 : Nat))
    (min (-(spare a : Int)) (-(spare b : Int))) .positive = _
  rw [hexponent, hleft, hright, hsum, UnpackedFloat.normalize, hcompare]
  exact hround

theorem ofInt_natCast (n : Nat) : ofInt n = Float.ofBits (UInt64.ofNat (nearestBits n 1)) := by
  have hsign : decide ((n : Int) < 0) = false := decide_eq_false (by omega)
  rw [ofInt, hsign, Int.natAbs_natCast]
  rfl

theorem exponent_whole (h : n < pow2 53) :
    (UInt64.ofNat (nearestBits n 1)).toNat / pow2 52 % 2048 ≠ 2047 := by
  have hsmall := nearestBits_lt_special h
  have h52 : pow2 52 = 4503599627370496 := by decide
  rw [h52] at hsmall ⊢
  rw [UInt64.toNat_ofNat']
  omega

theorem isFinite_ofInt (h : n < pow2 53) : isFinite (ofInt n) = true := by
  rw [ofInt_natCast]
  exact isFinite_ofBits (exponent_whole h)

theorem ofInt_eq_pack (h : n < pow2 53) : ofInt n = .ofModel (.pack (unpackedWhole n)) := by
  rw [ofInt_natCast, ← unpack_whole h]
  rfl

theorem unpack_ofInt (h : n < pow2 53) : (ofInt n).toModel.unpack = unpackedWhole n := by
  rw [ofInt_natCast, ← unpack_whole h]
  change unpack .binary64 (Float.ofBits _).toBits.toBitVec = _
  rw [toBits_ofBits (exponent_whole h)]

theorem ofInt_beq_zero (h0 : n ≠ 0) (h : n < pow2 53) : (ofInt n == 0) = false := by
  have hunpack := unpack_ofInt h
  rw [unpackedWhole, dif_neg h0] at hunpack
  change UnpackedFloat.beq (ofInt n).toModel.unpack (0 : Float).toModel.unpack = false
  rw [hunpack]
  rfl

theorem ofInt_add {a b : Nat} (h : a + b < pow2 53) : ofInt a + ofInt b = ofInt (a + b : Nat) := by
  have hleft := @unpack_ofInt a (by omega)
  have hright := @unpack_ofInt b (by omega)
  have hsum := ofInt_eq_pack h
  rw [← add_whole h, ← hleft, ← hright] at hsum
  exact hsum.symm

/-- Whole doubles that have a whole double as their sum are added exactly, one after another. -/
theorem plainSum_whole {ns : List Nat} (h : ns.sum < pow2 53) :
    plainSum (ns.map fun (n : Nat) => ofInt n) = ofInt ns.sum := by
  have hfrom : ∀ (ns : List Nat) (a : Nat), a + ns.sum < pow2 53 →
      (ns.map fun (n : Nat) => ofInt n).foldl (· + ·) (ofInt a) = ofInt (a + ns.sum : Nat) := by
    intro ns
    induction ns with
    | nil => intro a _; rfl
    | cons n ns ih =>
      intro a ha
      rw [List.sum_cons, ← Nat.add_assoc] at ha ⊢
      rw [List.map_cons, List.foldl_cons, ofInt_add (by omega)]
      exact ih (a + n) ha
  have hzero : (0.0 : Float) = ofInt (0 : Nat) := rfl
  have hsum := hfrom ns 0 (by omega)
  rw [Nat.zero_add] at hsum
  rw [plainSum, hzero]
  exact hsum

end Funnel.Number
