import Funnel.Number.Sum
import Funnel.Proofs.Number.Order

/-!
# Doubles without a sign

Doubles that are not below zero, the zero without a sign among them, are told apart by their order,
so there is one way to sort them, and no sum of some of them is beyond the sum of all. Their median
and their exactly rounded sum therefore do not depend on the order in which they come.
-/

set_option autoImplicit false

namespace Funnel.Number

open Float.Model (Format UnpackedFloat)
open Float.Model.UnpackedFloat

theorem pack_unpack_toBits (x : Float) :
    UnpackedFloat.pack .binary64 x.toModel.unpack = x.toBits.toBitVec := by
  by_cases hspecial : @unpackExponent .binary64 x.toBits.toBitVec = -1#11
  · have hunpack := unpack_special hspecial
    by_cases hmantissa : @unpackMantissa .binary64 x.toBits.toBitVec = 0#52
    · have hparts := packComponents_unpack x.toBits.toBitVec
      rw [hspecial, hmantissa] at hparts
      rw [if_pos hmantissa] at hunpack
      exact (congrArg _ hunpack).trans hparts
    · rw [if_neg hmantissa] at hunpack
      exact (congrArg _ hunpack).trans (x.toModel.valid.eq_packedNaN hspecial hmantissa).symm
  · exact pack_unpack hspecial

/-- A double is known from what it is unpacked to. -/
theorem eq_of_unpack_eq {x y : Float} (h : x.toModel.unpack = y.toModel.unpack) : x = y := by
  have hbits : x.toBits = y.toBits := UInt64.toBitVec_inj.mp
    ((pack_unpack_toBits x).symm.trans ((congrArg _ h).trans (pack_unpack_toBits y)))
  rcases x with ⟨⟨_, _⟩⟩
  rcases y with ⟨⟨_, _⟩⟩
  cases hbits
  rfl

def signOf : UnpackedFloat → Sign
  | .infinity sign => sign
  | .zero sign => sign
  | .finite sign _ _ _ => sign
  | .notANumber => .positive

theorem signOf_unpack {b : BitVec 64} (h : unpack .binary64 b ≠ .notANumber) :
    signOf (unpack .binary64 b) = .ofBitVec (@unpackSign .binary64 b) := by
  by_cases hspecial : @unpackExponent .binary64 b = -1#11
  · rw [unpack_special hspecial] at h ⊢
    by_cases hmantissa : @unpackMantissa .binary64 b = 0#52
    · rw [if_pos hmantissa]
      rfl
    · rw [if_neg hmantissa] at h
      exact absurd rfl h
  · delta unpack
    dsimp only
    rw [if_neg hspecial]
    by_cases hzero : @unpackExponent .binary64 b = 0#11
    · rw [if_pos hzero]
      by_cases hmantissa : @unpackMantissa .binary64 b = 0#52
      · rw [dif_pos hmantissa]
        rfl
      · rw [dif_neg hmantissa]
        rfl
    · rw [if_neg hzero]
      rfl

theorem signOf_double {x : Float} (h : IsNumber x) : signOf x.toModel.unpack =
    if x.toBits.toNat / pow2 63 % 2 = 0 then .positive else .negative := by
  have hnat := toNat_unpackSign x.toBits.toBitVec
  refine (signOf_unpack h).trans ?_
  change Sign.ofBitVec (@unpackSign .binary64 x.toBits.toBitVec) = _
  change _ = x.toBits.toNat / pow2 63 % 2 at hnat
  rw [← hnat]
  have hbit : ∀ v : BitVec 1, v = 0#1 ∨ v = 1#1 := by decide
  rcases hbit (@unpackSign .binary64 x.toBits.toBitVec) with hv | hv
  · rw [hv]
    rfl
  · rw [hv]
    rfl

theorem lt_zero_of_signOf {x : Float} (h : IsNumber x)
    (hsign : signOf x.toModel.unpack = .negative) (hzero : x.toBits.toNat ≠ pow2 63) : x < 0 := by
  have hpack := congrArg BitVec.toNat (pack_unpack_toBits x)
  have hlt : x < 0 ↔ (x.toModel.unpack.compare (.zero .positive) == some .lt) = true :=
    decide_eq_true_iff
  rw [hlt]
  unfold IsNumber at h
  generalize x.toModel.unpack = u at *
  cases u with
  | notANumber => exact absurd rfl h
  | infinity sign =>
    cases hsign
    rfl
  | finite sign m e hm =>
    cases hsign
    rfl
  | zero sign =>
    cases hsign
    exact absurd hpack.symm hzero

theorem eq_of_rank_eq {u v : UnpackedFloat} (hu : u ≠ .notANumber) (hv : v ≠ .notANumber)
    (hsu : signOf u = .positive) (hsv : signOf v = .positive) (h : rank u = rank v) : u = v := by
  have hkind : (ofLex (rank u)).1 = (ofLex (rank v)).1 := congrArg (fun r => (ofLex r).1) h
  have hsize : (ofLex (rank u)).2 = (ofLex (rank v)).2 := congrArg (fun r => (ofLex r).2) h
  cases u with
  | notANumber => exact absurd rfl hu
  | infinity s =>
    cases hsu
    cases v with
    | notANumber => exact absurd rfl hv
    | infinity t =>
      cases hsv
      rfl
    | zero t => exact absurd hkind (show (2 : Int) ≠ 0 by decide)
    | finite t n f hn =>
      cases hsv
      exact absurd hkind (show (2 : Int) ≠ 1 by decide)
  | zero s =>
    cases hsu
    cases v with
    | notANumber => exact absurd rfl hv
    | infinity t =>
      cases hsv
      exact absurd hkind (show (0 : Int) ≠ 2 by decide)
    | zero t =>
      cases hsv
      rfl
    | finite t n f hn =>
      cases hsv
      exact absurd hkind (show (0 : Int) ≠ 1 by decide)
  | finite s m e hm =>
    cases hsu
    cases v with
    | notANumber => exact absurd rfl hv
    | infinity t =>
      cases hsv
      exact absurd hkind (show (1 : Int) ≠ 2 by decide)
    | zero t => exact absurd hkind (show (1 : Int) ≠ 0 by decide)
    | finite t n f hn =>
      cases hsv
      have hexponent : e = f := congrArg (fun r => (ofLex r).1) hsize
      have hmantissa : (m : Int) = n := congrArg (fun r => (ofLex r).2) hsize
      cases hexponent
      cases Int.natCast_inj.mp hmantissa
      rfl

/-- The bits come up to those of infinity at most, so that there is no sign among them. -/
def IsUnsigned (x : Float) : Prop := x.toBits.toNat ≤ 2047 * pow2 52

namespace IsUnsigned

variable {x y : Float}

theorem isNumber (h : IsUnsigned x) : IsNumber x := by
  intro hnot
  obtain ⟨hspecial, hmantissa⟩ := unpack_eq_notANumber hnot
  have hexponent := toNat_unpackExponent x.toBits.toBitVec
  refine hmantissa (BitVec.eq_of_toNat_eq ((toNat_unpackMantissa _).trans ?_))
  replace hexponent := hexponent.symm.trans (congrArg BitVec.toNat hspecial)
  change x.toBits.toNat / pow2 52 % 2048 = 2047 at hexponent
  change x.toBits.toNat % pow2 52 = 0
  have h52 : pow2 52 = 4503599627370496 := by decide
  rw [IsUnsigned, h52] at h
  rw [h52] at hexponent ⊢
  omega

theorem div_eq_zero (h : IsUnsigned x) : x.toBits.toNat / pow2 63 = 0 :=
  Nat.div_eq_of_lt (Nat.lt_of_le_of_lt h (by decide))

theorem signOf_eq (h : IsUnsigned x) : signOf x.toModel.unpack = .positive := by
  rw [signOf_double h.isNumber, h.div_eq_zero]
  rfl

theorem eq_of_le_of_le (hx : IsUnsigned x) (hy : IsUnsigned y) (hxy : x ≤ y) (hyx : y ≤ x) :
    x = y := by
  apply eq_of_unpack_eq
  apply eq_of_rank_eq hx.isNumber hy.isNumber hx.signOf_eq hy.signOf_eq
  exact le_antisymm ((le_iff hx.isNumber hy.isNumber).mp hxy)
    ((le_iff hy.isNumber hx.isNumber).mp hyx)

theorem unitsOfDouble_nonneg (h : IsUnsigned x) : 0 ≤ unitsOfDouble x := by
  have hsign : (x.toBits.toNat / pow2 63 % 2 == 1) = false := by
    rw [h.div_eq_zero]
    rfl
  have hreading : ∀ {negative significand exponent},
      Reading.ofDouble x = .finite negative significand exponent → negative = false := by
    intro negative significand exponent hreads
    simp only [Reading.ofDouble, Reading.ofBits, hsign] at hreads
    grind
  unfold unitsOfDouble
  split
  · rename_i negative significand exponent hreads
    rw [hreading hreads]
    exact Int.natCast_nonneg _
  · exact Int.le_refl _

end IsUnsigned

theorem nearestBits_le (num den : Nat) : nearestBits num den ≤ 2047 * pow2 52 := by
  unfold nearestBits
  split
  · exact Nat.zero_le _
  · dsimp only
    split
    · exact Nat.le_of_lt ‹_›
    · exact Nat.le_refl _

theorem isUnsigned_nearest (num den : Nat) : IsUnsigned (nearest false num den) := by
  have hle := nearestBits_le num den
  change IsUnsigned (Float.ofBits (UInt64.ofNat (nearestBits num den)))
  rcases Nat.lt_or_eq_of_le hle with hlt | heq
  · have h52 : pow2 52 = 4503599627370496 := by decide
    rw [h52] at hlt
    have hnat : (UInt64.ofNat (nearestBits num den)).toNat = nearestBits num den := by
      rw [UInt64.toNat_ofNat']
      omega
    rw [IsUnsigned, toBits_ofBits, hnat]
    · exact hle
    · rw [hnat, h52]
      omega
  · rw [heq, IsUnsigned]
    decide

/-- What is rounded to a double other than zero is below zero if it has a sign. -/
theorem nearest_lt_zero {num den : Nat} (h : nearestBits num den ≠ 0) :
    nearest true num den < 0 := by
  have hle := nearestBits_le num den
  change Float.ofBits (UInt64.ofNat (nearestBits num den + pow2 63)) < 0
  rcases Nat.lt_or_eq_of_le hle with hlt | heq
  · have h52 : pow2 52 = 4503599627370496 := by decide
    have h63 : pow2 63 = 9223372036854775808 := by decide
    rw [h52] at hlt
    generalize hu : UInt64.ofNat (nearestBits num den + pow2 63) = u
    have hnat : u.toNat = nearestBits num den + pow2 63 := by
      rw [← hu, UInt64.toNat_ofNat', h63]
      omega
    have hspecial : u.toNat / pow2 52 % 2048 ≠ 2047 := by
      rw [hnat, h52, h63]
      omega
    have hnumber := isNumber_of_isFinite (isFinite_ofBits hspecial)
    have hbits := congrArg UInt64.toNat (toBits_ofBits hspecial)
    refine lt_zero_of_signOf hnumber ?_ ?_
    · rw [signOf_double hnumber, hbits, hnat, h63]
      exact if_neg (by omega)
    · omega
  · rw [heq]
    decide

variable {xs ys : List Float}

theorem totalUnits_nonneg (h : ∀ x ∈ xs, IsUnsigned x) : 0 ≤ totalUnits xs := by
  induction xs with
  | nil => exact Int.le_refl 0
  | cons x xs ih =>
    rw [List.forall_mem_cons] at h
    exact Int.add_nonneg h.1.unitsOfDouble_nonneg (ih h.2)

/-- No running sum is beyond the largest double if the whole sum is not. -/
theorem all_runningUnits_iff {total : Int} (h0 : 0 ≤ total)
    (htotal : isFinite (doubleOfUnits total) = true) (h : ∀ x ∈ xs, IsUnsigned x) :
    ((runningUnits total xs).all fun n => isFinite (doubleOfUnits n)) = true ↔
      isFinite (doubleOfUnits (total + totalUnits xs)) = true := by
  induction xs generalizing total with
  | nil =>
    rw [totalUnits, Int.add_zero, htotal]
    exact ⟨fun _ => rfl, fun _ => rfl⟩
  | cons x xs ih =>
    rw [List.forall_mem_cons] at h
    have hx := h.1.unitsOfDouble_nonneg
    rw [runningUnits, List.all_cons, Bool.and_eq_true, totalUnits, ← Int.add_assoc]
    constructor
    · rintro ⟨hnext, hrest⟩
      exact (ih (by omega) hnext h.2).mp hrest
    · intro hwhole
      have hrest := totalUnits_nonneg h.2
      have hnext : isFinite (doubleOfUnits (total + unitsOfDouble x)) = true := by
        rw [isFinite_doubleOfUnits_iff] at hwhole ⊢
        omega
      exact ⟨hnext, (ih (by omega) hnext h.2).mpr hwhole⟩

theorem exactSum?_eq (h : ∀ x ∈ xs, IsUnsigned x) : exactSum? xs =
    if isFinite (doubleOfUnits (totalUnits xs)) then some (doubleOfUnits (totalUnits xs))
    else none := by
  have hzero : isFinite (doubleOfUnits 0) = true := by decide
  refine if_congr ((all_runningUnits_iff (Int.le_refl 0) hzero h).trans ?_) rfl rfl
  rw [Int.zero_add]

theorem exactSum?_perm (hperm : xs.Perm ys) (h : ∀ x ∈ xs, IsUnsigned x) :
    exactSum? xs = exactSum? ys := by
  rw [exactSum?_eq h, exactSum?_eq fun y hy => h y (hperm.mem_iff.mpr hy), totalUnits_perm hperm]

theorem pairwise_mergeSort_of_isUnsigned (h : ∀ x ∈ xs, IsUnsigned x) :
    (xs.mergeSort fun a b => decide (a ≤ b)).Pairwise fun a b => a ≤ b := by
  have hsorted := @pairwise_mergeSort_of_place _ _ _ (fun a b => decide (a ≤ b))
    (fun x : Float => rank x.toModel.unpack) xs fun a ha b hb => by
      rw [decide_eq_decide]
      exact le_iff (h a ha).isNumber (h b hb).isNumber
  refine hsorted.imp_of_mem fun {a b} ha hb hle => ?_
  rw [List.mem_mergeSort] at ha hb
  exact (le_iff (h a ha).isNumber (h b hb).isNumber).mpr hle

theorem mergeSort_eq_of_perm (hperm : xs.Perm ys) (h : ∀ x ∈ xs, IsUnsigned x) :
    (xs.mergeSort fun a b => decide (a ≤ b)) = ys.mergeSort fun a b => decide (a ≤ b) := by
  have hys : ∀ y ∈ ys, IsUnsigned y := fun y hy => h y (hperm.mem_iff.mpr hy)
  have hsorts := (List.mergeSort_perm xs fun a b => decide (a ≤ b)).trans
    (hperm.trans (List.mergeSort_perm ys fun a b => decide (a ≤ b)).symm)
  refine List.Perm.eq_of_pairwise (fun a b ha hb hab hba => ?_)
    (pairwise_mergeSort_of_isUnsigned h) (pairwise_mergeSort_of_isUnsigned hys) hsorts
  rw [List.mem_mergeSort] at ha hb
  exact (h a ha).eq_of_le_of_le (hys b hb) hab hba

theorem median_perm (hperm : xs.Perm ys) (h : ∀ x ∈ xs, IsUnsigned x) :
    median xs = median ys := by
  unfold median
  rw [mergeSort_eq_of_perm hperm h]

end Funnel.Number
