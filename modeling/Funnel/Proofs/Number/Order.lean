import Funnel.Proofs.Number.Whole
import Mathlib.Data.Prod.Lex

/-!
# Doubles that are numbers

Doubles other than not-a-number are in linear order, zeros of either sign counting as one. Finite
doubles stay numbers when they are multiplied, divided by a number other than zero, or made one
smaller.
-/

set_option autoImplicit false

namespace Funnel.Number

open Float.Model (Format)
open Float.Model.UnpackedFloat
open Float.Model (UnpackedFloat)

/-- A double that is a number, if only an infinite one. -/
def IsNumber (x : Float) : Prop := x.toModel.unpack ≠ .notANumber

/-- What is written as a finite double: its exponent is not beyond that of the largest one. -/
def Bounded : UnpackedFloat → Prop
  | .zero _ => True
  | .finite _ _ e _ => e ≤ 971
  | .infinity _ => False
  | .notANumber => False

theorem unpackExponent_ne_iff (b : BitVec 64) :
    @unpackExponent .binary64 b ≠ -1#11 ↔ b.toNat / pow2 52 % 2048 ≠ 2047 := by
  rw [← toNat_unpackExponent, Ne, Ne, not_iff_not]
  constructor
  · intro h
    rw [h]
    rfl
  · exact fun h => BitVec.eq_of_toNat_eq h

theorem isFinite_iff_unpackExponent (x : Float) :
    isFinite x = true ↔ @unpackExponent .binary64 x.toBits.toBitVec ≠ -1#11 := by
  rw [unpackExponent_ne_iff]
  change _ ↔ x.toBits.toNat / pow2 52 % 2048 ≠ 2047
  rw [isFinite, Reading.ofDouble, Reading.ofBits]
  by_cases hspecial : x.toBits.toNat / pow2 52 % 2048 = 2047
  · by_cases hfraction : x.toBits.toNat % pow2 52 = 0 <;> simp [hspecial, hfraction]
  · by_cases hzero : x.toBits.toNat / pow2 52 % 2048 = 0 <;> simp [hspecial, hzero]

theorem unpack_special {b : BitVec 64} (h : @unpackExponent .binary64 b = -1#11) :
    unpack .binary64 b = if @unpackMantissa .binary64 b = 0#52 then
      .infinity (.ofBitVec (@unpackSign .binary64 b)) else .notANumber := by
  delta unpack
  exact if_pos h

/-- Without the special exponent bits stand for zero, or for a significand of at most 53 bits with
an exponent that is not beyond that of the largest double. -/
theorem unpack_cases {b : BitVec 64} (h : @unpackExponent .binary64 b ≠ -1#11) :
    (∃ sign, unpack .binary64 b = .zero sign) ∨ ∃ sign m e, ∃ hm : 0 < m,
      unpack .binary64 b = .finite sign m e hm ∧ m < pow2 53 ∧ e ≤ 971 := by
  have hbiased : (@unpackExponent .binary64 b).toNat < 2047 := by
    have hne := (unpackExponent_ne_iff _).mp h
    rw [← toNat_unpackExponent] at hne
    have hlt : (@unpackExponent .binary64 b).toNat < 2048 := BitVec.isLt _
    omega
  have hfraction : (@unpackMantissa .binary64 b).toNat < pow2 52 := BitVec.isLt _
  have hone := toNat_one_append (@unpackMantissa .binary64 b)
  have hbias : (Format.binary64.exponentBias : Int) = 1023 := by decide
  have h53 : pow2 53 = pow2 52 + pow2 52 := by decide
  delta unpack
  dsimp only
  rw [if_neg h]
  by_cases hzero : @unpackExponent .binary64 b = 0#11
  · rw [if_pos hzero]
    by_cases hmantissa : @unpackMantissa .binary64 b = 0#52
    · rw [dif_pos hmantissa]
      exact .inl ⟨_, rfl⟩
    · rw [dif_neg hmantissa]
      refine .inr ⟨_, _, _, _, rfl, by omega, ?_⟩
      rw [hzero]
      decide
  · rw [if_neg hzero]
    refine .inr ⟨_, _, _, _, rfl, ?_, ?_⟩
    · rw [h53]
      exact hone ▸ Nat.add_lt_add_left hfraction _
    · rw [hbias]
      omega

theorem bounded_of_isFinite {x : Float} (h : isFinite x = true) : Bounded x.toModel.unpack := by
  change Bounded (unpack .binary64 x.toBits.toBitVec)
  rcases unpack_cases ((isFinite_iff_unpackExponent x).mp h) with
    ⟨sign, hzero⟩ | ⟨sign, m, e, hm, hfinite, -, he⟩
  · rw [hzero]
    trivial
  · rw [hfinite]
    exact he

theorem unpackExponent_pack_zero (sign : Sign) :
    @unpackExponent .binary64 (UnpackedFloat.pack .binary64 (.zero sign)) ≠ -1#11 := by
  change @unpackExponent .binary64 (packComponents .binary64 sign 0#11 0#52) ≠ _
  rw [unpackExponent_packComponents]
  decide

theorem unpackExponent_pack_finite (sign : Sign) {m : Nat} (hm : 0 < m) {e : Int} (he : e ≤ 971) :
    @unpackExponent .binary64 (UnpackedFloat.pack .binary64 (.finite sign m e hm)) ≠ -1#11 := by
  rw [pack_finite, if_neg (by omega)]
  split
  · rw [unpackExponent_packComponents]
    intro hones
    have hnat : (e + 1023 + 52).toNat % 2048 = 2047 := by
      have hvalue := congrArg BitVec.toNat hones
      rwa [BitVec.toNat_ofNat] at hvalue
    omega
  · rw [unpackExponent_packComponents]
    decide

theorem isFinite_pack {u : UnpackedFloat} (h : Bounded u) : isFinite ⟨.pack u⟩ = true := by
  refine (isFinite_iff_unpackExponent _).mpr ?_
  cases u with
  | zero sign => exact unpackExponent_pack_zero sign
  | finite sign m e hm => exact unpackExponent_pack_finite sign hm h
  | infinity sign => cases h
  | notANumber => cases h

theorem unpack_eq_notANumber {b : BitVec 64} (h : unpack .binary64 b = .notANumber) :
    @unpackExponent .binary64 b = -1#11 ∧ @unpackMantissa .binary64 b ≠ 0#52 := by
  by_cases hspecial : @unpackExponent .binary64 b = -1#11
  · refine ⟨hspecial, fun hmantissa => ?_⟩
    rw [unpack_special hspecial, if_pos hmantissa] at h
    cases h
  · rcases unpack_cases hspecial with ⟨sign, hzero⟩ | ⟨sign, m, e, hm, hfinite, -, -⟩
    · rw [hzero] at h
      cases h
    · rw [hfinite] at h
      cases h

theorem unpack_packedInfinity_ne (sign : Sign) :
    unpack .binary64 (packedInfinity .binary64 sign) ≠ .notANumber := by
  intro h
  refine (unpack_eq_notANumber h).2 ?_
  exact unpackMantissa_packComponents

theorem isNumber_pack {u : UnpackedFloat} (h : u ≠ .notANumber) : IsNumber ⟨.pack u⟩ := by
  change unpack .binary64 (UnpackedFloat.pack .binary64 u) ≠ .notANumber
  cases u with
  | notANumber => exact absurd rfl h
  | infinity sign => exact unpack_packedInfinity_ne sign
  | zero sign => exact fun hnot => unpackExponent_pack_zero sign (unpack_eq_notANumber hnot).1
  | finite sign m e hm =>
    by_cases he : e ≤ 971
    · exact fun hnot =>
        unpackExponent_pack_finite sign hm he (unpack_eq_notANumber hnot).1
    · rw [pack_finite, if_pos (by omega)]
      exact unpack_packedInfinity_ne sign

theorem isNumber_of_isFinite {x : Float} (h : isFinite x = true) : IsNumber x := by
  intro hnot
  have hbounded := bounded_of_isFinite h
  rw [hnot] at hbounded
  exact hbounded

theorem dite_ne {sign : Sign} {m : Nat} {e : Int} :
    (if hm : m = 0 then UnpackedFloat.zero sign
      else .finite sign m e (Nat.pos_of_ne_zero hm)) ≠ .notANumber := by
  by_cases hm : m = 0
  · rw [dif_pos hm]
    nofun
  · rw [dif_neg hm]
    nofun

theorem roundWithAccuracy_ne (sign : Sign) (m : Nat) (e : Int) (accuracy : Accuracy) :
    roundWithAccuracy .binary64 sign m e accuracy ≠ .notANumber := by
  unfold roundWithAccuracy
  exact dite_ne

theorem normalize_ne (m e : Int) (sign : Sign) :
    UnpackedFloat.normalize .binary64 m e sign ≠ .notANumber := by
  unfold UnpackedFloat.normalize
  split
  · exact roundWithAccuracy_ne _ _ _ _
  · nofun
  · exact roundWithAccuracy_ne _ _ _ _

variable {x y : Float}

theorem isNumber_mul (hx : isFinite x = true) (hy : isFinite y = true) : IsNumber (x * y) := by
  have hx := bounded_of_isFinite hx
  have hy := bounded_of_isFinite hy
  apply isNumber_pack
  generalize x.toModel.unpack = u at hx
  generalize y.toModel.unpack = v at hy
  cases u <;> cases v <;> first | contradiction | exact roundWithAccuracy_ne _ _ _ _ | nofun

theorem mul_zero_beq (hx : isFinite x = true) : (x * 0.0 == 0) = true := by
  have hx := bounded_of_isFinite hx
  have hproduct : ∃ sign, UnpackedFloat.mul .binary64 x.toModel.unpack (.zero .positive) =
      .zero sign := by
    generalize x.toModel.unpack = u at hx
    cases u with
    | zero sign => exact ⟨_, rfl⟩
    | finite sign m e hm => exact ⟨_, rfl⟩
    | infinity sign => cases hx
    | notANumber => cases hx
  obtain ⟨sign, hsign⟩ := hproduct
  have hpack : x * 0.0 = (⟨.pack (.zero sign)⟩ : Float) :=
    congrArg (fun u => (⟨.pack u⟩ : Float)) hsign
  rw [hpack]
  cases sign <;> decide

theorem isNumber_div (hx : isFinite x = true) (hy : IsNumber y) (h0 : (y == 0) = false) :
    IsNumber (x / y) := by
  have hx := bounded_of_isFinite hx
  change UnpackedFloat.beq y.toModel.unpack (0 : Float).toModel.unpack = false at h0
  unfold IsNumber at hy
  apply isNumber_pack
  generalize x.toModel.unpack = u at hx
  generalize y.toModel.unpack = v at hy h0
  cases u <;> cases v <;>
    first | contradiction | exact roundWithAccuracy_ne _ _ _ _ | nofun

theorem isNumber_sub_one (hx : IsNumber x) : IsNumber (x - 1) := by
  unfold IsNumber at hx
  apply isNumber_pack
  have hone : (1 : Float).toModel.unpack = unpackedWhole 1 := @unpack_ofInt 1 (by decide)
  rw [hone]
  generalize x.toModel.unpack = u at hx
  cases u with
  | notANumber => exact absurd rfl hx
  | finite sign m e hm => exact normalize_ne _ _ _
  | infinity sign => nofun
  | zero sign => nofun

/-- Where a number stands among all numbers: by its sign, and within a sign by its size. -/
def rank : UnpackedFloat → Int ×ₗ Int ×ₗ Int
  | .infinity .negative => toLex (-2, toLex (0, 0))
  | .finite .negative m e _ => toLex (-1, toLex (-e, -m))
  | .zero _ => toLex (0, toLex (0, 0))
  | .finite .positive m e _ => toLex (1, toLex (e, m))
  | .infinity .positive => toLex (2, toLex (0, 0))
  | .notANumber => toLex (0, toLex (0, 0))

theorem compare_neg (a b : Int) : compare (-a) (-b) = (compare a b).swap := by
  rcases lt_trichotomy a b with h | rfl | h
  · rw [Int.compare_eq_lt.mpr h, Int.compare_eq_gt.mpr (Int.neg_lt_neg h), Ordering.swap]
  · rw [Int.compare_eq_eq.mpr rfl, Int.compare_eq_eq.mpr rfl, Ordering.swap]
  · rw [Int.compare_eq_gt.mpr h, Int.compare_eq_lt.mpr (Int.neg_lt_neg h), Ordering.swap]

theorem compare_natCast (a b : Nat) : compare (a : Int) (b : Int) = compare a b := by
  simp only [compare, compareOfLessAndEq, Int.ofNat_lt, Int.natCast_inj]

theorem compare_rank {u v : UnpackedFloat} (hu : u ≠ .notANumber) (hv : v ≠ .notANumber) :
    u.compare v = some (compare (rank u) (rank v)) := by
  have hlex : ∀ a b c d e f : Int, compare (toLex (a, toLex (b, c))) (toLex (d, toLex (e, f))) =
      (compare a d).then ((compare b e).then (compare c f)) := fun _ _ _ _ _ _ => rfl
  cases u with
  | notANumber => exact absurd rfl hu
  | infinity s =>
    cases v with
    | notANumber => exact absurd rfl hv
    | infinity t => cases s <;> cases t <;> rfl
    | zero t => cases s <;> rfl
    | finite t m e hm => cases s <;> cases t <;> rfl
  | zero s =>
    cases v with
    | notANumber => exact absurd rfl hv
    | infinity t => cases t <;> rfl
    | zero t => rfl
    | finite t m e hm => cases t <;> rfl
  | finite s m e hm =>
    cases v with
    | notANumber => exact absurd rfl hv
    | infinity t => cases s <;> cases t <;> rfl
    | zero t => cases s <;> rfl
    | finite t n f hn =>
      cases s <;> cases t
      · have hswap : ((compare e f).then (compare m n)).swap =
            (compare (-e) (-f)).then (compare (-(m : Int)) (-(n : Int))) := by
          rw [compare_neg, compare_neg, compare_natCast, Ordering.swap_then]
        exact congrArg some hswap
      · rfl
      · rfl
      · have hsame : (compare e f).then (compare m n) =
            (compare e f).then (compare (m : Int) (n : Int)) := by rw [compare_natCast]
        exact congrArg some hsame

theorem lt_iff (hx : IsNumber x) (hy : IsNumber y) :
    x < y ↔ rank x.toModel.unpack < rank y.toModel.unpack := by
  have hlt : x < y ↔ (x.toModel.unpack.compare y.toModel.unpack == some .lt) = true :=
    decide_eq_true_iff
  rw [hlt, compare_rank hx hy, beq_iff_eq, Option.some.injEq, compare_lt_iff_lt]

theorem le_iff (hx : IsNumber x) (hy : IsNumber y) :
    x ≤ y ↔ rank x.toModel.unpack ≤ rank y.toModel.unpack := by
  have hle : x ≤ y ↔ (x.toModel.unpack.compare y.toModel.unpack).any (·.isLE) = true :=
    decide_eq_true_iff
  rw [hle, compare_rank hx hy, Option.any_some, Ordering.isLE_iff_ne_gt]
  exact compare_le_iff_le

/-- Entries that are compared by their places are sorted by them. -/
theorem pairwise_mergeSort_of_place {α β : Type} [LinearOrder β] {le : α → α → Bool}
    {place : α → β} {xs : List α}
    (h : ∀ a ∈ xs, ∀ b ∈ xs, le a b = decide (place a ≤ place b)) :
    (xs.mergeSort le).Pairwise fun a b => place a ≤ place b := by
  have hsame : xs.mergeSort le = xs.mergeSort fun a b => decide (place a ≤ place b) := by
    have hmap := @List.map_mergeSort _ _ le (fun a b => decide (place a ≤ place b)) id xs h
    rwa [List.map_id, List.map_id] at hmap
  have hsorted : (xs.mergeSort fun a b => decide (place a ≤ place b)).Pairwise
      fun a b => decide (place a ≤ place b) = true := by
    apply List.pairwise_mergeSort
    · intro a b c hab hbc
      exact decide_eq_true (le_trans (of_decide_eq_true hab) (of_decide_eq_true hbc))
    · intro a b
      rw [Bool.or_eq_true, decide_eq_true_eq, decide_eq_true_eq]
      exact le_total _ _
  rw [hsame]
  exact hsorted.imp of_decide_eq_true

/-- Numbers that are sorted by the larger one first are in falling order. -/
theorem pairwise_mergeSort_of_isNumber {α : Type} {key : α → Float} {xs : List α}
    (h : ∀ a ∈ xs, IsNumber (key a)) :
    (xs.mergeSort fun a b => !decide (key a < key b)).Pairwise fun a b => key b ≤ key a := by
  have hsorted := @pairwise_mergeSort_of_place _ _ _ (fun a b => !decide (key a < key b))
    (fun a => OrderDual.toDual (rank (key a).toModel.unpack)) xs fun a ha b hb => by
      rw [Bool.not_eq_eq_eq_not, ← decide_not, decide_eq_decide, OrderDual.toDual_le_toDual, not_le]
      exact lt_iff (h a ha) (h b hb)
  refine hsorted.imp_of_mem fun {a b} ha hb hle => ?_
  rw [List.mem_mergeSort] at ha hb
  exact (le_iff (h b hb) (h a ha)).mpr hle

end Funnel.Number
