import Funnel.Proofs.Number.Units

/-!
# Floored division of whole doubles

What the floored division of a whole double leaves is exact. The quotient is rounded twice before
it is floored, which does no harm as long as both errors together stay below half of one: below
2 ^ 53 there are none, and below 2 ^ 63 they do for a divisor of 3600 or more.
-/

set_option autoImplicit false

namespace Funnel.Number

variable {n k : Nat}

theorem unitsOfOne_eq : unitsOfOne = (oneUnits : Int) := rfl

theorem doubleOfUnits_natCast (n : Nat) : doubleOfUnits n = nearest false n oneUnits := by
  have hsign : decide ((n : Int) < 0) = false := decide_eq_false (by omega)
  rw [doubleOfUnits, hsign, Int.natAbs_natCast]

def IsWhole (x : Float) (n : Nat) : Prop :=
  isFinite x = true ∧ unitsOfDouble x = (n * oneUnits : Nat)

theorem isWhole_doubleOfUnits (h : n < pow2 53) :
    IsWhole (doubleOfUnits (n * oneUnits : Nat)) n := by
  have h53 : pow2 53 < overflow := by decide +kernel
  have hlt : n * oneUnits < overflow * oneUnits :=
    (Nat.mul_lt_mul_right oneUnits_pos).mpr (Nat.lt_trans h h53)
  rw [doubleOfUnits_natCast]
  refine ⟨isFinite_nearest oneUnits_pos hlt false, ?_⟩
  rw [unitsOfDouble_nearest oneUnits_pos hlt, nearestUnits_whole h oneUnits_pos]
  rfl

theorem isWhole_of_toInt? {x : Float} (h : toInt? x = some (n : Int)) : IsWhole x n :=
  let ⟨hx, hunits⟩ := unitsOfDouble_of_toInt? h
  ⟨hx, hunits.trans (Int.natCast_mul n oneUnits).symm⟩

theorem truncate?_of_isWhole {x : Float} (h : IsWhole x n) : truncate? x = some (n : Int) := by
  obtain ⟨hx, hunits⟩ := h
  rw [truncate?_of_nonneg hx (hunits ▸ Int.natCast_nonneg _), hunits, ← Int.natCast_ediv,
    Nat.mul_div_cancel n oneUnits_pos]

theorem roundedUnits_natCast {t : Nat} (h : t < overflow * oneUnits) :
    roundedUnits t = nearestUnits t oneUnits := by
  rw [roundedUnits, doubleOfUnits_natCast, unitsOfDouble_nearest oneUnits_pos h]
  rfl

theorem quotientUnits_natCast {t d : Nat} (hd : 0 < d) (h : t < overflow * d) :
    quotientUnits t d = nearestUnits t d := by
  have hsign : decide ((t : Int) < 0) = false := decide_eq_false (by omega)
  rw [quotientUnits, hsign, Int.natAbs_natCast, Int.natAbs_natCast, unitsOfDouble_nearest hd h]
  rfl

/-- Rounding is off by half of the last bit of the next power of two at most. -/
theorem nearestUnits_near {num den j : Nat} (hden : 0 < den) (h : num < pow2 j * den) :
    2 * (num * oneUnits) ≤ 2 * (nearestUnits num den * den) + den * pow2 (j + 1021) ∧
      2 * (nearestUnits num den * den) ≤ 2 * (num * oneUnits) + den * pow2 (j + 1021) := by
  by_cases hnum : num = 0
  · rw [hnum, nearestUnits_zero]
    constructor <;> omega
  have hhigh := unitExponent_le hnum h
  have hlast : pow2 (lastPlace num den) ≤ pow2 (j + 1021) := by
    refine pow2_le ?_
    unfold lastPlace
    omega
  have hscaled := Nat.mul_le_mul_left den hlast
  obtain ⟨hleft, hright⟩ := @nearestUnits_bounds num den hden
  constructor <;> omega

/-- The part of a number of units below one, rounded. -/
theorem nearestUnits_rest_bounds (q : Nat) :
    2 * (q % oneUnits) ≤ 2 * nearestUnits (q % oneUnits) oneUnits + pow2 1021 ∧
      2 * nearestUnits (q % oneUnits) oneUnits ≤ 2 * (q % oneUnits) + pow2 1021 := by
  have hpos := oneUnits_pos
  have hlt : q % oneUnits < pow2 0 * oneUnits := by
    rw [pow2_zero, Nat.one_mul]
    exact Nat.mod_lt q hpos
  obtain ⟨hleft, hright⟩ := nearestUnits_near hpos hlt
  rw [Nat.zero_add] at hleft hright
  generalize oneUnits = one at *
  generalize q % one = rest at *
  generalize nearestUnits rest one = rounded at *
  generalize pow2 1021 = last at *
  constructor
  · refine Nat.le_of_mul_le_mul_right ?_ hpos
    calc 2 * rest * one = 2 * (rest * one) := by ring
      _ ≤ 2 * (rounded * one) + one * last := hleft
      _ = (2 * rounded + last) * one := by ring
  · refine Nat.le_of_mul_le_mul_right ?_ hpos
    calc 2 * rounded * one = 2 * (rounded * one) := by ring
      _ ≤ 2 * (rest * one) + one * last := hright
      _ = (2 * rest + last) * one := by ring

theorem floorUnits_natCast (q : Nat) : floorUnits q =
    (if oneUnits < 2 * nearestUnits (q % oneUnits) oneUnits then q / oneUnits * oneUnits + oneUnits
      else q / oneUnits * oneUnits : Nat) := by
  have hrest : q % oneUnits < overflow * oneUnits := by
    have hone : 1 ≤ overflow := by decide +kernel
    exact Nat.lt_of_lt_of_le (Nat.mod_lt q oneUnits_pos) (Nat.le_mul_of_pos_left _ hone)
  have hmod : (q : Int) % (oneUnits : Int) = (q % oneUnits : Nat) :=
    (Int.natCast_emod q oneUnits).symm
  have hwhole : (q : Int) - (q % oneUnits : Nat) = (q / oneUnits * oneUnits : Nat) := by
    have := Nat.div_add_mod' q oneUnits
    omega
  have hback : (q : Int) - (q / oneUnits * oneUnits : Nat) = (q % oneUnits : Nat) := by omega
  have hiff : (oneUnits : Int) < 2 * (nearestUnits (q % oneUnits) oneUnits : Nat) ↔
      oneUnits < 2 * nearestUnits (q % oneUnits) oneUnits := by
    generalize oneUnits = one
    omega
  rw [floorUnits, unitsOfOne_eq, hmod]
  simp only [hwhole, hback, roundedUnits_natCast hrest, hiff]
  split
  · exact (Int.natCast_add _ _).symm
  · rfl

/-- A quotient that is rounded by less than half of one is floored to the whole number that it
stands for. -/
theorem floorUnits_near {q h : Nat} (hlow : 5 * (h * oneUnits) ≤ 5 * q + 2 * oneUnits)
    (hhigh : 5 * q ≤ 5 * (h * oneUnits) + 2 * oneUnits) : floorUnits q = (h * oneUnits : Nat) := by
  have hbounds := nearestUnits_rest_bounds q
  have hpos := oneUnits_pos
  have hone : oneUnits = pow2 53 * pow2 1021 := pow2_add 53 1021
  have h53 : pow2 53 = 9007199254740992 := by decide
  have hlast : 0 < pow2 1021 := pow2_pos 1021
  rw [h53] at hone
  rw [floorUnits_natCast]
  have hdm := Nat.div_add_mod' q oneUnits
  have hmod := Nat.mod_lt q hpos
  generalize nearestUnits (q % oneUnits) oneUnits = rounded at *
  generalize q % oneUnits = rest at *
  generalize q / oneUnits = whole at *
  generalize pow2 1021 = last at *
  generalize oneUnits = one at *
  refine congrArg Nat.cast ?_
  rcases Nat.lt_trichotomy whole h with hless | rfl | hgreater
  · -- The quotient has been rounded to less than the whole number that it stands for.
    obtain ⟨d, rfl⟩ : ∃ d, h = whole + 1 + d := ⟨h - whole - 1, by omega⟩
    have hsplit : (whole + 1 + d) * one = whole * one + one + d * one := by ring
    have hzero : d = 0 := by
      refine Nat.eq_zero_of_not_pos fun hd => ?_
      have := Nat.le_mul_of_pos_left one hd
      omega
    subst hzero
    rw [if_pos (by omega)]
    omega
  · exact if_neg (by omega)
  · obtain ⟨d, rfl⟩ : ∃ d, whole = h + 1 + d := ⟨whole - h - 1, by omega⟩
    have hsplit : (h + 1 + d) * one = h * one + one + d * one := by ring
    omega

/-- The two parts of a floored division of a whole double. -/
theorem floorDivMod_whole {x : Float} (h : IsWhole x n) : floorDivMod x k =
    (doubleOfUnits (floorUnits (quotientUnits (roundedUnits (k * (n / k) * oneUnits : Nat))
      (k * oneUnits : Nat))), doubleOfUnits (n % k * oneUnits : Nat)) := by
  obtain ⟨hx, hunits⟩ := h
  have hdivisor : (k : Int) * unitsOfOne = (k * oneUnits : Nat) := (Int.natCast_mul k _).symm
  have hrest : ((n * oneUnits : Nat) : Int).tmod (k * oneUnits : Nat) =
      (n % k * oneUnits : Nat) := by
    rw [Int.tmod_eq_emod_of_nonneg (Int.natCast_nonneg _), ← Int.natCast_emod,
      Nat.mul_mod_mul_right]
  have hwhole : ((n * oneUnits : Nat) : Int) - (n % k * oneUnits : Nat) =
      (k * (n / k) * oneUnits : Nat) := by
    have hdm : k * (n / k) * oneUnits + n % k * oneUnits = n * oneUnits := by
      rw [← Nat.add_mul, Nat.div_add_mod]
    omega
  have hsign : ¬((n % k * oneUnits : Nat) : Int) < 0 := Int.not_lt.mpr (Int.natCast_nonneg _)
  unfold floorDivMod
  simp only [if_pos hx, hunits, hdivisor, hrest, hwhole, if_neg hsign]

theorem isWhole_floorDivMod_snd {x : Float} (h : IsWhole x n) (hk : 0 < k) (hsmall : k < pow2 53) :
    IsWhole (floorDivMod x k).2 (n % k) := by
  rw [floorDivMod_whole h]
  exact isWhole_doubleOfUnits (Nat.lt_trans (Nat.mod_lt n hk) hsmall)

theorem IsWhole.lt_overflow {x : Float} (h : IsWhole x n) :
    n * oneUnits < overflow * oneUnits := by
  have hunit : pow2 1074 = oneUnits := rfl
  have hroom := natAbs_unitsOfDouble_add_le x
  rw [h.2, Int.natAbs_natCast, hunit] at hroom
  exact Nat.lt_of_lt_of_le (Nat.lt_add_of_pos_right (pow2_pos 2044)) hroom

theorem quotientUnits_whole {x : Float} (h : IsWhole x n) (hk : 0 < k) :
    quotientUnits (roundedUnits (k * (n / k) * oneUnits : Nat)) (k * oneUnits : Nat) =
      nearestUnits (nearestUnits (k * (n / k) * oneUnits) oneUnits) (k * oneUnits) := by
  have hunit : pow2 1074 = oneUnits := rfl
  have hmul : k * (n / k) * oneUnits < overflow * oneUnits :=
    Nat.lt_of_le_of_lt (Nat.mul_le_mul_right _ (Nat.mul_div_le n k)) h.lt_overflow
  have hroom := natAbs_unitsOfDouble_add_le (doubleOfUnits (k * (n / k) * oneUnits : Nat))
  change (roundedUnits _).natAbs + _ ≤ _ at hroom
  rw [roundedUnits_natCast hmul] at hroom ⊢
  rw [Int.natAbs_natCast, hunit] at hroom
  refine quotientUnits_natCast (Nat.mul_pos hk oneUnits_pos) ?_
  refine Nat.lt_of_lt_of_le (Nat.lt_add_of_pos_right (pow2_pos 2044)) (Nat.le_trans hroom ?_)
  exact Nat.mul_le_mul_left _ (Nat.le_mul_of_pos_left _ hk)

/-- The quotient of a whole double is a whole number, if not always the right one. -/
theorem exists_truncate?_fst {x : Float} (h : IsWhole x n) (hk : 0 < k) (hlt : k < overflow) :
    ∃ q : Nat, truncate? (floorDivMod x k).1 = some (q : Int) := by
  have hunit : pow2 1074 = oneUnits := rfl
  have hfinite := (isFinite_floorDivMod h.1 hk hlt).1
  obtain ⟨t, ht⟩ : ∃ t : Nat, (floorDivMod x k).1 = doubleOfUnits t := by
    rw [floorDivMod_whole h, quotientUnits_whole h hk, floorUnits_natCast]
    exact ⟨_, rfl⟩
  rw [ht] at hfinite ⊢
  replace ht := isFinite_doubleOfUnits_iff.mp hfinite
  rw [Int.natAbs_natCast, hunit] at ht
  have hunits : unitsOfDouble (doubleOfUnits t) = nearestUnits t oneUnits :=
    roundedUnits_natCast ht
  have hnonneg : 0 ≤ unitsOfDouble (doubleOfUnits t) := by
    rw [hunits]
    exact Int.natCast_nonneg _
  have hwhole := truncate?_of_nonneg hfinite hnonneg
  rw [hunits, ← Int.natCast_ediv] at hwhole
  exact ⟨_, hwhole⟩

/-- Below 2 ^ 53 no number is rounded on the way to the quotient. -/
theorem isWhole_floorDivMod_fst {x : Float} (h : IsWhole x n) (hk : 0 < k) (hn : n < pow2 53) :
    IsWhole (floorDivMod x k).1 (n / k) := by
  have hone := oneUnits_pos
  have hmul : k * (n / k) < pow2 53 := Nat.lt_of_le_of_lt (Nat.mul_div_le n k) hn
  have hquotient : n / k < pow2 53 := Nat.lt_of_le_of_lt (Nat.div_le_self n k) hn
  have hfirst : nearestUnits (k * (n / k) * oneUnits) oneUnits = n / k * (k * oneUnits) := by
    rw [nearestUnits_whole hmul hone, Nat.mul_comm k, Nat.mul_assoc]
  have hsecond := nearestUnits_whole hquotient (Nat.mul_pos hk hone)
  have hfloor : floorUnits (n / k * oneUnits : Nat) = (n / k * oneUnits : Nat) :=
    floorUnits_near (Nat.le_add_right _ _) (Nat.le_add_right _ _)
  rw [floorDivMod_whole h, quotientUnits_whole h hk, hfirst, hsecond, hfloor]
  exact isWhole_doubleOfUnits hquotient

/-- A quotient whose dividend is off by 512 at most and that is itself off by a quarter at most is
off by less than two fifths when the divisor is 3600 or more. -/
theorem quotient_near {a k u q one half : Nat} (hpos : 0 < one) (hhalf : one = 2 * half)
    (hk : 3600 ≤ k)
    (hfirst : 2 * (a * one * one) ≤ 2 * (u * one) + one * (1024 * one) ∧
      2 * (u * one) ≤ 2 * (a * one * one) + one * (1024 * one))
    (hsecond : 2 * (u * one) ≤ 2 * (q * (k * one)) + k * one * half ∧
      2 * (q * (k * one)) ≤ 2 * (u * one) + k * one * half) :
    5 * (a * one) ≤ 5 * (q * k) + 2 * (k * one) ∧
      5 * (q * k) ≤ 5 * (a * one) + 2 * (k * one) := by
  have hscale := Nat.mul_le_mul_right (one * one) hk
  have hsplit : k * (one * one) = 2 * (k * one * half) := by
    calc k * (one * one) = k * one * (2 * half) := by rw [← hhalf, Nat.mul_assoc]
      _ = 2 * (k * one * half) := by ring
  have hmixed : one * (1024 * one) = 1024 * (one * one) := by ring
  have ha : 5 * (a * one) * one = 5 * (a * one * one) := by ring
  have hq : 5 * (q * k) * one = 5 * (q * (k * one)) := by ring
  have hmargin : 2 * (k * one) * one = 2 * (k * (one * one)) := by ring
  constructor
  · refine Nat.le_of_mul_le_mul_right ?_ hpos
    rw [Nat.add_mul, ha, hq, hmargin]
    omega
  · refine Nat.le_of_mul_le_mul_right ?_ hpos
    rw [Nat.add_mul, ha, hq, hmargin]
    omega

theorem rounded_lt {a k u one : Nat} (hpos : 0 < one) (hk : 3600 ≤ k) (ha : a < pow2 63)
    (hfirst : 2 * (u * one) ≤ 2 * (a * one * one) + one * (1024 * one)) :
    u < pow2 52 * (k * one) := by
  have h63 : pow2 63 + 512 < pow2 52 * 3600 := by decide
  have hlarge : a + 512 < pow2 52 * k := by
    have := Nat.mul_le_mul_left (pow2 52) hk
    omega
  refine Nat.lt_of_mul_lt_mul_right (a := 2 * one) ?_
  calc u * (2 * one) = 2 * (u * one) := by ring
    _ ≤ 2 * (a * one * one) + one * (1024 * one) := hfirst
    _ = (a + 512) * (2 * (one * one)) := by ring
    _ < pow2 52 * k * (2 * (one * one)) :=
      (Nat.mul_lt_mul_right (Nat.mul_pos Nat.two_pos (Nat.mul_pos hpos hpos))).mpr hlarge
    _ = pow2 52 * (k * one) * (2 * one) := by ring

/-- Below 2 ^ 63 the quotient by 3600 or more is off by less than half of one before it is
floored. -/
theorem isWhole_floorDivMod_fst_of_large {x : Float} (h : IsWhole x n) (hk : 3600 ≤ k)
    (hn : n < pow2 63) : IsWhole (floorDivMod x k).1 (n / k) := by
  have hpos : 0 < k := by omega
  have hone := oneUnits_pos
  have hden : 0 < k * oneUnits := Nat.mul_pos hpos hone
  have hmul : k * (n / k) < pow2 63 := Nat.lt_of_le_of_lt (Nat.mul_div_le n k) hn
  have h10 : pow2 10 = 1024 := rfl
  have h1 : pow2 1 = 2 := rfl
  have hunit : pow2 1074 = oneUnits := rfl
  have hlarge : pow2 1084 = pow2 10 * pow2 1074 := pow2_add 10 1074
  have hhalf : oneUnits = pow2 1 * pow2 1073 := pow2_add 1 1073
  rw [h10, hunit] at hlarge
  rw [h1] at hhalf
  have hfirst := nearestUnits_near hone ((Nat.mul_lt_mul_right hone).mpr hmul)
  rw [show 63 + 1021 = 1084 from rfl, hlarge] at hfirst
  have hrounded : nearestUnits (k * (n / k) * oneUnits) oneUnits < pow2 52 * (k * oneUnits) :=
    rounded_lt hone hk hmul hfirst.2
  have hsecond := nearestUnits_near hden hrounded
  rw [show 52 + 1021 = 1073 from rfl] at hsecond
  have hquotient : n / k < pow2 53 := by
    have h63 : pow2 63 < 3600 * pow2 53 := by decide
    refine Nat.lt_of_mul_lt_mul_left (a := k) ?_
    exact Nat.lt_of_lt_of_le (Nat.lt_trans hmul h63) (Nat.mul_le_mul_right _ hk)
  have hnear := quotient_near hone hhalf hk hfirst hsecond
  rw [floorDivMod_whole h, quotientUnits_whole h hpos]
  generalize nearestUnits (nearestUnits (k * (n / k) * oneUnits) oneUnits) (k * oneUnits) = q at *
  have hfloor : floorUnits q = (n / k * oneUnits : Nat) := by
    refine floorUnits_near ?_ ?_
    · refine Nat.le_of_mul_le_mul_left ?_ hpos
      calc k * (5 * (n / k * oneUnits)) = 5 * (k * (n / k) * oneUnits) := by ring
        _ ≤ 5 * (q * k) + 2 * (k * oneUnits) := hnear.1
        _ = k * (5 * q + 2 * oneUnits) := by ring
    · refine Nat.le_of_mul_le_mul_left ?_ hpos
      calc k * (5 * q) = 5 * (q * k) := by ring
        _ ≤ 5 * (k * (n / k) * oneUnits) + 2 * (k * oneUnits) := hnear.2
        _ = k * (5 * (n / k * oneUnits) + 2 * oneUnits) := by ring
  rw [hfloor]
  exact isWhole_doubleOfUnits hquotient

end Funnel.Number
