import Funnel.Display
import Funnel.Proofs.Calendar.Iso
import Funnel.Proofs.Fault
import Funnel.Proofs.Number.Rounded
import Funnel.Proofs.Query.Placeholders
import Funnel.Proofs.Value.Compared

/-!
# The unit of a duration

Without a time format the unit of a duration is chosen by its size, and the number is rounded after
that. From half a second below a minute on, and from three seconds below an hour on, the number is
rounded up to a full minute or hour that is still shown in the smaller unit. Nowhere else does a
text show as much of a unit as the next larger one has.
-/

set_option autoImplicit false

namespace Funnel

open Number Text
open Placeholder (toList_toString_nat)

namespace Number

variable {num den : Nat}

/-- A quotient of 59.95 or more, but less than 64, is rounded to a double of 59.95 or more. -/
theorem le_nearestUnits (hden : 0 < den) (h : 1199 * den ≤ 20 * num) (hlt : num < pow2 6 * den) :
    1199 * oneUnits ≤ 20 * nearestUnits num den := by
  have hfive : pow2 5 = 32 := rfl
  have hnum : num ≠ 0 := by
    rintro rfl
    omega
  have hlow := @le_unitExponent_of_le num den 5 (Nat.ne_of_gt hden) (by rw [hfive]; omega)
  have hhigh := unitExponent_le hnum hlt
  have hplace : lastPlace num den = 1027 := by
    unfold lastPlace
    omega
  have hone : oneUnits = pow2 47 * pow2 1027 := pow2_add 47 1027
  have hbound := (@nearestUnits_bounds num den hden).1
  unfold nearestUnits at hbound ⊢
  rw [hplace, hone] at hbound ⊢
  have hpos := pow2_pos 1027
  have h47 : pow2 47 = 140737488355328 := by decide
  generalize lastBits num den = q at *
  generalize pow2 1027 = place at *
  have hcancel : 2 * (num * pow2 47) ≤ 2 * (q * den) + den := by
    refine Nat.le_of_mul_le_mul_right ?_ hpos
    calc 2 * (num * pow2 47) * place = 2 * (num * (pow2 47 * place)) := by ring
      _ ≤ 2 * (q * place * den) + den * place := hbound
      _ = (2 * (q * den) + den) * place := by ring
  have hq : 1199 * 2 * pow2 47 ≤ 40 * q + 20 := by
    refine Nat.le_of_mul_le_mul_right ?_ hden
    calc 1199 * 2 * pow2 47 * den = 1199 * den * (2 * pow2 47) := by ring
      _ ≤ 20 * num * (2 * pow2 47) := Nat.mul_le_mul_right _ h
      _ = 20 * (2 * (num * pow2 47)) := by ring
      _ ≤ 20 * (2 * (q * den) + den) := Nat.mul_le_mul_left 20 hcancel
      _ = (40 * q + 20) * den := by ring
  rw [h47] at hq ⊢
  have hwhole : 1199 * 140737488355328 ≤ 20 * q := by omega
  calc 1199 * (140737488355328 * place) = 1199 * 140737488355328 * place := by ring
    _ ≤ 20 * q * place := Nat.mul_le_mul_right place hwhole
    _ = 20 * (q * place) := by ring

/-- A quotient that stays below 59.95 by half of the last bit that it can have is rounded to a double
below 59.95. -/
theorem nearestUnits_lt (hden : 0 < den) (h : 20 * pow2 47 * num + 10 * den < 1199 * pow2 47 * den)
    (hlt : num < pow2 6 * den) : 20 * nearestUnits num den < 1199 * oneUnits := by
  by_cases hnum : num = 0
  · rw [hnum, nearestUnits_zero]
    exact Nat.mul_pos (by decide) oneUnits_pos
  have hhigh := unitExponent_le hnum hlt
  have hplace : pow2 (lastPlace num den) ≤ pow2 1027 := by
    refine pow2_le ?_
    unfold lastPlace
    omega
  have hone : oneUnits = pow2 47 * pow2 1027 := pow2_add 47 1027
  have hbound := (@nearestUnits_bounds num den hden).2
  rw [hone] at hbound ⊢
  have hpos := pow2_pos 1027
  generalize nearestUnits num den = v at *
  generalize pow2 (lastPlace num den) = last at *
  generalize pow2 1027 = place at *
  refine Nat.lt_of_mul_lt_mul_right (a := 2 * den) ?_
  calc 20 * v * (2 * den) = 20 * (2 * (v * den)) := by ring
    _ ≤ 20 * (2 * (num * (pow2 47 * place)) + den * last) := Nat.mul_le_mul_left 20 hbound
    _ ≤ 20 * (2 * (num * (pow2 47 * place)) + den * place) :=
      Nat.mul_le_mul_left 20 (Nat.add_le_add_left (Nat.mul_le_mul_left den hplace) _)
    _ = (20 * pow2 47 * num + 10 * den) * (2 * place) := by ring
    _ < 1199 * pow2 47 * den * (2 * place) :=
      (Nat.mul_lt_mul_right (Nat.mul_pos Nat.two_pos hpos)).mpr h
    _ = 1199 * (pow2 47 * place) * (2 * den) := by ring

end Number

namespace Display

def signText (negative : Bool) : String := if negative then "-" else ""

def secondsText (negative : Bool) (n : Nat) : String := signText negative ++ toString n ++ "s"

/-- A number of tenths of a minute as it is shown. -/
def minutesText (negative : Bool) (tenths : Nat) : String :=
  signText negative ++ toString (tenths / 10) ++ "." ++ toString (tenths % 10) ++ "m"

/-- The text shows as many seconds as a minute has, or as many minutes as an hour has. -/
def Overfull (text : String) : Prop :=
  (∃ negative n, 60 ≤ n ∧ text = secondsText negative n) ∨
    ∃ negative tenths, 600 ≤ tenths ∧ text = minutesText negative tenths

def digitsOf (text : String) : Nat := natOfDigits (text.toList.filter isAsciiDigit)

theorem filter_toDigits (n : Nat) :
    (Nat.toDigits 10 n).filter isAsciiDigit = Nat.toDigits 10 n := by
  refine List.filter_eq_self.mpr fun c hc => Calendar.isAsciiDigit_of_isDigit ?_
  exact Nat.isDigit_of_mem_toDigits (by decide) (by decide) hc

theorem filter_signText (negative : Bool) :
    (signText negative).toList.filter isAsciiDigit = [] := by
  cases negative <;> decide

theorem digitsOf_secondsText (negative : Bool) (n : Nat) :
    digitsOf (secondsText negative n) = n := by
  have hunit : "s".toList.filter isAsciiDigit = [] := by decide
  rw [digitsOf, secondsText, String.toList_append, String.toList_append, List.filter_append,
    List.filter_append, filter_signText, hunit, toList_toString_nat, filter_toDigits,
    List.nil_append, List.append_nil]
  exact Nat.ofDigitChars_ten_toDigits

theorem natOfDigits_append_digit (ds : List Char) {d : Nat} (hd : d < 10) :
    natOfDigits (ds ++ Nat.toDigits 10 d) = 10 * natOfDigits ds + d := by
  have hdigit : Nat.toDigits 10 d = [d.digitChar] := Nat.toDigits_of_lt_base hd
  have hvalue : ∀ d < 10, d.digitChar.toNat - 48 = d := by decide
  rw [natOfDigits, hdigit, List.foldl_append]
  change 10 * natOfDigits ds + (d.digitChar.toNat - 48) = _
  rw [hvalue d hd]

theorem digitsOf_minutesText (negative : Bool) (tenths : Nat) :
    digitsOf (minutesText negative tenths) = tenths := by
  have hunit : "m".toList.filter isAsciiDigit = [] := by decide
  have hpoint : ".".toList.filter isAsciiDigit = [] := by decide
  have hvalue : natOfDigits (Nat.toDigits 10 (tenths / 10)) = tenths / 10 :=
    Nat.ofDigitChars_ten_toDigits
  simp only [digitsOf, minutesText, String.toList_append, List.filter_append, filter_signText,
    hunit, hpoint, toList_toString_nat, filter_toDigits, List.nil_append, List.append_nil]
  rw [natOfDigits_append_digit _ (Nat.mod_lt _ (by decide)), hvalue, Nat.div_add_mod]

theorem getLast?_append_unit (text : String) {unit : String} {c : Char} (h : unit.toList = [c]) :
    (text ++ unit).toList.getLast? = some c := by
  rw [String.toList_append, h, List.getLast?_concat]

theorem append_unit_ne {s t u v : String} {c d : Char} (hu : u.toList = [c]) (hv : v.toList = [d])
    (hne : c ≠ d) : s ++ u ≠ t ++ v := by
  intro h
  have hlast := getLast?_append_unit s hu
  rw [h, getLast?_append_unit t hv] at hlast
  exact hne (Option.some.inj hlast).symm

theorem overfull_secondsText (negative : Bool) (n : Nat) :
    Overfull (secondsText negative n) ↔ 60 ≤ n := by
  refine ⟨?_, fun h => .inl ⟨negative, n, h, rfl⟩⟩
  rintro (⟨negative', n', h, heq⟩ | ⟨negative', tenths, -, heq⟩)
  · have hsame := congrArg digitsOf heq
    rw [digitsOf_secondsText, digitsOf_secondsText] at hsame
    omega
  · exact absurd heq (append_unit_ne rfl rfl (by decide))

theorem overfull_minutesText (negative : Bool) (tenths : Nat) :
    Overfull (minutesText negative tenths) ↔ 600 ≤ tenths := by
  refine ⟨?_, fun h => .inr ⟨negative, tenths, h, rfl⟩⟩
  rintro (⟨negative', n, -, heq⟩ | ⟨negative', tenths', h, heq⟩)
  · exact absurd heq (append_unit_ne rfl rfl (by decide))
  · have hsame := congrArg digitsOf heq
    rw [digitsOf_minutesText, digitsOf_minutesText] at hsame
    omega

theorem not_overfull_hours (text : String) : ¬Overfull (text ++ "h") := by
  rintro (⟨negative, n, -, heq⟩ | ⟨negative, tenths, -, heq⟩)
  · exact append_unit_ne rfl rfl (by decide) heq
  · exact append_unit_ne rfl rfl (by decide) heq

theorem ofList_toDigits (n : Nat) : String.ofList (Nat.toDigits 10 n) = toString n := by
  rw [← toList_toString_nat, String.ofList_toList]

theorem fixedRatio_whole (negative : Bool) (num den : Nat) :
    fixedRatio 0 false negative num den ++ "s" =
      secondsText negative (roundHalfEven num den) := by
  have hone : pow10 0 = 1 := rfl
  have hbody : fixedMagnitude 0 false num den = toString (roundHalfEven num den) := by
    rw [← ofList_toDigits, fixedMagnitude, hone, Nat.mul_one]
    simp only [if_true, Bool.false_eq_true, if_false, Nat.div_one]
  rw [fixedRatio, hbody, secondsText, signText]
  cases negative with
  | false => rw [if_neg Bool.false_ne_true, if_neg Bool.false_ne_true, String.empty_append]
  | true => rw [if_pos rfl, if_pos rfl]

theorem fixedRatio_tenths (negative : Bool) (num den : Nat) :
    fixedRatio 1 false negative num den ++ "m" =
      minutesText negative (roundHalfEven (num * 10) den) := by
  have hten : pow10 1 = 10 := rfl
  have hpoint : "." = String.ofList ['.'] := rfl
  have hpadded : ∀ n, paddedDigits 1 n = Nat.toDigits 10 n := by
    intro n
    have hpos : 0 < (Nat.toDigits 10 n).length := List.length_pos_iff.mpr Nat.toDigits_ne_nil
    have hzero : 1 - (Nat.toDigits 10 n).length = 0 := by omega
    rw [paddedDigits, hzero]
    rfl
  have hbody : fixedMagnitude 1 false num den =
      toString (roundHalfEven (num * 10) den / 10) ++ "." ++
        toString (roundHalfEven (num * 10) den % 10) := by
    rw [← ofList_toDigits, ← ofList_toDigits, hpoint, ← String.ofList_append,
      ← String.ofList_append, fixedMagnitude, hten, hpadded, List.append_assoc]
    rfl
  rw [fixedRatio, hbody, minutesText, signText]
  cases negative with
  | false => simp only [Bool.false_eq_true, if_false, String.empty_append]
  | true => simp only [if_true, String.append_assoc]

variable {x : Float}

theorem wholeDouble_of_lt {n : Nat} (h : n < pow2 53) : Figure.wholeDouble n = .ok (ofInt n) :=
  if_pos (isFinite_ofInt h)

theorem duration_double (hx : isFinite x = true) : duration none (.double x) =
    .ok (if unitsOfDouble x < (60 : Nat) * oneUnits then Number.fixed 0 false x ++ "s"
      else if unitsOfDouble x < (3600 : Nat) * oneUnits then
        Number.fixed 1 false (x / ofInt (60 : Nat)) ++ "m"
      else Number.fixed 1 false (x / ofInt (3600 : Nat)) ++ "h") := by
  have hdiv : ∀ n : Nat, n < pow2 53 →
      Figure.div (.double x) (.whole n) = .ok (.double (x / ofInt n)) := fun n hn =>
    Fault.bind_eq_ok_iff.mpr ⟨_, wholeDouble_of_lt hn, rfl⟩
  have hminutes := hdiv 60 (by decide)
  have hhours := hdiv 3600 (by decide)
  have hsecond := @Figure.isBelow_double x hx 60 (by decide)
  have hminute := @Figure.isBelow_double x hx 3600 (by decide)
  unfold duration
  refine Fault.bind_eq_ok_iff.mpr ⟨_, hsecond, ?_⟩
  by_cases hless : unitsOfDouble x < (60 : Nat) * oneUnits
  · rw [if_pos (decide_eq_true hless), if_pos hless]
    rfl
  · rw [if_neg (mt of_decide_eq_true hless), if_neg hless]
    refine Fault.bind_eq_ok_iff.mpr ⟨_, hminute, ?_⟩
    by_cases hmedium : unitsOfDouble x < (3600 : Nat) * oneUnits
    · rw [if_pos (decide_eq_true hmedium), if_pos hmedium]
      exact Fault.bind_eq_ok_iff.mpr ⟨_, hminutes, rfl⟩
    · rw [if_neg (mt of_decide_eq_true hmedium), if_neg hmedium]
      exact Fault.bind_eq_ok_iff.mpr ⟨_, hhours, rfl⟩

/-- A double is shown in seconds as a full minute from half a second below it on. -/
theorem overfull_seconds (hx : isFinite x = true) (h0 : 0 ≤ unitsOfDouble x) :
    Overfull (Number.fixed 0 false x ++ "s") ↔ 119 * (oneUnits : Int) ≤ 2 * unitsOfDouble x := by
  obtain ⟨negative, -, hfixed⟩ := exists_fixed_eq hx
  rw [hfixed, fixedRatio_whole, overfull_secondsText]
  have hround := @lt_roundHalfEven_iff (unitsOfDouble x).natAbs oneUnits 59 oneUnits_pos rfl
  generalize oneUnits = one at *
  refine hround.trans ?_
  omega

/-- A quotient is shown in minutes as a full hour if it is rounded to 59.95 minutes or more. -/
theorem overfull_minutes {num den : Nat} (hden : 0 < den) (h : num < overflow * den) :
    Overfull (Number.fixed 1 false (nearest false num den) ++ "m") ↔
      1199 * oneUnits ≤ 20 * nearestUnits num den := by
  have hunits : unitsOfDouble (nearest false num den) = nearestUnits num den :=
    unitsOfDouble_nearest hden h false
  obtain ⟨negative, -, hfixed⟩ := exists_fixed_eq (isFinite_nearest hden h false)
  rw [hfixed, fixedRatio_tenths, overfull_minutesText, hunits, Int.natAbs_natCast]
  have hround := @lt_roundHalfEven_iff (nearestUnits num den * 10) oneUnits 599 oneUnits_pos rfl
  generalize oneUnits = one at *
  refine hround.trans ?_
  omega

/-- A double below 3597 is below it by the last bit that doubles have there. -/
theorem add_le_of_lt (h : (unitsOfDouble x).natAbs < 3597 * oneUnits) :
    (unitsOfDouble x).natAbs + pow2 1033 ≤ 3597 * (pow2 41 * pow2 1033) := by
  have hone : oneUnits = pow2 41 * pow2 1033 := pow2_add 41 1033
  have h41 : pow2 41 = 2199023255552 := by decide
  rw [hone] at h
  rcases Nat.lt_or_ge (unitsOfDouble x).natAbs (pow2 (52 + 1033)) with hlt | hle
  · have hsplit : pow2 (52 + 1033) = pow2 52 * pow2 1033 := pow2_add 52 1033
    have h52 : pow2 52 = 4503599627370496 := by decide
    rw [hsplit, h52] at hlt
    rw [h41]
    generalize pow2 1033 = place at *
    omega
  · obtain ⟨c, hc⟩ := pow2_dvd_unitsOfDouble hle
    rw [hc] at h ⊢
    have hpos := pow2_pos 1033
    generalize pow2 1033 = place at *
    have hless : c < 3597 * pow2 41 := by
      refine Nat.lt_of_mul_lt_mul_left (a := place) ?_
      calc place * c < 3597 * (pow2 41 * place) := h
        _ = place * (3597 * pow2 41) := by ring
    calc place * c + place = (c + 1) * place := by ring
      _ ≤ 3597 * pow2 41 * place := Nat.mul_le_mul_right place hless
      _ = 3597 * (pow2 41 * place) := by ring

theorem overfull_minutes_double (hx : isFinite x = true)
    (hlow : (60 : Nat) * oneUnits ≤ unitsOfDouble x)
    (hhigh : unitsOfDouble x < (3600 : Nat) * oneUnits) :
    Overfull (Number.fixed 1 false (x / ofInt (60 : Nat)) ++ "m") ↔
      3597 * (oneUnits : Int) ≤ unitsOfDouble x := by
  have hpos := oneUnits_pos
  have hone : oneUnits = pow2 41 * pow2 1033 := pow2_add 41 1033
  have hgap := @add_le_of_lt x
  have hdiv := @div_ofInt_eq_nearest x hx (by omega) 60 (by decide) (by decide)
  have hlarge : 3600 < overflow := by decide +kernel
  have hnat : (unitsOfDouble x).toNat = (unitsOfDouble x).natAbs := by omega
  have h6 : pow2 6 = 64 := rfl
  have h41 : pow2 41 = 2199023255552 := by decide
  have h47 : pow2 47 = 140737488355328 := by decide
  have hden : 0 < 60 * oneUnits := by omega
  have hsmall : (unitsOfDouble x).natAbs < 3600 * oneUnits := by omega
  have hfinite : (unitsOfDouble x).natAbs < overflow * (60 * oneUnits) := by
    refine Nat.lt_of_lt_of_le hsmall (Nat.mul_le_mul (Nat.le_of_lt hlarge) ?_)
    omega
  rw [hdiv, hnat, overfull_minutes hden hfinite]
  constructor
  · refine fun hfull => Int.not_lt.mp fun hlt => ?_
    refine absurd hfull (Nat.not_le.mpr (nearestUnits_lt hden ?_ (by rw [h6]; omega)))
    have hroom := hgap (by omega)
    rw [h41] at hroom hone
    rw [h47, hone]
    have := pow2_pos 1033
    generalize pow2 1033 = place at *
    omega
  · intro hle
    exact le_nearestUnits hden (by omega) (by rw [h6]; omega)

theorem overfull_minutes_whole {n : Nat} (hhigh : n < 3600) :
    Overfull (Number.fixed 1 false (nearest false n 60) ++ "m") ↔ 3597 ≤ n := by
  have hlarge : 3600 < overflow := by decide +kernel
  have h6 : pow2 6 = 64 := rfl
  have h47 : pow2 47 = 140737488355328 := by decide
  rw [overfull_minutes (by decide) (by omega)]
  constructor
  · refine fun hfull => Nat.not_lt.mp fun hlt => ?_
    refine absurd hfull (Nat.not_le.mpr (nearestUnits_lt (by decide) ?_ (by rw [h6]; omega)))
    rw [h47]
    omega
  · intro hle
    exact le_nearestUnits (by decide) (by omega) (by rw [h6]; omega)

theorem not_overfull_seconds_whole {n : Nat} (h : n < 60) :
    ¬Overfull (Number.fixed 0 false (ofInt n) ++ "s") := by
  have hsmall : n < pow2 53 := Nat.lt_of_lt_of_le h (by decide)
  have hunits := unitsOfDouble_ofInt hsmall
  rw [overfull_seconds (isFinite_ofInt hsmall) (by rw [hunits]; exact Int.natCast_nonneg _), hunits]
  have hpos := oneUnits_pos
  have hproduct : n * oneUnits ≤ 59 * oneUnits :=
    Nat.mul_le_mul_right oneUnits (Nat.le_of_lt_succ h)
  generalize n * oneUnits = units at *
  generalize oneUnits = one at *
  omega

theorem div_whole {n k : Nat} (hk : 0 < k) : Figure.div (.whole n) (.whole k) =
    if n < overflow * k then .ok (.double (nearest false n k)) else .error .outOfRange := by
  have hn : decide ((n : Int) < 0) = false := decide_eq_false (by omega)
  have hd : decide ((k : Int) < 0) = false := decide_eq_false (by omega)
  have hfinite := @isFinite_nearest_iff n k hk false
  unfold Figure.div Figure.combine Figure.fitted
  simp only [hn, hd, bne_self_eq_false, Int.natAbs_natCast, hfinite]
  split <;> rfl

theorem duration_whole (n : Nat) : duration none (.whole n) =
    if n < 60 then .ok (Number.fixed 0 false (ofInt n) ++ "s")
    else if n < 3600 then .ok (Number.fixed 1 false (nearest false n 60) ++ "m")
    else if n < overflow * 3600 then .ok (Number.fixed 1 false (nearest false n 3600) ++ "h")
    else .error .outOfRange := by
  have hlarge : 3600 < overflow := by decide +kernel
  have hsecond := @Figure.isBelow_whole n 60 (by decide)
  have hminute := @Figure.isBelow_whole n 3600 (by decide)
  have hminutes := @div_whole n 60 (by decide)
  have hhours := @div_whole n 3600 (by decide)
  unfold duration
  refine (congrArg (· >>= _) hsecond).trans ?_
  change ite _ _ _ = _
  by_cases hless : n < 60
  · have hsmall : n < pow2 53 := Nat.lt_of_lt_of_le hless (by decide)
    rw [if_pos (decide_eq_true hless), if_pos hless]
    have hnumber : Figure.fixed 0 false (.whole n) = .ok (Number.fixed 0 false (ofInt n)) :=
      Fault.bind_eq_ok_iff.mpr ⟨_, wholeDouble_of_lt hsmall, rfl⟩
    exact Fault.bind_eq_ok_iff.mpr ⟨_, hnumber, rfl⟩
  rw [if_neg (mt of_decide_eq_true hless), if_neg hless]
  refine (congrArg (· >>= _) hminute).trans ?_
  change ite _ _ _ = _
  by_cases hmedium : n < 3600
  · rw [if_pos (by omega)] at hminutes
    rw [if_pos (decide_eq_true hmedium), if_pos hmedium]
    exact Fault.bind_eq_ok_iff.mpr ⟨_, hminutes, rfl⟩
  rw [if_neg (mt of_decide_eq_true hmedium), if_neg hmedium]
  refine (congrArg (· >>= _) hhours).trans ?_
  split <;> rfl

/-- A double that is not below zero is shown as a full minute of seconds from 59.5 seconds up to a
minute, and as a full hour of minutes from 3597 seconds up to an hour. -/
theorem overfull_double (hx : isFinite x = true) (h0 : 0 ≤ unitsOfDouble x) :
    ∃ text, duration none (.double x) = .ok text ∧ (Overfull text ↔
      119 * (oneUnits : Int) ≤ 2 * unitsOfDouble x ∧ unitsOfDouble x < 60 * oneUnits ∨
        3597 * (oneUnits : Int) ≤ unitsOfDouble x ∧ unitsOfDouble x < 3600 * oneUnits) := by
  have hpos := oneUnits_pos
  refine ⟨_, duration_double hx, ?_⟩
  by_cases hless : unitsOfDouble x < (60 : Nat) * oneUnits
  · rw [if_pos hless, overfull_seconds hx h0]
    generalize oneUnits = one at *
    omega
  rw [if_neg hless]
  by_cases hmedium : unitsOfDouble x < (3600 : Nat) * oneUnits
  · rw [if_pos hmedium, overfull_minutes_double hx (Int.not_lt.mp hless) hmedium]
    generalize oneUnits = one at *
    omega
  · rw [if_neg hmedium, iff_false_left (not_overfull_hours _)]
    generalize oneUnits = one at *
    omega

/-- A whole number is never shown as a full minute of seconds, and as a full hour of minutes from
3597 seconds up to an hour. -/
theorem overfull_whole (n : Nat) : (∃ text, duration none (.whole n) = .ok text ∧
    (Overfull text ↔ 3597 ≤ n ∧ n < 3600)) ∨
      overflow * 3600 ≤ n ∧ duration none (.whole n) = .error .outOfRange := by
  rw [duration_whole]
  by_cases hless : n < 60
  · rw [if_pos hless]
    refine .inl ⟨_, rfl, ?_⟩
    rw [iff_false_left (not_overfull_seconds_whole hless)]
    omega
  rw [if_neg hless]
  by_cases hmedium : n < 3600
  · rw [if_pos hmedium]
    refine .inl ⟨_, rfl, ?_⟩
    rw [overfull_minutes_whole hmedium]
    omega
  rw [if_neg hmedium]
  by_cases hlarge : n < overflow * 3600
  · rw [if_pos hlarge]
    refine .inl ⟨_, rfl, ?_⟩
    rw [iff_false_left (not_overfull_hours _)]
    omega
  · rw [if_neg hlarge]
    exact .inr ⟨Nat.not_lt.mp hlarge, rfl⟩

/-- A value is a number of seconds that is not below zero, in the units of doubles. -/
inductive HasUnits : Value → Nat → Prop where
  | whole (n : Nat) : HasUnits (.int n) (n * oneUnits)
  | double {x : Float} (hx : isFinite x = true) {units : Nat} (h : unitsOfDouble x = units) :
      HasUnits (.double x) units

/-- Without a time format every number of seconds that is not below zero is shown, and its text shows
as much of a unit as the next larger one has in two cases only: from 59.5 seconds up to a minute, and
from 3597 seconds up to an hour. A whole number whose quotient is beyond the doubles is a fault. -/
theorem shown_in_unit {v : Value} {units : Nat} (hv : HasUnits v units) :
    (∃ text, ofValue (.text "seconds") none v = .ok text ∧ (Overfull text ↔
      119 * oneUnits ≤ 2 * units ∧ units < 60 * oneUnits ∨
        3597 * oneUnits ≤ units ∧ units < 3600 * oneUnits)) ∨
      ∃ n : Nat, v = .int n ∧ overflow * 3600 ≤ n ∧
        ofValue (.text "seconds") none v = .error .outOfRange := by
  cases hv with
  | whole n =>
    rcases overfull_whole n with ⟨text, htext, hfull⟩ | ⟨hlarge, hfault⟩
    · refine .inl ⟨text, htext, hfull.trans ?_⟩
      have hpos := oneUnits_pos
      rw [Nat.mul_lt_mul_right hpos, Nat.mul_lt_mul_right hpos, Nat.mul_le_mul_right_iff hpos,
        ← Nat.mul_assoc, Nat.mul_le_mul_right_iff hpos]
      omega
    · exact .inr ⟨n, rfl, hlarge, hfault⟩
  | @double x hx units hunits =>
    obtain ⟨text, htext, hfull⟩ := overfull_double hx (by omega)
    refine .inl ⟨text, htext, hfull.trans ?_⟩
    rw [hunits]
    generalize oneUnits = one
    omega

/-- A quarter of a minute and the second before an hour: one is shown in its unit, the other as
sixty minutes. -/
theorem shown_in_unit_samples :
    HasUnits (.double 15.0) (15 * oneUnits) ∧ HasUnits (.int 3599) (3599 * oneUnits) ∧
      (∃ text, ofValue (.text "seconds") none (.double 15.0) = .ok text ∧ ¬Overfull text) ∧
      ∃ text, ofValue (.text "seconds") none (.int 3599) = .ok text ∧ Overfull text := by
  have hpos := oneUnits_pos
  have hshort : HasUnits (.double 15.0) (15 * oneUnits) := .double (by decide) (by decide +kernel)
  have hlong : HasUnits (.int 3599) (3599 * oneUnits) := .whole 3599
  refine ⟨hshort, hlong, ?_, ?_⟩
  · rcases shown_in_unit hshort with ⟨text, htext, hiff⟩ | ⟨n, hn, -⟩
    · refine ⟨text, htext, fun hfull => ?_⟩
      have := hiff.mp hfull
      generalize oneUnits = one at *
      omega
    · cases hn
  · rcases shown_in_unit hlong with ⟨text, htext, hiff⟩ | ⟨n, hn, hlarge, -⟩
    · refine ⟨text, htext, hiff.mpr (.inr ?_)⟩
      generalize oneUnits = one at *
      omega
    · cases hn
      exact absurd hlarge (by decide +kernel)

/-- Half a second before a minute sixty seconds are shown, and a second before an hour sixty
minutes. -/
theorem full_unit_shown :
    (isFinite 59.5 = true ∧ 0 ≤ unitsOfDouble 59.5 ∧
      ofValue (.text "seconds") none (.double 59.5) = .ok "60s" ∧ Overfull "60s") ∧
    ofValue (.text "seconds") none (.int 3599) = .ok "60.0m" ∧ Overfull "60.0m" := by
  refine ⟨⟨by decide, by decide +kernel, by decide +kernel, ?_⟩, by decide +kernel, ?_⟩
  · exact .inl ⟨false, 60, by decide, by decide⟩
  · exact .inr ⟨false, 600, by decide, by decide⟩

end Display

end Funnel
