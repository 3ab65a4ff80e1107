import Funnel.Display
import Funnel.Proofs.Calendar.Iso
import Funnel.Proofs.Fault
import Funnel.Proofs.Number.Floored
import Funnel.Proofs.Query.Placeholders

/-!
# Durations as hours, minutes and seconds

A whole number of seconds is shown as its hours, minutes and seconds, without the fields that are
zero in front. The text tells the number. A double stands for it as well as a whole number does as
long as the hours can be worked out on doubles; its minutes and seconds are right in any case.
-/

set_option autoImplicit false

namespace Funnel.Display

open Number Text
open Placeholder (toList_toString_nat)

/-- A text of hours, minutes and seconds; a field in front is there only if it is not zero. -/
inductive IsClock : (hours minutes seconds : Nat) → String → Prop where
  | seconds (s : Nat) : IsClock 0 0 s (toString s ++ "s")
  | minutes {m : Nat} (hm : 0 < m) (s : Nat) :
      IsClock 0 m s (toString m ++ "m " ++ toString s ++ "s")
  | hours {h : Nat} (hh : 0 < h) (m s : Nat) :
      IsClock h m s (toString h ++ "h " ++ toString m ++ "m " ++ toString s ++ "s")

theorem toString_natCast (n : Nat) : toString (n : Int) = toString n := rfl

theorem isClock_clockParts (h m s : Nat) : IsClock h m s (clockParts h m s) := by
  unfold clockParts
  simp only [toString_natCast]
  rcases Nat.eq_zero_or_pos h with rfl | hh
  · rw [if_neg (by omega)]
    rcases Nat.eq_zero_or_pos m with rfl | hm
    · rw [if_neg (by omega)]
      exact .seconds s
    · rw [if_pos (Int.natCast_pos.mpr hm)]
      exact .minutes hm s
  · rw [if_pos (Int.natCast_pos.mpr hh)]
    exact .hours hh m s

/-- A number ends where its digits do. -/
theorem toDigits_append_inj {a b : Nat} {c d : Char} {cs ds : List Char}
    (hc : isAsciiDigit c = false) (hd : isAsciiDigit d = false)
    (h : Nat.toDigits 10 a ++ c :: cs = Nat.toDigits 10 b ++ d :: ds) :
    a = b ∧ c = d ∧ cs = ds := by
  have hspan : ∀ {n : Nat} {x : Char} {xs : List Char}, isAsciiDigit x = false →
      (Nat.toDigits 10 n ++ x :: xs).takeWhile isAsciiDigit = Nat.toDigits 10 n ∧
        (Nat.toDigits 10 n ++ x :: xs).dropWhile isAsciiDigit = x :: xs := by
    intro n x xs hx
    have hdigits : ∀ y ∈ Nat.toDigits 10 n, isAsciiDigit y = true := fun y hy =>
      Calendar.isAsciiDigit_of_isDigit (Nat.isDigit_of_mem_toDigits (by decide) (by decide) hy)
    have hnot : ¬isAsciiDigit x = true := by rw [hx]; exact Bool.false_ne_true
    rw [List.takeWhile_append_of_pos hdigits, List.dropWhile_append_of_pos hdigits,
      List.takeWhile_cons_of_neg hnot, List.dropWhile_cons_of_neg hnot]
    exact ⟨List.append_nil _, rfl⟩
  have htake := congrArg (List.takeWhile isAsciiDigit) h
  have hdrop := congrArg (List.dropWhile isAsciiDigit) h
  rw [(hspan hc).1, (hspan hd).1] at htake
  rw [(hspan hc).2, (hspan hd).2] at hdrop
  obtain ⟨hhead, htail⟩ := List.cons.inj hdrop
  refine ⟨?_, hhead, htail⟩
  rw [← Nat.ofDigitChars_ten_toDigits (n := a), htake, Nat.ofDigitChars_ten_toDigits]

def clockChars (h m s : Nat) : List Char :=
  let seconds := Nat.toDigits 10 s ++ ['s']
  let minutes := Nat.toDigits 10 m ++ 'm' :: ' ' :: seconds
  if 0 < h then Nat.toDigits 10 h ++ 'h' :: ' ' :: minutes else if 0 < m then minutes else seconds

variable {h m s h' m' s' : Nat} {text : String}

theorem IsClock.toList (hc : IsClock h m s text) : text.toList = clockChars h m s := by
  cases hc with
  | seconds s => simp [clockChars]
  | minutes hm s => simp [clockChars, hm]
  | hours hh m s => simp [clockChars, hh]

/-- The first unit tells which fields there are, and each number ends where its unit begins. -/
theorem clockChars_inj (heq : clockChars h m s = clockChars h' m' s') :
    h = h' ∧ m = m' ∧ s = s' := by
  have hseconds : ∀ {a b : Nat}, Nat.toDigits 10 a ++ ['s'] = Nat.toDigits 10 b ++ ['s'] →
      a = b := fun hab => (toDigits_append_inj rfl rfl hab).1
  have hminutes : ∀ {a b c d : Nat},
      Nat.toDigits 10 a ++ 'm' :: ' ' :: (Nat.toDigits 10 b ++ ['s']) =
        Nat.toDigits 10 c ++ 'm' :: ' ' :: (Nat.toDigits 10 d ++ ['s']) → a = c ∧ b = d := by
    intro a b c d hab
    obtain ⟨rfl, -, hrest⟩ := toDigits_append_inj rfl rfl hab
    exact ⟨rfl, hseconds (List.cons.inj hrest).2⟩
  have hunit : ∀ {a b : Nat} {c d : Char} {cs ds : List Char}, isAsciiDigit c = false →
      isAsciiDigit d = false → Nat.toDigits 10 a ++ c :: cs = Nat.toDigits 10 b ++ d :: ds → c = d :=
    fun hc hd hab => (toDigits_append_inj hc hd hab).2.1
  by_cases hh : 0 < h <;> by_cases hh' : 0 < h' <;>
    simp only [clockChars, hh, hh', if_true, if_false] at heq
  · obtain ⟨rfl, -, hrest⟩ := toDigits_append_inj rfl rfl heq
    exact ⟨rfl, hminutes (List.cons.inj hrest).2⟩
  · split at heq
    · exact absurd (hunit rfl rfl heq) (by decide)
    · exact absurd (hunit rfl rfl heq) (by decide)
  · split at heq
    · exact absurd (hunit rfl rfl heq) (by decide)
    · exact absurd (hunit rfl rfl heq) (by decide)
  · have hhours : h = h' := by omega
    by_cases hm : 0 < m <;> by_cases hm' : 0 < m' <;>
      simp only [hm, hm', if_true, if_false] at heq
    · exact ⟨hhours, hminutes heq⟩
    · exact absurd (hunit rfl rfl heq) (by decide)
    · exact absurd (hunit rfl rfl heq) (by decide)
    · exact ⟨hhours, by omega, hseconds heq⟩

theorem IsClock.inj (hc : IsClock h m s text) (hc' : IsClock h' m' s' text) :
    h = h' ∧ m = m' ∧ s = s' :=
  clockChars_inj (hc.toList.symm.trans hc'.toList)

variable {n : Nat} {x : Float}

theorem cut_of_truncate? {q : Int} (h : truncate? x = some q) : Figure.cut (.double x) = .ok q := by
  simp only [Figure.cut, h]

theorem humanReadable_whole (n : Nat) : humanReadable (.whole n) =
    .ok (clockParts (n / 3600 : Nat) (n % 3600 / 60 : Nat) (n % 60 : Nat)) := by
  have hdiv : ∀ m k : Nat, (m : Int).fdiv k = (m / k : Nat) := fun m k =>
    (Int.fdiv_eq_ediv_of_nonneg m (Int.natCast_nonneg k)).trans (Int.natCast_ediv m k).symm
  have hmod : ∀ m k : Nat, (m : Int).fmod k = (m % k : Nat) := fun m k =>
    (Int.fmod_eq_emod_of_nonneg m (Int.natCast_nonneg k)).trans (Int.natCast_emod m k).symm
  have hhours := hdiv n 3600
  have hminutes := hdiv (n % 3600) 60
  rw [← hhours, ← hminutes, ← hmod n 3600, ← hmod n 60]
  rfl

theorem exists_humanReadable_double (h : IsWhole x n) : ∃ hours : Nat,
    humanReadable (.double x) = .ok (clockParts hours (n % 3600 / 60 : Nat) (n % 60 : Nat)) ∧
      truncate? (floorDivMod x 3600).1 = some (hours : Int) := by
  have hlarge : 3600 < overflow := by decide +kernel
  have hrest : n % 3600 < pow2 53 := Nat.lt_trans (Nat.mod_lt n (by decide)) (by decide)
  obtain ⟨hours, hhours⟩ := exists_truncate?_fst h (k := 3600) (by decide) hlarge
  have hremainder := isWhole_floorDivMod_snd h (k := 3600) (by decide) (by decide)
  have hminutes := truncate?_of_isWhole
    (isWhole_floorDivMod_fst hremainder (k := 60) (by decide) hrest)
  have hseconds := truncate?_of_isWhole
    (isWhole_floorDivMod_snd h (k := 60) (by decide) (by decide))
  refine ⟨hours, ?_, hhours⟩
  refine Fault.bind_eq_ok_iff.mpr ⟨_, rfl, Fault.bind_eq_ok_iff.mpr ⟨_, cut_of_truncate? hhours, ?_⟩⟩
  refine Fault.bind_eq_ok_iff.mpr ⟨_, rfl, Fault.bind_eq_ok_iff.mpr ⟨_, rfl, ?_⟩⟩
  refine Fault.bind_eq_ok_iff.mpr ⟨_, cut_of_truncate? hminutes, ?_⟩
  exact Fault.bind_eq_ok_iff.mpr ⟨_, rfl,
    Fault.bind_eq_ok_iff.mpr ⟨_, cut_of_truncate? hseconds, rfl⟩⟩

/-- A value is a whole number of seconds. -/
inductive IsSeconds (n : Nat) : Value → Prop where
  | whole : IsSeconds n (.int n)
  | double {x : Float} (h : toInt? x = some (n : Int)) : IsSeconds n (.double x)

def readable (v : Value) : Except Fault String :=
  ofValue (.text "seconds") (TimeFormat.ofValue? (.text "human_readable")) v

variable {v w : Value} {k : Nat}

/-- The hours of a value are exact: if it is a double, the whole quotient that is worked out on
doubles is that of the number. -/
def ExactHours (v : Value) (n : Nat) : Prop :=
  ∀ x, v = .double x → truncate? (floorDivMod x 3600).1 = some ((n / 3600 : Nat) : Int)

theorem exactHours_whole : ExactHours (.int n) n := by
  rintro x ⟨⟩

theorem exactHours_of_lt (hv : IsSeconds n v) (hn : n < pow2 63) : ExactHours v n := by
  cases hv with
  | whole => exact exactHours_whole
  | double h =>
    rintro x ⟨⟩
    exact truncate?_of_isWhole
      (isWhole_floorDivMod_fst_of_large (isWhole_of_toInt? h) (k := 3600) (Nat.le_refl 3600) hn)

theorem exists_readable (hv : IsSeconds n v) : ∃ h m s text, readable v = .ok text ∧
    IsClock h m s text ∧ m < 60 ∧ s < 60 ∧ 60 * m + s = n % 3600 ∧
      (3600 * h + 60 * m + s = n ↔ ExactHours v n) := by
  have hminutes : n % 3600 / 60 < 60 := by omega
  have hseconds : n % 60 < 60 := Nat.mod_lt n (by decide)
  have hsum : 60 * (n % 3600 / 60) + n % 60 = n % 3600 := by omega
  have htotal := Nat.div_add_mod n 3600
  cases hv with
  | whole =>
    refine ⟨_, _, _, _, humanReadable_whole n, isClock_clockParts _ _ _, hminutes, hseconds, hsum,
      fun _ => exactHours_whole, fun _ => ?_⟩
    omega
  | @double x hx =>
    obtain ⟨hours, htext, hhours⟩ := exists_humanReadable_double (isWhole_of_toInt? hx)
    refine ⟨_, _, _, _, htext, isClock_clockParts _ _ _, hminutes, hseconds, hsum, ?_⟩
    have hiff : ExactHours (.double x) n ↔ hours = n / 3600 := by
      refine ⟨fun hexact => ?_, ?_⟩
      · exact Int.ofNat_inj.mp (Option.some.inj (hhours.symm.trans (hexact x rfl)))
      · rintro rfl _ ⟨⟩
        exact hhours
    rw [hiff]
    omega

theorem readable_inj (hv : IsSeconds n v) (hw : IsSeconds k w) (hev : ExactHours v n)
    (hew : ExactHours w k) (heq : readable v = readable w) : n = k := by
  obtain ⟨h, m, s, text, htext, hclock, -, -, -, hn⟩ := exists_readable hv
  obtain ⟨h', m', s', text', htext', hclock', -, -, -, hk⟩ := exists_readable hw
  rw [htext, htext'] at heq
  cases heq
  obtain ⟨rfl, rfl, rfl⟩ := hclock.inj hclock'
  exact (hn.mpr hev).symm.trans (hk.mpr hew)

/-- A whole number of seconds is shown as hours, minutes and seconds, a field in front only if it is
not zero, with fewer than sixty minutes and seconds. The minutes and seconds are right for every
one. The text shows the number just if its hours are exact, as those of every whole number are, and
of every double below 2 ^ 63; different numbers with exact hours have different texts. -/
theorem readable_seconds (hv : IsSeconds n v) :
    (∃ h m s text, readable v = .ok text ∧ IsClock h m s text ∧ m < 60 ∧ s < 60 ∧
      60 * m + s = n % 3600 ∧ (3600 * h + 60 * m + s = n ↔ ExactHours v n)) ∧
    (v = .int n ∨ n < pow2 63 → ExactHours v n) ∧
    ∀ k w, IsSeconds k w → ExactHours v n → ExactHours w k → readable v = readable w → n = k := by
  refine ⟨exists_readable hv, ?_, fun k w hw => readable_inj hv hw⟩
  rintro (rfl | hn)
  · exact exactHours_whole
  · exact exactHours_of_lt hv hn

/-- An hour, two minutes and five seconds, as a whole number and as a double. -/
theorem readable_seconds_samples :
    IsSeconds 3725 (.int 3725) ∧ IsSeconds 3725 (.double 3725.0) ∧
      (∃ h m s text, readable (.int 3725) = .ok text ∧ IsClock h m s text ∧
        3600 * h + 60 * m + s = 3725) ∧
      ∃ h m s text, readable (.double 3725.0) = .ok text ∧ IsClock h m s text ∧
        3600 * h + 60 * m + s = 3725 := by
  have hwhole : IsSeconds 3725 (.int 3725) := .whole
  have hdouble : IsSeconds 3725 (.double 3725.0) := .double (by decide +kernel)
  obtain ⟨⟨h, m, s, text, htext, hclock, -, -, -, hsum⟩, hexact, -⟩ := readable_seconds hwhole
  obtain ⟨⟨h', m', s', text', htext', hclock', -, -, -, hsum'⟩, hexact', -⟩ :=
    readable_seconds hdouble
  exact ⟨hwhole, hdouble, ⟨h, m, s, text, htext, hclock, hsum.mpr (hexact (.inl rfl))⟩,
    h', m', s', text', htext', hclock', hsum'.mpr (hexact' (.inr (by decide)))⟩

/-- The hours of ten thousand million million million seconds are short by more than a hundred. -/
theorem readable_short :
    IsSeconds (pow10 22) (.double 1e22) ∧
      readable (.double 1e22) = .ok "2777777777777777664h 46m 40s" ∧
        3600 * 2777777777777777664 + 60 * 46 + 40 ≠ pow10 22 := by
  refine ⟨.double (by decide +kernel), by decide +kernel, by decide⟩

end Funnel.Display
