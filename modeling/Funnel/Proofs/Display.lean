import Funnel.Display
import Funnel.Proofs.Fault
import Funnel.Proofs.Number.Nearest

/-!
# Every figure can be shown

A double is shown with any unit. Only the parts of a clock ask for a finite one.
-/

set_option autoImplicit false

namespace Funnel

open Number

namespace Figure

variable {x : Float}

theorem exists_cut (hx : isFinite x = true) : ∃ n, cut (.double x) = .ok n := by
  obtain ⟨n, hn⟩ : ∃ n, truncate? x = some n := by
    unfold isFinite at hx
    split at hx
    · rename_i hreading
      rw [truncate?, fraction?, hreading]
      exact ⟨_, rfl⟩
    · cases hx
  exact ⟨n, by simp only [cut, hn]⟩

theorem exists_wholeDouble {n : Nat} (h : n < overflow) : ∃ y, wholeDouble n = .ok y := by
  refine ⟨_, if_pos (isFinite_nearest Nat.one_pos ?_ _)⟩
  rwa [Nat.mul_one]

theorem exists_div_whole (x : Float) {n : Nat} (h : n < overflow) :
    ∃ y, div (.double x) (.whole n) = .ok (.double y) := by
  obtain ⟨y, hy⟩ := exists_wholeDouble h
  exact ⟨x / y, Fault.bind_eq_ok_iff.mpr ⟨y, hy, rfl⟩⟩

theorem exists_mul_whole (x : Float) {n : Nat} (h : n < overflow) :
    ∃ y, mul (.double x) (.whole n) = .ok (.double y) := by
  obtain ⟨y, hy⟩ := exists_wholeDouble h
  exact ⟨x * y, Fault.bind_eq_ok_iff.mpr ⟨y, hy, rfl⟩⟩

theorem exists_isBelow_whole (x : Float) (n : Int) :
    ∃ b, isBelow (.double x) (.whole n) = .ok b := by
  unfold isBelow
  split
  · exact ⟨_, rfl⟩
  · exact ⟨_, rfl⟩

end Figure

namespace Display

open Figure

variable {x : Float}

theorem lt_overflow_of_le {n : Nat} (h : n ≤ 3600) : n < overflow :=
  Nat.lt_of_le_of_lt h (by decide +kernel)

/-- The parts of a clock are whole numbers of hours, minutes and seconds. -/
theorem exists_humanReadable (hx : isFinite x = true) :
    ∃ s, humanReadable (.double x) = .ok s := by
  have hparts : ∀ {y : Float}, isFinite y = true → ∀ {k : Nat}, 0 < k → k ≤ 3600 →
      isFinite (floorDivMod y k).1 = true ∧ isFinite (floorDivMod y k).2 = true :=
    fun hy _ hk hle => isFinite_floorDivMod hy hk (lt_overflow_of_le hle)
  have hhour := hparts hx (k := 3600) (by decide) (by decide)
  have hminute := hparts hhour.2 (k := 60) (by decide) (by decide)
  have hsecond := hparts hx (k := 60) (by decide) (by decide)
  obtain ⟨hours, hhours⟩ := exists_cut hhour.1
  obtain ⟨minutes, hminutes⟩ := exists_cut hminute.1
  obtain ⟨seconds, hseconds⟩ := exists_cut hsecond.2
  refine Fault.exists_bind_eq_ok rfl (Fault.exists_bind_eq_ok hhours ?_)
  refine Fault.exists_bind_eq_ok rfl (Fault.exists_bind_eq_ok rfl ?_)
  refine Fault.exists_bind_eq_ok hminutes (Fault.exists_bind_eq_ok rfl ?_)
  exact Fault.exists_bind_eq_ok hseconds ⟨_, rfl⟩

theorem exists_inMinutes (suffix : String) (places : Nat) (x : Float) :
    ∃ s, (do withSuffix suffix places (← inMinutes (.double x))) = .ok s := by
  obtain ⟨y, hy⟩ := exists_div_whole (n := 60) x (lt_overflow_of_le (by decide))
  exact Fault.exists_bind_eq_ok hy ⟨_, rfl⟩

theorem exists_inHours (suffix : String) (places : Nat) (x : Float) :
    ∃ s, (do withSuffix suffix places (← inHours (.double x))) = .ok s := by
  obtain ⟨y, hy⟩ := exists_div_whole (n := 3600) x (lt_overflow_of_le (by decide))
  exact Fault.exists_bind_eq_ok hy ⟨_, rfl⟩

theorem exists_duration (format : Option TimeFormat) (hx : isFinite x = true) :
    ∃ s, duration format (.double x) = .ok s := by
  rcases format with _ | _ | _ | _
  case none =>
    obtain ⟨short, hshort⟩ := exists_isBelow_whole x 60
    obtain ⟨medium, hmedium⟩ := exists_isBelow_whole x 3600
    refine Fault.exists_bind_eq_ok hshort ?_
    split
    · exact ⟨_, rfl⟩
    · refine Fault.exists_bind_eq_ok hmedium ?_
      split
      · exact exists_inMinutes "m" 1 x
      · exact exists_inHours "h" 1 x
  case some.minutes => exact exists_inMinutes "m" 1 x
  case some.hours => exact exists_inHours "h" 2 x
  case some.humanReadable => exact exists_humanReadable hx

theorem exists_ofDouble (unit : MetricUnit) (format : Option TimeFormat)
    (hx : unit = .seconds → isFinite x = true) : ∃ s, ofDouble unit format x = .ok s := by
  cases unit with
  | seconds => exact exists_duration format (hx rfl)
  | currency => exact ⟨_, rfl⟩
  | days => exact ⟨_, rfl⟩
  | hours => exact ⟨_, rfl⟩
  | percent =>
    obtain ⟨y, hy⟩ := exists_mul_whole (n := 100) x (lt_overflow_of_le (by decide))
    exact Fault.exists_bind_eq_ok hy ⟨_, rfl⟩
  | count =>
    refine Fault.exists_bind_eq_ok rfl ?_
    split
    · exact ⟨_, rfl⟩
    · exact ⟨_, rfl⟩

end Display

end Funnel
