import Funnel.Calendar.Date

/-!
# Years and months of a day

The year and the month that are read off the number of a day are those that hold it. Months are
therefore in the order of their days, and a month has a next one unless it is the very last.
-/

set_option autoImplicit false

namespace Funnel.Calendar

theorem succ_div_eq (z d : Nat) :
    (z + 1) / d = z / d + if (z + 1) % d = 0 then 1 else 0 := by
  rw [Nat.succ_div]
  simp only [Nat.dvd_iff_mod_eq_zero]

theorem daysBeforeYear_succ {y : Nat} (h : 1 ≤ y) :
    daysBeforeYear (y + 1) = daysBeforeYear y + if isLeap y then 366 else 365 := by
  obtain ⟨z, rfl⟩ : ∃ z, y = z + 1 := ⟨y - 1, by omega⟩
  have h4 := succ_div_eq z 4
  have h100 := succ_div_eq z 100
  have h400 := succ_div_eq z 400
  have hcentury : (z + 1) % 100 = 0 → (z + 1) % 4 = 0 := by omega
  have hcycle : (z + 1) % 400 = 0 → (z + 1) % 100 = 0 := by omega
  have hle : z / 100 ≤ z / 4 := by omega
  simp only [daysBeforeYear, Nat.add_sub_cancel, isLeap, Bool.and_eq_true, Bool.or_eq_true,
    beq_iff_eq, bne_iff_ne, h4, h100, h400]
  clear h4 h100 h400
  by_cases hfour : (z + 1) % 4 = 0
  · by_cases hhundred : (z + 1) % 100 = 0
    · by_cases hmore : (z + 1) % 400 = 0
      · simp [hfour, hhundred, hmore]
        omega
      · simp [hfour, hhundred, hmore]
        omega
    · have hmore : (z + 1) % 400 ≠ 0 := fun h => hhundred (hcycle h)
      simp [hfour, hhundred, hmore]
      omega
  · have hhundred : (z + 1) % 100 ≠ 0 := fun h => hfour (hcentury h)
    have hmore : (z + 1) % 400 ≠ 0 := fun h => hhundred (hcycle h)
    simp [hfour, hhundred, hmore]
    omega

theorem daysBeforeYear_le_succ (y : Nat) : daysBeforeYear y ≤ daysBeforeYear (y + 1) := by
  cases y with
  | zero => decide
  | succ y =>
    rw [daysBeforeYear_succ (Nat.succ_le_succ (Nat.zero_le y))]
    exact Nat.le_add_right _ _

theorem daysBeforeYear_mono {y z : Nat} (h : y ≤ z) : daysBeforeYear y ≤ daysBeforeYear z := by
  induction h with
  | refl => exact Nat.le_refl _
  | step _ ih => exact Nat.le_trans ih (daysBeforeYear_le_succ _)

theorem daysBeforeYear_bounds (z : Nat) :
    146097 * z ≤ 400 * daysBeforeYear (z + 1) + 699 ∧
      400 * daysBeforeYear (z + 1) ≤ 146097 * z + 396 := by
  simp only [daysBeforeYear, Nat.add_sub_cancel]
  omega

theorem yearOfDay_spec {n : Nat} (h : 1 ≤ n) :
    1 ≤ yearOfDay n ∧ daysBeforeYear (yearOfDay n) < n ∧
      n ≤ daysBeforeYear (yearOfDay n + 1) := by
  unfold yearOfDay
  simp only
  generalize hz : (n - 1) * 400 / 146097 = z
  have hlow : 146097 * z ≤ (n - 1) * 400 := by omega
  have hhigh : (n - 1) * 400 < 146097 * (z + 1) := by omega
  split
  · rename_i hle
    cases z with
    | zero => exact absurd hle (by simp [daysBeforeYear]; omega)
    | succ z =>
      have hbounds := daysBeforeYear_bounds z
      simp only [Nat.add_sub_cancel]
      exact ⟨by omega, by omega, hle⟩
  · rename_i hlt
    split
    · rename_i hafter
      have hbounds := daysBeforeYear_bounds (z + 1 + 1)
      exact ⟨by omega, hafter, by omega⟩
    · rename_i hbefore
      exact ⟨by omega, by omega, by omega⟩

theorem one_le_daysInMonth (y m : Nat) : 1 ≤ daysInMonth y m := by
  unfold daysInMonth
  split
  · split <;> omega
  all_goals omega

theorem daysBeforeMonth_succ {m : Nat} (h : 1 ≤ m) (y : Nat) :
    daysBeforeMonth y (m + 1) = daysBeforeMonth y m + daysInMonth y m := by
  obtain ⟨k, rfl⟩ : ∃ k, m = k + 1 := ⟨m - 1, by omega⟩
  rfl

theorem daysBeforeMonth_mono {y m k : Nat} (h1 : 1 ≤ m) (h : m ≤ k) :
    daysBeforeMonth y m ≤ daysBeforeMonth y k := by
  induction h with
  | refl => exact Nat.le_refl _
  | @step k hk ih =>
    rw [daysBeforeMonth_succ (Nat.le_trans h1 hk)]
    omega

theorem daysBeforeMonth_thirteen (y : Nat) :
    daysBeforeMonth y 13 = if isLeap y then 366 else 365 := by
  simp only [daysBeforeMonth, daysInMonth]
  split <;> rfl

/-- The month that is found for a day of a year holds it. -/
theorem monthOfYearDay_spec {y k left m : Nat} (h1 : 1 ≤ m) (hm : daysBeforeMonth y m < k)
    (hlast : k ≤ daysBeforeMonth y (m + left + 1)) :
    1 ≤ monthOfYearDay y k left m ∧ monthOfYearDay y k left m ≤ m + left ∧
      daysBeforeMonth y (monthOfYearDay y k left m) < k ∧
      k ≤ daysBeforeMonth y (monthOfYearDay y k left m + 1) := by
  induction left generalizing m with
  | zero => exact ⟨h1, Nat.le_refl _, hm, hlast⟩
  | succ left ih =>
    rw [monthOfYearDay]
    split
    · rename_i hle
      exact ⟨h1, by omega, hm, hle⟩
    · rename_i hlt
      have hnext : m + (left + 1) + 1 = m + 1 + left + 1 := by omega
      rw [hnext] at hlast
      have := ih (by omega) (by omega) hlast
      exact ⟨this.1, by omega, this.2.2⟩

namespace Date

theorem ne_of_lt {d e : Date} (h : d < e) : d ≠ e := by
  rintro rfl
  exact Nat.lt_irrefl _ h

theorem month_spec (d : Date) : 1 ≤ d.year ∧ d.year ≤ 9999 ∧ 1 ≤ d.month ∧ d.month ≤ 12 ∧
    daysBeforeYear d.year + daysBeforeMonth d.year d.month < d.dayNumber ∧
    d.dayNumber ≤ daysBeforeYear d.year + daysBeforeMonth d.year (d.month + 1) := by
  obtain ⟨hyear, hlow, hhigh⟩ := yearOfDay_spec d.one_le
  change 1 ≤ d.year at hyear
  change daysBeforeYear d.year < d.dayNumber at hlow
  change d.dayNumber ≤ daysBeforeYear (d.year + 1) at hhigh
  have hlast : d.year ≤ 9999 := by
    apply Nat.le_of_not_lt
    intro h
    have hend : daysBeforeYear 10000 = lastDay := by decide
    have hmono : daysBeforeYear 10000 ≤ daysBeforeYear d.year :=
      daysBeforeYear_mono (Nat.succ_le_of_lt h)
    have hd := d.le_last
    rw [hend] at hmono
    omega
  have hk : d.yearDay = d.dayNumber - daysBeforeYear d.year := rfl
  have hmonths : d.yearDay ≤ daysBeforeMonth d.year (1 + 11 + 1) := by
    rw [daysBeforeMonth_thirteen]
    rw [daysBeforeYear_succ hyear] at hhigh
    omega
  have hzero : daysBeforeMonth d.year 1 = 0 := rfl
  obtain ⟨hm1, hm12, hmlow, hmhigh⟩ :=
    @monthOfYearDay_spec d.year d.yearDay 11 1 (by omega) (by omega) hmonths
  change 1 ≤ d.month at hm1
  change d.month ≤ 12 at hm12
  change daysBeforeMonth d.year d.month < d.yearDay at hmlow
  change d.yearDay ≤ daysBeforeMonth d.year (d.month + 1) at hmhigh
  exact ⟨hyear, hlast, hm1, hm12, by omega, by omega⟩

theorem month_le_month {d e : Date} (h : d ≤ e) :
    d.year < e.year ∨ d.year = e.year ∧ d.month ≤ e.month := by
  obtain ⟨hdy, -, hd1, hd12, hdlow, -⟩ := d.month_spec
  obtain ⟨hey, -, he1, he12, -, hehigh⟩ := e.month_spec
  have hle : d.dayNumber ≤ e.dayNumber := h
  rcases Nat.lt_trichotomy d.year e.year with hlt | heq | hgt
  · exact .inl hlt
  · refine .inr ⟨heq, Nat.le_of_not_lt fun hmonth => ?_⟩
    have hmono := @daysBeforeMonth_mono d.year (e.month + 1) d.month (by omega) hmonth
    rw [← heq] at hehigh
    omega
  · exfalso
    have hyears := daysBeforeYear_mono (Nat.succ_le_of_lt hgt)
    have hyear := daysBeforeYear_succ hey
    have hmonths := @daysBeforeMonth_mono e.year (e.month + 1) 13 (by omega) (by omega)
    rw [daysBeforeMonth_thirteen] at hmonths
    simp only [Nat.succ_eq_add_one] at hyears
    omega

theorem daysBeforeMonth_succ_le {y m : Nat} (hy : 1 ≤ y) (hm : 1 ≤ m) (hm12 : m ≤ 12) :
    daysBeforeYear y + daysBeforeMonth y (m + 1) ≤ daysBeforeYear (y + 1) := by
  have hmonths := @daysBeforeMonth_mono y (m + 1) 13 (by omega) (by omega)
  rw [daysBeforeMonth_thirteen] at hmonths
  rw [daysBeforeYear_succ hy]
  omega

theorem month_unique {d : Date} {y m : Nat} (hy : 1 ≤ y) (hm : 1 ≤ m) (hm12 : m ≤ 12)
    (hlow : daysBeforeYear y + daysBeforeMonth y m < d.dayNumber)
    (hhigh : d.dayNumber ≤ daysBeforeYear y + daysBeforeMonth y (m + 1)) :
    d.year = y ∧ d.month = m := by
  obtain ⟨hdy, -, hd1, hd12, hdlow, hdhigh⟩ := d.month_spec
  have hown := daysBeforeMonth_succ_le hdy hd1 hd12
  have hother := daysBeforeMonth_succ_le hy hm hm12
  have hyear : d.year = y := by
    rcases Nat.lt_trichotomy d.year y with hlt | heq | hgt
    · have hyears := daysBeforeYear_mono (Nat.succ_le_of_lt hlt)
      simp only [Nat.succ_eq_add_one] at hyears
      omega
    · exact heq
    · have hyears := daysBeforeYear_mono (Nat.succ_le_of_lt hgt)
      simp only [Nat.succ_eq_add_one] at hyears
      omega
  rw [← hyear] at hlow hhigh
  refine ⟨hyear, ?_⟩
  rcases Nat.lt_trichotomy d.month m with hlt | heq | hgt
  · have hmonths := @daysBeforeMonth_mono d.year (d.month + 1) m (by omega) hlt
    omega
  · exact heq
  · have hmonths := @daysBeforeMonth_mono d.year (m + 1) d.month (by omega) hgt
    omega

/-- Year, month and day of the month make up the number of the day. -/
theorem day_spec (d : Date) : 1 ≤ d.day ∧ d.day ≤ daysInMonth d.year d.month ∧
    dayNumberOf d.year d.month d.day = d.dayNumber := by
  obtain ⟨-, -, hm, -, hlow, hhigh⟩ := d.month_spec
  rw [daysBeforeMonth_succ hm] at hhigh
  have hday : d.day = d.dayNumber - daysBeforeYear d.year - daysBeforeMonth d.year d.month := rfl
  unfold dayNumberOf
  omega

theorem ofCivil?_self (d : Date) : ofCivil? d.year d.month d.day = some d := by
  obtain ⟨hyear, hyear', hmonth, hmonth', -⟩ := d.month_spec
  obtain ⟨hday, hday', hnumber⟩ := d.day_spec
  unfold ofCivil?
  rw [if_pos ⟨hyear, hyear', hmonth, hmonth', hday, hday'⟩, hnumber]
  unfold ofDayNumber?
  have hone := d.one_le
  have hlast := d.le_last
  rw [dif_pos (by omega)]
  rfl

end Date

end Funnel.Calendar
