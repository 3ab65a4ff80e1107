import Funnel.Proofs.Calendar.Months
import Funnel.Series.Bucket

/-!
# Series of buckets

Buckets keep the order of the days. A series breaks off only where a bucket has no next one, so it
is complete as soon as its last bucket has one.
-/

set_option autoImplicit false

namespace Funnel

open Calendar

namespace Calendar.Date

theorem dayNumber_monthStart (d : Date) :
    d.monthStart.dayNumber = daysBeforeYear d.year + daysBeforeMonth d.year d.month + 1 := by
  obtain ⟨-, -, -, -, hlow, -⟩ := d.month_spec
  have hstart : d.monthStart.dayNumber = d.dayNumber - (d.day - 1) := rfl
  have hday : d.day = d.dayNumber - daysBeforeYear d.year - daysBeforeMonth d.year d.month := rfl
  omega

theorem monthStart_mono {d e : Date} (h : d ≤ e) : d.monthStart ≤ e.monthStart := by
  rw [le_iff, dayNumber_monthStart, dayNumber_monthStart]
  obtain ⟨hyear, -, hm1, hm12, -, -⟩ := d.month_spec
  rcases month_le_month h with hlt | ⟨heq, hle⟩
  · have hmonths := @daysBeforeMonth_mono d.year d.month 13 hm1 (by omega)
    have hnext := daysBeforeYear_succ hyear
    have hyears : daysBeforeYear (d.year + 1) ≤ daysBeforeYear e.year := daysBeforeYear_mono hlt
    rw [daysBeforeMonth_thirteen] at hmonths
    omega
  · have hmonths := @daysBeforeMonth_mono d.year d.month e.month hm1 hle
    rw [← heq]
    omega

theorem weekStart_mono {d e : Date} (h : d ≤ e) : d.weekStart ≤ e.weekStart := by
  have hle : d.dayNumber ≤ e.dayNumber := h
  change d.dayNumber - (d.dayNumber + 6) % 7 ≤ e.dayNumber - (e.dayNumber + 6) % 7
  omega

end Calendar.Date

theorem bucketStart_mono {d e : Date} (h : d ≤ e) (g : Granularity) :
    bucketStart d g ≤ bucketStart e g := by
  cases g with
  | day => exact h
  | week => exact Date.weekStart_mono h
  | month => exact Date.monthStart_mono h

def Followed (d : Date) (g : Granularity) : Prop := ∃ next, nextBucket d g = .ok next

theorem exists_elim_iff {d? : Option Date} {e : Fault} :
    (∃ next, d?.elim (.error e) Except.ok = .ok next) ↔ d?.isSome = true := by
  cases d? <;> simp

theorem followed_day_iff {d : Date} : Followed d .day ↔ d.dayNumber + 1 ≤ lastDay := by
  rw [Followed, nextBucket, exists_elim_iff, Date.addDays?, Date.ofDayNumber?_isSome]
  omega

theorem followed_week_iff {d : Date} : Followed d .week ↔ d.dayNumber + 7 ≤ lastDay := by
  rw [Followed, nextBucket, exists_elim_iff, Date.addDays?, Date.ofDayNumber?_isSome]
  omega

theorem Calendar.Date.ofCivil?_first_isSome {y m : Nat} (hy : 1 ≤ y) (hlast : y ≤ 9999)
    (hm : 1 ≤ m) (hm12 : m ≤ 12) : (Date.ofCivil? y m 1).isSome = true := by
  have hmonth := one_le_daysInMonth y m
  have hmonths := @daysBeforeMonth_mono y (m + 1) 13 (by omega) (by omega)
  have hsucc := daysBeforeMonth_succ hm y
  have hnext := daysBeforeYear_succ hy
  have hyears : daysBeforeYear (y + 1) ≤ daysBeforeYear 10000 := daysBeforeYear_mono (by omega)
  have hend : daysBeforeYear 10000 = lastDay := by decide
  rw [daysBeforeMonth_thirteen] at hmonths
  rw [Date.ofCivil?, if_pos ⟨hy, hlast, hm, hm12, Nat.le_refl 1, hmonth⟩,
    Date.ofDayNumber?_isSome, Date.dayNumberOf]
  omega

/-- Only the last month of all has no next one. -/
theorem followed_month_iff {d : Date} : Followed d .month ↔ ¬(d.year = 9999 ∧ d.month = 12) := by
  obtain ⟨hy, hlast, hm, hm12, -, -⟩ := d.month_spec
  rw [Followed, nextBucket, exists_elim_iff, nextMonth?]
  split
  · rename_i hdecember
    constructor
    · rintro h ⟨hyear, -⟩
      rw [hyear] at h
      exact absurd h (by decide)
    · intro h
      exact Date.ofCivil?_first_isSome (by omega) (by omega) (by omega) (by omega)
  · rename_i hother
    constructor
    · rintro - ⟨-, hmonth⟩
      exact hother hmonth
    · intro _
      exact Date.ofCivil?_first_isSome hy hlast (by omega) (by omega)

/-- Of two buckets the earlier one has a next one if the later one has. -/
theorem Followed.of_le {d e : Date} {g : Granularity} (h : Followed e g) (hle : d ≤ e) :
    Followed d g := by
  have hdays : d.dayNumber ≤ e.dayNumber := hle
  cases g with
  | day =>
    rw [followed_day_iff] at h ⊢
    omega
  | week =>
    rw [followed_week_iff] at h ⊢
    omega
  | month =>
    rw [followed_month_iff] at h ⊢
    obtain ⟨-, hlast, -, hm12, -, -⟩ := e.month_spec
    have := Date.month_le_month hle
    omega

theorem exists_seriesFrom {g : Granularity} {last : Date} (h : Followed last g) (fuel : Nat)
    (current : Date) : ∃ series, seriesFrom g last fuel current = .ok series ∧
      (current ≤ last → 0 < fuel → series.head? = some current) := by
  -- the fuel only ends the run; what could fail is a step out of the calendar
  induction fuel generalizing current with
  | zero => exact ⟨[], rfl, fun _ hfuel => absurd hfuel (Nat.lt_irrefl 0)⟩
  | succ fuel ih =>
    rw [seriesFrom]
    split
    · rename_i hle
      obtain ⟨next, hnext⟩ := h.of_le hle
      obtain ⟨rest, hrest, -⟩ := ih next
      refine ⟨current :: rest, ?_, fun _ _ => rfl⟩
      simp only [hnext, hrest, Except.bind, bind]
    · rename_i hnot
      exact ⟨[], rfl, fun hle => absurd hle hnot⟩

/-- A range whose last bucket has a next one has a series, from the bucket of its first day on. -/
theorem exists_bucketSeries {start finish : Date} {g : Granularity} (hle : start ≤ finish)
    (h : Followed (bucketStart finish g) g) : ∃ series last,
      bucketSeries start finish g = .ok series ∧ series.head? = some (bucketStart start g) ∧
      series.getLast? = some last := by
  have hfirst : bucketStart start g ≤ bucketStart finish g := bucketStart_mono hle g
  have hdays : (bucketStart start g).dayNumber ≤ (bucketStart finish g).dayNumber := hfirst
  obtain ⟨series, hseries, hhead⟩ := exists_seriesFrom h
    ((bucketStart finish g).dayNumber + 2 - (bucketStart start g).dayNumber) (bucketStart start g)
  replace hhead := hhead hfirst (by omega)
  cases hlast : series.getLast? with
  | some last => exact ⟨series, last, hseries, hhead, hlast⟩
  | none =>
    rw [List.getLast?_eq_none_iff] at hlast
    rw [hlast] at hhead
    cases hhead

end Funnel
