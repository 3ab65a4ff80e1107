import Funnel.Proofs.Series.Partition

/-!
# How many buckets a chart has

A series has one bucket more than there are steps from its first bucket to its last. Since a bucket
has a least number of days, the buckets of a range are few, and those of the selected granularity
fewer still.
-/

set_option autoImplicit false

namespace Funnel

open Calendar

variable {start finish last b : Date} {g : Granularity} {series : List Date}

def bucketCount (start finish : Date) : Granularity → Int
  | .day => start.daysTo finish + 1
  | .week => (bucketStart start .week).daysTo (bucketStart finish .week) / 7 + 1
  | .month => 12 * ((finish.year : Int) - start.year) + ((finish.month : Int) - start.month) + 1

theorem bucketCount_self (d : Date) (g : Granularity) : bucketCount d d g = 1 := by
  cases g <;> simp [bucketCount, Date.daysTo]

/-- From the next bucket on there is one bucket less. -/
theorem bucketCount_of_nextBucket {next : Date} (hb : bucketStart b g = b)
    (h : nextBucket b g = .ok next) (last : Date) :
    bucketCount b last g = bucketCount next last g + 1 := by
  have hnext := bucketStart_of_nextBucket hb h
  rw [nextBucket_eq_ok_iff hb] at h
  cases g with
  | day =>
    have hday : next.dayNumber = b.dayNumber + 1 := h
    simp only [bucketCount, Date.daysTo]
    omega
  | week =>
    have hweek : next.dayNumber = (bucketStart b .week).dayNumber + 7 := h
    simp only [bucketCount, Date.daysTo, hb, hnext] at hweek ⊢
    omega
  | month =>
    have hmonth := (month_of_bucketEnd h).1
    simp only [bucketCount]
    omega

theorem bucketCount_bucketStart (start finish : Date) (g : Granularity) :
    bucketCount (bucketStart start g) (bucketStart finish g) g = bucketCount start finish g := by
  cases g with
  | day => rfl
  | week => simp only [bucketCount, bucketStart_bucketStart]
  | month =>
    have hsame := fun d : Date => same_month (Nat.le_refl d.monthStart.dayNumber)
      (bucketStart_lt_bucketEnd d .month)
    simp only [bucketCount, bucketStart, hsame]

theorem BucketRun.length_eq (h : BucketRun g last b series) (hb : bucketStart b g = b) :
    (series.length : Int) = bucketCount b last g := by
  induction h with
  | last => exact (bucketCount_self last g).symm
  | step hnext hle hrest ih =>
    rw [List.length_cons, Int.natCast_succ, ih (bucketStart_of_nextBucket hb hnext),
      bucketCount_of_nextBucket hb hnext]

def Granularity.fewestDays : Granularity → Nat
  | .day => 1
  | .week => 7
  | .month => 28

theorem Granularity.fewestDays_le (g : Granularity) (d : Date) : g.fewestDays ≤ g.days d := by
  cases g with
  | day => exact Nat.le_refl 1
  | week => exact Nat.le_refl 7
  | month =>
    change 28 ≤ daysInMonth d.year d.month
    unfold daysInMonth
    split
    · split <;> omega
    all_goals omega

theorem BucketRun.length_mul_le (h : BucketRun g last b series) (hb : bucketStart b g = b) :
    b.dayNumber + g.fewestDays * series.length ≤ last.dayNumber + g.fewestDays := by
  induction h with
  | last => simp
  | @step b next rest hnext hle hrest ih =>
    have hrun := ih (bucketStart_of_nextBucket hb hnext)
    have hday := (nextBucket_eq_ok_iff hb).mp hnext
    rw [bucketEnd, hb] at hday
    have hfew := g.fewestDays_le b
    rw [List.length_cons, Nat.mul_succ]
    omega

/-- All buckets of a range but the first and the last lie inside it. -/
theorem length_mul_lt (hle : start ≤ finish) (h : bucketSeries start finish g = .ok series) :
    start.dayNumber + g.fewestDays * series.length < finish.dayNumber + 2 * g.fewestDays := by
  have hend : (bucketStart finish g).dayNumber ≤ finish.dayNumber := bucketStart_le finish g
  have hown := bucketStart_bucketStart start g
  have hbehind := lt_bucketEnd start g
  rw [← bucketEnd_bucketStart] at hbehind
  obtain ⟨hrun, -⟩ := run_of_bucketSeries hle h
  generalize bucketStart finish g = last at hrun hend
  generalize bucketStart start g = first at hrun hown hbehind
  cases hrun with
  | last =>
    have hpositive : 0 < g.fewestDays := by cases g <;> decide
    have hdays : start.dayNumber ≤ finish.dayNumber := hle
    rw [List.length_singleton]
    omega
  | step hnext hnextle hrest =>
    -- the first bucket may begin before the range, but the second one begins inside it
    have hrun := hrest.length_mul_le (bucketStart_of_nextBucket hown hnext)
    have hday := (nextBucket_eq_ok_iff hown).mp hnext
    rw [List.length_cons, Nat.mul_succ]
    omega

/-- Charts stay small. A chart that is found for a range has as many buckets as the range touches;
these are at most fourteen for a range of less than sixty days, and at most two more than one for
every 28 days of a longer one. -/
theorem chart_length (hle : start ≤ finish)
    (h : bucketSeries start finish (.select start finish) = .ok series) :
    (series.length : Int) = bucketCount start finish (.select start finish) ∧
    (start.daysTo finish < 60 → series.length ≤ 14) ∧
    (60 ≤ start.daysTo finish → (series.length : Int) ≤ start.daysTo finish / 28 + 2) := by
  obtain ⟨hrun, -⟩ := run_of_bucketSeries hle h
  have hlength := hrun.length_eq (bucketStart_bucketStart start _)
  rw [bucketCount_bucketStart] at hlength
  refine ⟨hlength, ?_⟩
  have hfew := length_mul_lt hle h
  have hspan : start.daysTo finish = finish.dayNumber - start.dayNumber := rfl
  rw [Granularity.select, Granularity.ofSpan] at hfew
  split at hfew
  · simp only [Granularity.fewestDays] at hfew
    omega
  · split at hfew
    · simp only [Granularity.fewestDays] at hfew
      omega
    · split at hfew
      · simp only [Granularity.fewestDays] at hfew
        omega
      · simp only [Granularity.fewestDays] at hfew
        omega

/-- Thirty days from the last of January to the first of March touch three months. -/
theorem chart_length_january : ∃ start finish : Date, ∃ series : List Date,
    Date.ofCivil? 2023 1 31 = some start ∧ Date.ofCivil? 2023 3 1 = some finish ∧
    start ≤ finish ∧ bucketSeries start finish (.select start finish) = .ok series ∧
    series.length = 3 := by
  let start : Date := ⟨738551, by decide, by decide⟩
  let finish : Date := ⟨738580, by decide, by decide⟩
  have hle : start ≤ finish := by decide
  have hend : bucketEnd finish (.select start finish) ≤ lastDay := by decide
  obtain ⟨series, hseries⟩ := (exists_bucketSeries_iff hle).mpr hend
  have hlength := (chart_length hle hseries).1
  have hthree : bucketCount start finish (.select start finish) = 3 := by decide
  rw [hthree] at hlength
  exact ⟨start, finish, series, by decide, by decide, hle, hseries, by omega⟩

end Funnel
