import Funnel.Proofs.Fault
import Funnel.Proofs.Series.Buckets
import Mathlib.Data.List.Chain

/-!
# Buckets cut a range into windows

A bucket is a run of days with one first day, and the next bucket begins right behind it. A series
therefore goes from bucket to bucket without a gap, and its windows, cut to the range, hold every
day of the range once.
-/

set_option autoImplicit false

namespace Funnel

open Calendar

def Granularity.days (g : Granularity) (d : Date) : Nat :=
  match g with
  | .day => 1
  | .week => 7
  | .month => daysInMonth d.year d.month

/-- The number of the first day after the bucket of a day, which may be beyond the calendar. -/
def bucketEnd (d : Date) (g : Granularity) : Nat := (bucketStart d g).dayNumber + g.days d

namespace Calendar.Date

theorem dayNumber_weekStart (d : Date) :
    d.weekStart.dayNumber = d.dayNumber - (d.dayNumber + 6) % 7 := rfl

theorem bucketEnd_month (d : Date) : bucketEnd d .month =
    daysBeforeYear d.year + daysBeforeMonth d.year (d.month + 1) + 1 := by
  obtain ⟨-, -, hm, -, -, -⟩ := d.month_spec
  have hstart := d.dayNumber_monthStart
  have hnext := daysBeforeMonth_succ hm d.year
  change d.monthStart.dayNumber + daysInMonth d.year d.month = _
  omega

end Calendar.Date

theorem bucketStart_le (d : Date) (g : Granularity) : bucketStart d g ≤ d := by
  cases g with
  | day => exact Nat.le_refl d.dayNumber
  | week => exact Nat.sub_le d.dayNumber _
  | month => exact Nat.sub_le d.dayNumber _

theorem lt_bucketEnd (d : Date) (g : Granularity) : d.dayNumber < bucketEnd d g := by
  cases g with
  | day => exact Nat.lt_succ_self d.dayNumber
  | week =>
    have hstart := d.dayNumber_weekStart
    change d.dayNumber < d.weekStart.dayNumber + 7
    omega
  | month =>
    obtain ⟨-, -, -, -, -, hhigh⟩ := d.month_spec
    rw [d.bucketEnd_month]
    omega

theorem same_month {d e : Date} (h : d.monthStart ≤ e) (hend : e.dayNumber < bucketEnd d .month) :
    e.year = d.year ∧ e.month = d.month := by
  obtain ⟨hy, -, hm, hm12, -, -⟩ := d.month_spec
  rw [Date.le_iff, d.dayNumber_monthStart] at h
  rw [d.bucketEnd_month] at hend
  exact @Date.month_unique e d.year d.month hy hm hm12 (by omega) (by omega)

/-- The days from the start of a bucket to its end belong to it. -/
theorem same_bucket {d e : Date} {g : Granularity} (h : bucketStart d g ≤ e)
    (hend : e.dayNumber < bucketEnd d g) :
    bucketStart e g = bucketStart d g ∧ bucketEnd e g = bucketEnd d g := by
  cases g with
  | day =>
    have hle : d.dayNumber ≤ e.dayNumber := h
    have hlt : e.dayNumber < d.dayNumber + 1 := hend
    obtain rfl : e = d := Date.ext_day (by omega)
    exact ⟨rfl, rfl⟩
  | week =>
    have hle : d.weekStart.dayNumber ≤ e.dayNumber := h
    have hlt : e.dayNumber < d.weekStart.dayNumber + 7 := hend
    have hd := d.dayNumber_weekStart
    have he := e.dayNumber_weekStart
    have hone := d.one_le
    have hsame : e.weekStart.dayNumber = d.weekStart.dayNumber := by omega
    exact ⟨Date.ext_day hsame, congrArg (· + 7) hsame⟩
  | month =>
    obtain ⟨hyear, hmonth⟩ := same_month h hend
    have hstart : e.monthStart = d.monthStart := by
      apply Date.ext_day
      rw [e.dayNumber_monthStart, d.dayNumber_monthStart, hyear, hmonth]
    exact ⟨hstart, by rw [e.bucketEnd_month, d.bucketEnd_month, hyear, hmonth]⟩

theorem bucketStart_lt_bucketEnd (d : Date) (g : Granularity) :
    (bucketStart d g).dayNumber < bucketEnd d g :=
  Nat.lt_of_le_of_lt (bucketStart_le d g) (lt_bucketEnd d g)

theorem bucketStart_bucketStart (d : Date) (g : Granularity) :
    bucketStart (bucketStart d g) g = bucketStart d g :=
  (same_bucket (Nat.le_refl (bucketStart d g).dayNumber) (bucketStart_lt_bucketEnd d g)).1

theorem bucketEnd_bucketStart (d : Date) (g : Granularity) :
    bucketEnd (bucketStart d g) g = bucketEnd d g :=
  (same_bucket (Nat.le_refl (bucketStart d g).dayNumber) (bucketStart_lt_bucketEnd d g)).2

theorem elim_ofDayNumber?_eq_ok_iff {n : Nat} {e : Fault} {d : Date} :
    (Date.ofDayNumber? n).elim (.error e) Except.ok = .ok d ↔ d.dayNumber = n := by
  constructor
  · intro h
    cases hday : Date.ofDayNumber? n with
    | none =>
      rw [hday] at h
      cases h
    | some found =>
      rw [hday] at h
      cases h
      have := Date.dayNumber_of_ofDayNumber? hday
      omega
  · intro h
    have hone := d.one_le
    have hlast := d.le_last
    obtain ⟨found, hfound⟩ := Option.isSome_iff_exists.mp
      (Date.ofDayNumber?_isSome.mpr (show 1 ≤ (n : Int) ∧ (n : Int) ≤ lastDay by omega))
    have hn := Date.dayNumber_of_ofDayNumber? hfound
    rw [hfound, Date.ext_day (show found.dayNumber = d.dayNumber by omega)]
    rfl

theorem dayNumberOf_first (y m : Nat) :
    Date.dayNumberOf y m 1 = daysBeforeYear y + daysBeforeMonth y m + 1 := rfl

theorem nextMonth?_eq (d : Date) : nextMonth? d = Date.ofDayNumber? (bucketEnd d .month : Nat) := by
  obtain ⟨hy, hlast, hm, hm12, -, -⟩ := d.month_spec
  rw [d.bucketEnd_month, nextMonth?]
  split
  · rename_i hdecember
    have hyear := daysBeforeYear_succ hy
    have hmonths := daysBeforeMonth_thirteen d.year
    rw [hdecember, show 12 + 1 = 13 from rfl, Date.ofCivil?]
    split
    · rw [dayNumberOf_first, hyear, hmonths]
      rfl
    · rename_i hbeyond
      have hend : daysBeforeYear 10000 = lastDay := by decide
      have hone := one_le_daysInMonth (d.year + 1) 1
      have hyears : d.year + 1 = 10000 := by omega
      rw [hyears, hend, ← hmonths] at hyear
      symm
      rw [← Option.not_isSome_iff_eq_none, Date.ofDayNumber?_isSome]
      omega
  · rename_i hother
    have hone := one_le_daysInMonth d.year (d.month + 1)
    rw [Date.ofCivil?, if_pos ⟨hy, hlast, by omega, by omega, Nat.le_refl 1, hone⟩,
      dayNumberOf_first]

/-- The next bucket begins right behind a bucket. -/
theorem nextBucket_eq_ok_iff {b next : Date} {g : Granularity} (hb : bucketStart b g = b) :
    nextBucket b g = .ok next ↔ next.dayNumber = bucketEnd b g := by
  rw [← @elim_ofDayNumber?_eq_ok_iff _ (match g with | .month => .badValue | _ => .outOfRange)]
  cases g with
  | day => rfl
  | week =>
    have hstart : b.weekStart = b := hb
    rw [bucketEnd, bucketStart, hstart]
    rfl
  | month => rw [nextBucket, nextMonth?_eq]

theorem followed_iff {b : Date} {g : Granularity} (hb : bucketStart b g = b) :
    Followed b g ↔ bucketEnd b g ≤ lastDay := by
  constructor
  · rintro ⟨next, hnext⟩
    rw [nextBucket_eq_ok_iff hb] at hnext
    rw [← hnext]
    exact next.le_last
  · intro h
    have hlt := lt_bucketEnd b g
    exact ⟨⟨bucketEnd b g, by omega, h⟩, (nextBucket_eq_ok_iff hb).mpr rfl⟩

/-- Behind a month the next one begins, of the same year or of the next. -/
theorem month_of_bucketEnd {b next : Date} (h : next.dayNumber = bucketEnd b .month) :
    12 * next.year + next.month = 12 * b.year + b.month + 1 ∧ next.monthStart = next := by
  obtain ⟨hy, -, hm, hm12, -, -⟩ := b.month_spec
  rw [b.bucketEnd_month] at h
  by_cases hdecember : b.month = 12
  · have hyear := daysBeforeYear_succ hy
    have hmonths := daysBeforeMonth_thirteen b.year
    have hfirst := daysBeforeMonth_succ (Nat.le_refl 1) (b.year + 1)
    have hone := one_le_daysInMonth (b.year + 1) 1
    have hzero : daysBeforeMonth (b.year + 1) 1 = 0 := rfl
    rw [hdecember, hmonths] at h
    obtain ⟨hnexty, hnextm⟩ := @Date.month_unique next (b.year + 1) 1 (by omega) (by omega)
      (by omega) (by omega) (by omega)
    refine ⟨by omega, Date.ext_day ?_⟩
    rw [next.dayNumber_monthStart, hnexty, hnextm]
    omega
  · have hmonths := daysBeforeMonth_succ (show 1 ≤ b.month + 1 by omega) b.year
    have hone := one_le_daysInMonth b.year (b.month + 1)
    obtain ⟨hnexty, hnextm⟩ := @Date.month_unique next b.year (b.month + 1) hy (by omega)
      (by omega) (by omega) (by omega)
    refine ⟨by omega, Date.ext_day ?_⟩
    rw [next.dayNumber_monthStart, hnexty, hnextm, h]

theorem bucketStart_of_nextBucket {b next : Date} {g : Granularity} (hb : bucketStart b g = b)
    (h : nextBucket b g = .ok next) : bucketStart next g = next := by
  rw [nextBucket_eq_ok_iff hb] at h
  apply Date.ext_day
  cases g with
  | day => rfl
  | week =>
    have hstart : b.weekStart.dayNumber = b.dayNumber := congrArg Date.dayNumber hb
    have hnext : next.dayNumber = b.weekStart.dayNumber + 7 := h
    have hone := b.one_le
    rw [b.dayNumber_weekStart] at hstart hnext
    change next.dayNumber - (next.dayNumber + 6) % 7 = next.dayNumber
    omega
  | month => exact congrArg Date.dayNumber (month_of_bucketEnd h).2

/-- No bucket begins between a bucket and its next one. -/
theorem next_le_of_lt {b c next : Date} {g : Granularity} (hb : bucketStart b g = b)
    (hc : bucketStart c g = c) (hlt : b < c) (h : nextBucket b g = .ok next) : next ≤ c := by
  rw [nextBucket_eq_ok_iff hb] at h
  apply Nat.le_of_not_lt
  intro hbefore
  have hsame := (@same_bucket b c g (by rw [hb]; exact Nat.le_of_lt hlt) (h ▸ hbefore)).1
  rw [hb, hc] at hsame
  rw [hsame] at hlt
  exact Nat.lt_irrefl _ hlt

/-- The buckets from one on to the last, each the next one of the one before. -/
inductive BucketRun (g : Granularity) (last : Date) : Date → List Date → Prop where
  | last : BucketRun g last last [last]
  | step {b next : Date} {rest : List Date} (h : nextBucket b g = .ok next) (hle : next ≤ last)
      (hrest : BucketRun g last next rest) : BucketRun g last b (b :: rest)

theorem seriesFrom_of_lt {g : Granularity} {last current : Date} (h : last < current)
    (fuel : Nat) : seriesFrom g last fuel current = .ok [] := by
  have hnot : ¬current ≤ last := Nat.not_le_of_lt h
  cases fuel with
  | zero => rfl
  | succ fuel => rw [seriesFrom, if_neg hnot]

/-- With fuel for every day, a series that is found ends with its last bucket. -/
theorem run_of_seriesFrom {g : Granularity} {last : Date} (hlast : bucketStart last g = last)
    {fuel : Nat} {current : Date} {series : List Date} (hstart : bucketStart current g = current)
    (hle : current ≤ last) (hfuel : last.dayNumber < current.dayNumber + fuel)
    (h : seriesFrom g last fuel current = .ok series) :
    BucketRun g last current series ∧ Followed last g := by
  induction fuel generalizing current series with
  | zero =>
    have hdays : current.dayNumber ≤ last.dayNumber := hle
    omega
  | succ fuel ih =>
    rw [seriesFrom, if_pos hle] at h
    obtain ⟨next, hnext, h⟩ := Fault.bind_eq_ok_iff.mp h
    obtain ⟨rest, hrest, h⟩ := Fault.bind_eq_ok_iff.mp h
    cases h
    have hday := (nextBucket_eq_ok_iff hstart).mp hnext
    have hafter := lt_bucketEnd current g
    rcases Nat.eq_or_lt_of_le hle with heq | hlt
    · obtain rfl : current = last := Date.ext_day heq
      have hbehind : current < next := by
        rw [Date.lt_iff, hday]
        exact hafter
      rw [seriesFrom_of_lt hbehind] at hrest
      cases hrest
      exact ⟨.last, next, hnext⟩
    · have hnextle := next_le_of_lt hstart hlast hlt hnext
      obtain ⟨hrun, hfollowed⟩ := ih (bucketStart_of_nextBucket hstart hnext) hnextle
        (by omega) hrest
      exact ⟨.step hnext hnextle hrun, hfollowed⟩

namespace BucketRun

variable {g : Granularity} {last b : Date} {series : List Date}

theorem head (h : BucketRun g last b series) : series.head? = some b := by
  cases h <;> rfl

theorem getLast (h : BucketRun g last b series) : series.getLast? = some last := by
  induction h with
  | last => rfl
  | step hnext hle hrest ih =>
    rw [List.getLast?_cons, ih]
    rfl

theorem own (h : BucketRun g last b series) (hb : bucketStart b g = b) :
    ∀ c ∈ series, bucketStart c g = c := by
  induction h with
  | last =>
    intro c hc
    rw [List.mem_singleton.mp hc]
    exact hb
  | step hnext hle hrest ih =>
    intro c hc
    rcases List.mem_cons.mp hc with rfl | hc
    · exact hb
    · exact ih (bucketStart_of_nextBucket hb hnext) c hc

theorem chain (h : BucketRun g last b series) :
    series.IsChain fun b c => nextBucket b g = .ok c := by
  induction h with
  | last => exact List.isChain_singleton _
  | @step b next rest hnext hle hrest ih =>
    rw [List.isChain_cons]
    refine ⟨fun c hc => ?_, ih⟩
    rw [hrest.head, Option.mem_some] at hc
    exact hc ▸ hnext

theorem increasing (h : BucketRun g last b series) (hb : bucketStart b g = b) :
    (∀ c ∈ series, b ≤ c) ∧ series.Pairwise (· < ·) := by
  induction h with
  | last => simp [Date.le_iff]
  | @step b next rest hnext hle hrest ih =>
    obtain ⟨hall, hpairs⟩ := ih (bucketStart_of_nextBucket hb hnext)
    have hlt : b.dayNumber < next.dayNumber := by
      rw [(nextBucket_eq_ok_iff hb).mp hnext]
      exact lt_bucketEnd b g
    have hbefore : ∀ c ∈ rest, b < c := fun c hc => Nat.lt_of_lt_of_le hlt (hall c hc)
    refine ⟨?_, List.pairwise_cons.mpr ⟨hbefore, hpairs⟩⟩
    intro c hc
    rcases List.mem_cons.mp hc with rfl | hc
    · exact Nat.le_refl _
    · exact Nat.le_of_lt (hbefore c hc)

end BucketRun

variable {start finish : Date} {g : Granularity}

theorem run_of_bucketSeries (hle : start ≤ finish) {series : List Date}
    (h : bucketSeries start finish g = .ok series) :
    BucketRun g (bucketStart finish g) (bucketStart start g) series ∧
      Followed (bucketStart finish g) g := by
  have hfirst : bucketStart start g ≤ bucketStart finish g := bucketStart_mono hle g
  have hdays : (bucketStart start g).dayNumber ≤ (bucketStart finish g).dayNumber := hfirst
  exact run_of_seriesFrom (bucketStart_bucketStart finish g) (bucketStart_bucketStart start g)
    hfirst (by omega) h

/-- A series is found just if the calendar holds the bucket after the last one. -/
theorem exists_bucketSeries_iff (hle : start ≤ finish) :
    (∃ series, bucketSeries start finish g = .ok series) ↔ bucketEnd finish g ≤ lastDay := by
  rw [← bucketEnd_bucketStart, ← followed_iff (bucketStart_bucketStart finish g)]
  constructor
  · rintro ⟨series, h⟩
    exact (run_of_bucketSeries hle h).2
  · intro h
    obtain ⟨series, last, hseries, -⟩ := exists_bucketSeries hle h
    exact ⟨series, hseries⟩

/-- A window holds days of its bucket only, and at least one. -/
structure BucketWindow.IsPart (w : BucketWindow) (g : Granularity) : Prop where
  ordered : w.start ≤ w.finish
  bucket : ∀ d, w.start ≤ d → d ≤ w.finish → bucketStart d g = w.bucket

/-- Windows from a first day on to the last, each right behind the one before. -/
inductive Tiling (g : Granularity) (finish : Date) : Date → List BucketWindow → Prop where
  | last {w : BucketWindow} (hw : w.IsPart g) (h : w.finish = finish) : Tiling g finish w.start [w]
  | step {w v : BucketWindow} {ws : List BucketWindow} (hw : w.IsPart g)
      (h : w.finish.dayNumber + 1 = v.start.dayNumber) (hrest : Tiling g finish v.start (v :: ws)) :
      Tiling g finish w.start (w :: v :: ws)

theorem dayNumber_max (a b : Date) : (a.max b).dayNumber = max a.dayNumber b.dayNumber := by
  unfold Date.max
  split
  · rename_i h
    have hlt : a.dayNumber < b.dayNumber := h
    omega
  · rename_i h
    have hle : ¬a.dayNumber < b.dayNumber := h
    omega

theorem dayNumber_min (a b : Date) : (a.min b).dayNumber = min a.dayNumber b.dayNumber := by
  unfold Date.min
  split
  · rename_i h
    have hlt : b.dayNumber < a.dayNumber := h
    omega
  · rename_i h
    have hle : ¬b.dayNumber < a.dayNumber := h
    omega

/-- The part of a bucket goes to the day before the next bucket, or to the end of the range. -/
theorem clip_eq {b next : Date} (hb : bucketStart b g = b) (h : nextBucket b g = .ok next)
    (start finish : Date) : ∃ last : Date, last.dayNumber + 1 = next.dayNumber ∧
      clip start finish g b = .ok ⟨b, b.max start, last.min finish⟩ := by
  have hday := (nextBucket_eq_ok_iff hb).mp h
  have hlt := lt_bucketEnd b g
  have hone := b.one_le
  have hlast := next.le_last
  have hsome : (next.addDays? (-1)).isSome = true := by
    rw [Date.addDays?, Date.ofDayNumber?_isSome]
    omega
  obtain ⟨last, hfound⟩ := Option.isSome_iff_exists.mp hsome
  have hnumber := Date.dayNumber_of_ofDayNumber? hfound
  refine ⟨last, by omega, ?_⟩
  rw [clip, h]
  simp only [bind, Except.bind, hfound]

theorem isPart_clip {b last : Date} (hb : bucketStart b g = b)
    (hlast : last.dayNumber + 1 = bucketEnd b g) (hstart : start ≤ last) (hfinish : b ≤ finish)
    (hle : start ≤ finish) :
    BucketWindow.IsPart ⟨b, b.max start, last.min finish⟩ g := by
  have hlt := lt_bucketEnd b g
  have hmax := dayNumber_max b start
  have hmin := dayNumber_min last finish
  simp only [Date.le_iff] at hstart hfinish hle
  constructor
  · change (b.max start).dayNumber ≤ (last.min finish).dayNumber
    omega
  · intro d hfrom hto
    change (b.max start).dayNumber ≤ d.dayNumber at hfrom
    change d.dayNumber ≤ (last.min finish).dayNumber at hto
    have hsame := (@same_bucket b d g (by rw [hb, Date.le_iff]; omega) (by omega)).1
    rw [hsame, hb]

/-- The windows of a run of buckets lie one behind the other. -/
theorem tiling_of_run {last b : Date} {series : List Date} (hlast : last = bucketStart finish g)
    (hfollowed : Followed last g) (hle : start ≤ finish) (hrun : BucketRun g last b series)
    (hb : bucketStart b g = b) (hstart : start.dayNumber < bucketEnd b g) :
    ∃ ws, series.mapM (clip start finish g) = .ok ws ∧ ws.map (·.bucket) = series ∧
      Tiling g finish (b.max start) ws := by
  induction hrun with
  | last =>
    obtain ⟨next, hnext⟩ := hfollowed
    obtain ⟨e, he, hclip⟩ := clip_eq hb hnext start finish
    rw [(nextBucket_eq_ok_iff hb).mp hnext] at he
    have hend : finish.dayNumber < bucketEnd last g := by
      rw [hlast, bucketEnd_bucketStart]
      exact lt_bucketEnd finish g
    have hbefore : last ≤ finish := hlast ▸ bucketStart_le finish g
    have hmin : e.min finish = finish := by
      apply Date.ext_day
      rw [dayNumber_min]
      omega
    have hpart := @isPart_clip start finish g last e hb he (by rw [Date.le_iff]; omega) hbefore hle
    refine ⟨[⟨last, last.max start, e.min finish⟩], ?_, rfl, @Tiling.last g finish _ hpart hmin⟩
    rw [List.mapM_cons, hclip]
    rfl
  | @step b next rest hnext hnextle hrest ih =>
    obtain ⟨e, he, hclip⟩ := clip_eq hb hnext start finish
    have hday := (nextBucket_eq_ok_iff hb).mp hnext
    have hnextstart := bucketStart_of_nextBucket hb hnext
    have hafter := lt_bucketEnd next g
    obtain ⟨ws, hws, hbuckets, htiling⟩ := ih hnextstart (by omega)
    have hbefore : next.dayNumber ≤ finish.dayNumber :=
      Nat.le_trans hnextle (hlast ▸ bucketStart_le finish g)
    -- the range reaches into the next bucket, so this window ends where its bucket ends
    have hmin : e.min finish = e := by
      apply Date.ext_day
      rw [dayNumber_min]
      omega
    have hmax : next.max start = next := by
      apply Date.ext_day
      rw [dayNumber_max]
      omega
    have hpart := @isPart_clip start finish g b e hb (by omega) (by rw [Date.le_iff]; omega)
      (by have := lt_bucketEnd b g; rw [Date.le_iff]; omega) hle
    refine ⟨⟨b, b.max start, e.min finish⟩ :: ws, ?_, by rw [List.map_cons, hbuckets], ?_⟩
    · rw [List.mapM_cons, hclip, hws]
      rfl
    · rw [hmax] at htiling
      cases ws with
      | nil => cases htiling
      | cons v ws =>
        have hfirst : v.start = next := by cases htiling <;> rfl
        rw [← hfirst] at htiling
        refine .step hpart ?_ htiling
        change (e.min finish).dayNumber + 1 = _
        rw [hmin, hfirst, he]

namespace Tiling

variable {first : Date} {ws : List BucketWindow}

theorem head (h : Tiling g finish first ws) : ws.head?.map (·.start) = some first := by
  cases h <;> rfl

theorem getLast (h : Tiling g finish first ws) : ws.getLast?.map (·.finish) = some finish := by
  induction h with
  | last hw h => exact congrArg some h
  | step hw h hrest ih => rwa [List.getLast?_cons_cons]

theorem adjacent (h : Tiling g finish first ws) :
    ws.IsChain fun v w => v.finish.dayNumber + 1 = w.start.dayNumber := by
  induction h with
  | last hw h => exact List.isChain_singleton _
  | step hw h hrest ih => exact List.isChain_cons_cons.mpr ⟨h, ih⟩

theorem parts (h : Tiling g finish first ws) : ∀ w ∈ ws, w.IsPart g := by
  induction h with
  | last hw h => simpa using hw
  | step hw h hrest ih => exact List.forall_mem_cons.mpr ⟨hw, ih⟩

theorem first_le (h : Tiling g finish first ws) : ∀ w ∈ ws, first ≤ w.start := by
  induction h with
  | last hw h => simp [Date.le_iff]
  | @step w v ws hw h hrest ih =>
    have hordered : w.start.dayNumber ≤ w.finish.dayNumber := hw.ordered
    refine List.forall_mem_cons.mpr ⟨Nat.le_refl _, fun u hu => ?_⟩
    have hbehind : v.start.dayNumber ≤ u.start.dayNumber := ih u hu
    rw [Date.le_iff]
    omega

theorem covers (h : Tiling g finish first ws) {d : Date} (hfrom : first ≤ d) (hto : d ≤ finish) :
    ∃ w, ws.filter (fun w => w.start ≤ d ∧ d ≤ w.finish) = [w] ∧ w.bucket = bucketStart d g := by
  induction h with
  | @last w hw h =>
    rw [← h] at hto
    exact ⟨w, by simp [hfrom, hto], (hw.bucket d hfrom hto).symm⟩
  | @step w v ws hw h hrest ih =>
    rcases Nat.lt_or_ge w.finish.dayNumber d.dayNumber with hbehind | hwithin
    · have hnot : ¬d ≤ w.finish := Nat.not_le_of_lt hbehind
      have hnext : v.start ≤ d := by
        rw [Date.le_iff]
        omega
      obtain ⟨u, hu, hbucket⟩ := ih hnext
      exact ⟨u, by rw [List.filter_cons_of_neg (by simp [hnot]), hu], hbucket⟩
    · have hnone : (v :: ws).filter (fun w => w.start ≤ d ∧ d ≤ w.finish) = [] := by
        rw [List.filter_eq_nil_iff]
        intro u hu
        have hlater : v.start.dayNumber ≤ u.start.dayNumber := hrest.first_le u hu
        have hnot : ¬u.start ≤ d := by
          rw [Date.le_iff]
          omega
        simp [hnot]
      refine ⟨w, ?_, (hw.bucket d hfrom hwithin).symm⟩
      rw [List.filter_cons_of_pos (by simp [hfrom, Date.le_iff, hwithin]), hnone]

end Tiling

/-- A series of the buckets of a range. -/
structure IsSeries (start finish : Date) (g : Granularity) (series : List Date) : Prop where
  head : series.head? = some (bucketStart start g)
  head_le : bucketStart start g ≤ start
  last : series.getLast? = some (bucketStart finish g)
  increasing : series.Pairwise (· < ·)
  own : ∀ b ∈ series, bucketStart b g = b
  steps : series.IsChain fun b c => nextBucket b g = .ok c

/-- Windows that cut a range into the parts of its buckets. -/
structure IsPartition (start finish : Date) (g : Granularity) (ws : List BucketWindow) : Prop where
  first : ws.head?.map (·.start) = some start
  last : ws.getLast?.map (·.finish) = some finish
  adjacent : ws.IsChain fun v w => v.finish.dayNumber + 1 = w.start.dayNumber
  nonempty : ∀ w ∈ ws, w.start ≤ w.finish
  covers : ∀ d, start ≤ d → d ≤ finish →
    ∃ w, ws.filter (fun w => w.start ≤ d ∧ d ≤ w.finish) = [w] ∧ w.bucket = bucketStart d g

theorem isSeries_of_bucketSeries (hle : start ≤ finish) {series : List Date}
    (h : bucketSeries start finish g = .ok series) : IsSeries start finish g series := by
  obtain ⟨hrun, -⟩ := run_of_bucketSeries hle h
  have hown := bucketStart_bucketStart start g
  exact ⟨hrun.head, bucketStart_le start g, hrun.getLast, (hrun.increasing hown).2,
    hrun.own hown, hrun.chain⟩

/-- The windows of a range are those of its series. -/
theorem bucketWindows_of_bucketSeries (hle : start ≤ finish) {series : List Date}
    (h : bucketSeries start finish g = .ok series) :
    ∃ ws, bucketWindows start finish g = .ok ws ∧ ws.map (·.bucket) = series ∧
      IsPartition start finish g ws := by
  obtain ⟨hrun, hfollowed⟩ := run_of_bucketSeries hle h
  have hown := bucketStart_bucketStart start g
  have hstart : start.dayNumber < bucketEnd (bucketStart start g) g := by
    rw [bucketEnd_bucketStart]
    exact lt_bucketEnd start g
  obtain ⟨ws, hws, hbuckets, htiling⟩ := tiling_of_run rfl hfollowed hle hrun hown hstart
  have hmax : (bucketStart start g).max start = start := by
    have hbefore : (bucketStart start g).dayNumber ≤ start.dayNumber := bucketStart_le start g
    apply Date.ext_day
    rw [dayNumber_max]
    omega
  rw [hmax] at htiling
  refine ⟨ws, by rw [bucketWindows, h]; exact hws, hbuckets, ?_⟩
  exact ⟨htiling.head, htiling.getLast, htiling.adjacent, fun w hw => (htiling.parts w hw).ordered,
    fun d => htiling.covers⟩

theorem exists_bucketSeries_of_bucketWindows {ws : List BucketWindow}
    (h : bucketWindows start finish g = .ok ws) :
    ∃ series, bucketSeries start finish g = .ok series := by
  obtain ⟨series, hseries, -⟩ := Fault.bind_eq_ok_iff.mp h
  exact ⟨series, hseries⟩

theorem IsSeries.nodup {series : List Date} (h : IsSeries start finish g series) : series.Nodup :=
  h.increasing.imp Date.ne_of_lt

/-- Windows that are found belong to the buckets of the series, each to one of its own. -/
theorem of_bucketWindows (hle : start ≤ finish) {ws : List BucketWindow}
    (h : bucketWindows start finish g = .ok ws) :
    bucketSeries start finish g = .ok (ws.map (·.bucket)) ∧ (ws.map (·.bucket)).Nodup ∧
      IsPartition start finish g ws := by
  obtain ⟨series, hseries⟩ := exists_bucketSeries_of_bucketWindows h
  obtain ⟨vs, hvs, rfl, hparts⟩ := bucketWindows_of_bucketSeries hle hseries
  obtain rfl : ws = vs := Except.ok.inj (h.symm.trans hvs)
  exact ⟨hseries, (isSeries_of_bucketSeries hle hseries).nodup, hparts⟩

theorem exists_bucketWindows (hle : start ≤ finish) (hend : bucketEnd finish g ≤ lastDay) :
    ∃ ws, bucketWindows start finish g = .ok ws := by
  obtain ⟨series, hseries⟩ := (exists_bucketSeries_iff hle).mpr hend
  obtain ⟨ws, hws, -⟩ := bucketWindows_of_bucketSeries hle hseries
  exact ⟨ws, hws⟩

/-- Buckets partition a range. Its series and its windows are found just if the calendar holds the
first day after the bucket of its last day. The series then goes from the bucket of the first day
to that of the last day, from each bucket to its next one, and the windows of these buckets cut the
range into parts, so that every day lies in one of them, that of its own bucket. -/
theorem buckets_partition (hle : start ≤ finish) (g : Granularity) :
    ((∃ series, bucketSeries start finish g = .ok series) ↔ bucketEnd finish g ≤ lastDay) ∧
    ((∃ ws, bucketWindows start finish g = .ok ws) ↔ bucketEnd finish g ≤ lastDay) ∧
    (∀ series, bucketSeries start finish g = .ok series → IsSeries start finish g series) ∧
    ∀ ws, bucketWindows start finish g = .ok ws →
      bucketSeries start finish g = .ok (ws.map (·.bucket)) ∧ IsPartition start finish g ws := by
  refine ⟨exists_bucketSeries_iff hle, ?_, fun series => isSeries_of_bucketSeries hle, ?_⟩
  · rw [← exists_bucketSeries_iff hle]
    constructor
    · rintro ⟨ws, h⟩
      exact exists_bucketSeries_of_bucketWindows h
    · rintro ⟨series, h⟩
      obtain ⟨ws, hws, -⟩ := bucketWindows_of_bucketSeries hle h
      exact ⟨ws, hws⟩
  · intro ws h
    obtain ⟨series, hseries⟩ := exists_bucketSeries_of_bucketWindows h
    obtain ⟨_, hws, hbuckets, hpartition⟩ := bucketWindows_of_bucketSeries hle hseries
    obtain rfl := Except.ok.inj (h.symm.trans hws)
    exact ⟨hbuckets ▸ hseries, hpartition⟩

/-- From the last day of January to the fourth of March in a leap year. -/
theorem buckets_partition_leapFebruary : ∃ start finish : Date,
    Date.ofCivil? 2024 1 31 = some start ∧ Date.ofCivil? 2024 3 4 = some finish ∧
    start ≤ finish ∧ ∃ ws, bucketWindows start finish .month = .ok ws ∧
      IsPartition start finish .month ws := by
  let start : Date := ⟨738916, by decide, by decide⟩
  let finish : Date := ⟨738949, by decide, by decide⟩
  have hle : start ≤ finish := by decide
  have hend : bucketEnd finish .month ≤ lastDay := by decide
  obtain ⟨-, hwindows, -, hpartition⟩ := buckets_partition hle .month
  obtain ⟨ws, hws⟩ := hwindows.mpr hend
  exact ⟨start, finish, by decide, by decide, hle, ws, hws, (hpartition ws hws).2⟩

end Funnel
