import Funnel.Hours.Shift
import Funnel.Proofs.Calendar.Instants
import Mathlib.Order.Bounds.Basic

/-!
# Opening hours on a clock

A window says of every reading of a clock whether it is open then. Days are looked at one after the
other, and the reading that is found is the least open one: weekdays come back after seven days, so a
window that opens at all does so within the eight days that are looked at.
-/

set_option autoImplicit false

namespace Funnel.Hours

open Calendar

/-- The window works on a day by its weekday. Days are numbered like those of the calendar, which go
on in both directions. -/
def Window.WorksOn (w : Window) (day : Int) : Prop := (day + 6) % 7 + 1 ∈ w.workingDays

/-- The window is open when the clock of its zone reads `x`. -/
structure Window.IsOpen (w : Window) (x : Int) : Prop where
  works : w.WorksOn (x / microsPerDay)
  opened : w.opening.micros ≤ x % microsPerDay
  not_closed : x % microsPerDay < w.closing.micros

structure Window.Opens (w : Window) : Prop where
  lt : w.opening.micros < w.closing.micros
  days : ∃ d ∈ w.workingDays, 1 ≤ d ∧ d ≤ 7

structure Window.Naive (w : Window) : Prop where
  opening : w.opening.offset = none
  closing : w.closing.offset = none

/-- The moment has a place in the zone's calendar, and so have the eight days after it. -/
def HasRoom (z : Zone) (m : Moment) : Prop :=
  ∃ here, m.inZone? z = some here ∧ here.date.dayNumber + 8 ≤ lastDay

variable {w : Window} {z : Zone} {m ts here : Moment} {d day : Date} {x : Int}

instance : Decidable (w.WorksOn x) := inferInstanceAs (Decidable (_ ∈ w.workingDays))

instance : Decidable (HasRoom z m) :=
  decidable_of_iff
    (((m.inZone? z).any fun here => decide (here.date.dayNumber + 8 ≤ lastDay)) = true) <| by
    rw [Option.any_eq_true, HasRoom]
    simp only [decide_eq_true_eq]

theorem worksOn_iff : w.WorksOn d.dayNumber ↔ (d.isoWeekday : Int) ∈ w.workingDays := by
  have hweekday : (d.isoWeekday : Int) = ((d.dayNumber : Int) + 6) % 7 + 1 := by
    simp only [Date.isoWeekday, Date.weekday]
    omega
  rw [hweekday, Window.WorksOn]

theorem not_worksOn_of_week {first : Int}
    (h : ∀ n, first ≤ n → n < first + 7 → ¬ w.WorksOn n) (n : Int) : ¬ w.WorksOn n := by
  have hsame : (first + (n - first) % 7 + 6) % 7 = (n + 6) % 7 := by omega
  have hweek := h (first + (n - first) % 7) (by omega) (by omega)
  rwa [Window.WorksOn, hsame] at hweek

theorem Window.Opens.exists_worksOn (h : w.Opens) : ∃ n, w.WorksOn n := by
  obtain ⟨weekday, hmem, hone, hseven⟩ := h.days
  refine ⟨weekday, ?_⟩
  rwa [Window.WorksOn, show (weekday + 6) % 7 + 1 = weekday by omega]

theorem wallAt_midnight (d : Date) : wallAt d .midnight = d.dayNumber * microsPerDay :=
  Int.add_zero _

theorem wallAt_ediv (d : Date) (t : ClockTime) : wallAt d t / microsPerDay = d.dayNumber :=
  (Moment.onDay d t).wall_ediv

theorem wallAt_emod (d : Date) (t : ClockTime) : wallAt d t % microsPerDay = t.micros :=
  (Moment.onDay d t).wall_emod

theorem isOpen_wallAt (hlt : w.opening.micros < w.closing.micros) (hd : w.WorksOn d.dayNumber) :
    w.IsOpen (wallAt d w.opening) := by
  constructor
  · rwa [wallAt_ediv]
  · rw [wallAt_emod]
  · rw [wallAt_emod]
    exact Int.ofNat_lt.mpr hlt

/-- The first working day from the day numbered `first` on. -/
structure Window.FirstDay (w : Window) (first : Int) (d : Date) : Prop where
  le : first ≤ d.dayNumber
  works : w.WorksOn d.dayNumber
  least : ∀ n, first ≤ n → n < d.dayNumber → ¬ w.WorksOn n

theorem firstDay_self (hd : w.WorksOn d.dayNumber) : w.FirstDay d.dayNumber d :=
  ⟨Int.le_refl _, hd, fun n hn hn' => by omega⟩

theorem Window.FirstDay.of_succ {first : Int} (h : w.FirstDay (first + 1) d)
    (hfirst : ¬ w.WorksOn first) : w.FirstDay first d := by
  refine ⟨by have := h.le; omega, h.works, ?_⟩
  intro n hn hn'
  by_cases hsame : n = first
  · rwa [hsame]
  · exact h.least n (by omega) hn'

/-- From a midnight until the opening on the first working day the window is closed. -/
theorem Window.FirstDay.not_isOpen {first : Int} (h : w.FirstDay first d)
    (hx : first * microsPerDay ≤ x) (hopening : x < wallAt d w.opening) : ¬ w.IsOpen x := by
  intro hopen
  have hafter : first ≤ x / microsPerDay := by
    simp only [microsPerDay] at *
    omega
  by_cases hbefore : x / microsPerDay < d.dayNumber
  · exact h.least _ hafter hbefore hopen.works
  · have hopened := hopen.opened
    simp only [wallAt, microsPerDay] at *
    omega

theorem exists_next (h : day.dayNumber < lastDay) :
    ∃ next : Date, day.addDays? 1 = some next ∧ next.dayNumber = day.dayNumber + 1 := by
  obtain ⟨next, hnext⟩ := Option.isSome_iff_exists.mp (Date.ofDayNumber?_isSome.mpr
    (show 1 ≤ (day.dayNumber : Int) + 1 ∧ (day.dayNumber : Int) + 1 ≤ lastDay by omega))
  have hnumber := Date.dayNumber_of_ofDayNumber? hnext
  exact ⟨next, hnext, by omega⟩

theorem nextOpening_of_worksOn (hlt : w.opening.micros < w.closing.micros)
    (hday : w.WorksOn day.dayNumber) (left : Nat) :
    nextOpening z w ts (left + 1) day = wallInUtc z (wallAt day w.opening) := by
  have hmidnight := wallAt_midnight day
  have hmax : max (wallAt day .midnight) (wallAt day w.opening) = wallAt day w.opening := by
    rw [hmidnight, wallAt]
    omega
  have hclosing : wallAt day .midnight < wallAt day w.closing := by
    rw [hmidnight, wallAt]
    omega
  rw [nextOpening, if_pos ⟨worksOn_iff.mp hday, hclosing⟩, hmax]

/-- The days from `day` on are looked at until one is a working day. -/
theorem nextOpening_eq (hlt : w.opening.micros < w.closing.micros) {left : Nat}
    (hroom : day.dayNumber + left ≤ lastDay) :
    (∃ d : Date, d.dayNumber < day.dayNumber + left ∧ w.FirstDay day.dayNumber d ∧
      nextOpening z w ts left day = wallInUtc z (wallAt d w.opening)) ∨
    ((∀ n : Int, day.dayNumber ≤ n → n < day.dayNumber + left → ¬ w.WorksOn n) ∧
      nextOpening z w ts left day = inUtc ts) := by
  induction left generalizing day with
  | zero => exact .inr ⟨fun n hn hn' => by omega, rfl⟩
  | succ left ih =>
    by_cases hday : w.WorksOn day.dayNumber
    · exact .inl ⟨day, by omega, firstDay_self hday, nextOpening_of_worksOn hlt hday left⟩
    · obtain ⟨next, hnext, hnumber⟩ := exists_next (show day.dayNumber < lastDay by omega)
      rw [nextOpening, if_neg fun h => hday (worksOn_iff.mpr h.1)]
      simp only [hnext]
      have hroom : next.dayNumber + left ≤ lastDay := by omega
      rcases ih hroom with ⟨d, hlast, hfirst, heq⟩ | ⟨hnone, heq⟩
      · rw [hnumber] at hfirst
        exact .inl ⟨d, by omega, hfirst.of_succ hday, heq⟩
      · refine .inr ⟨?_, heq⟩
        intro n hn hn'
        by_cases hsame : n = day.dayNumber
        · rwa [hsame]
        · exact hnone n (by omega) (by omega)

theorem inUtc_congr (h : m.instant = ts.instant) : inUtc m = inUtc ts := by
  rw [inUtc, inUtc, Moment.toUtc?, Moment.toUtc?, Moment.atOffset?, Moment.atOffset?, h]

theorem isLeast_open {now : Int} (hnow : now ≤ x) (hopen : w.IsOpen x)
    (hclosed : ∀ y, now ≤ y → y < x → ¬ w.IsOpen y) :
    IsLeast {y | now ≤ y ∧ w.IsOpen y} x := by
  refine ⟨⟨hnow, hopen⟩, ?_⟩
  rintro y ⟨hy, hyopen⟩
  by_contra hlt
  exact hclosed y hy (Int.not_le.mp hlt) hyopen

/-- On a day that is no working day, or after its closing, a window stays closed until midnight. -/
theorem not_isOpen_of_over
    (h : ¬ (w.WorksOn here.date.dayNumber ∧ here.wall < wallAt here.date w.closing))
    (hx : here.wall ≤ x) (hday : x < (here.date.dayNumber + 1) * microsPerDay) : ¬ w.IsOpen x := by
  intro hopen
  have hwall := here.wall_ediv
  have hsame : x / microsPerDay = here.date.dayNumber := by
    simp only [microsPerDay] at *
    omega
  have hclosing := hopen.not_closed
  refine h ⟨hsame ▸ hopen.works, ?_⟩
  simp only [wallAt, microsPerDay] at *
  omega

theorem isOpen_wall_iff : w.IsOpen here.wall ↔ w.WorksOn here.date.dayNumber ∧
    wallAt here.date w.opening ≤ here.wall ∧ here.wall < wallAt here.date w.closing := by
  have hwall : here.wall = here.date.dayNumber * microsPerDay + here.micros := rfl
  simp only [wallAt]
  constructor
  · rintro ⟨hworks, hopened, hclosing⟩
    rw [here.wall_ediv] at hworks
    rw [here.wall_emod] at hopened hclosing
    exact ⟨hworks, by omega, by omega⟩
  · rintro ⟨hworks, hopened, hclosing⟩
    refine ⟨?_, ?_, ?_⟩
    · rwa [here.wall_ediv]
    · rw [here.wall_emod]
      omega
    · rw [here.wall_emod]
      omega

theorem shiftIn_of_isOpen (hhere : ts.inZone? z = some here) (hopen : w.IsOpen here.wall) :
    shiftIn z ts w = inUtc ts := by
  obtain ⟨hworks, hopened, hclosing⟩ := isOpen_wall_iff.mp hopen
  rw [shiftIn, hhere]
  simp only [if_pos (And.intro (worksOn_iff.mp hworks) hclosing), if_neg (Int.not_lt.mpr hopened)]
  exact inUtc_congr (Moment.of_inZone? hhere).2.1

section Shift

variable (hhere : ts.inZone? z = some here) (hroom : here.date.dayNumber + 8 ≤ lastDay)
include hhere hroom

/-- A moment at which the window is over waits for one of the seven days after it. -/
theorem shiftIn_of_over (hlt : w.opening.micros < w.closing.micros)
    (h : ¬ (w.WorksOn here.date.dayNumber ∧ here.wall < wallAt here.date w.closing)) :
    (∃ d : Date, d.dayNumber < here.date.dayNumber + 8 ∧
      w.FirstDay (here.date.dayNumber + 1) d ∧
      shiftIn z ts w = wallInUtc z (wallAt d w.opening)) ∨
    ((∀ n, ¬ w.WorksOn n) ∧ shiftIn z ts w = inUtc ts) := by
  obtain ⟨next, hnext, hnumber⟩ := exists_next (show here.date.dayNumber < lastDay by omega)
  have heq : shiftIn z ts w = nextOpening z w ts 7 next := by
    rw [shiftIn, hhere]
    simp only [hnext]
    exact if_neg fun hnow => h ⟨worksOn_iff.mpr hnow.1, hnow.2⟩
  rw [heq]
  rcases nextOpening_eq hlt (show next.dayNumber + 7 ≤ lastDay by omega) with
    ⟨d, hlast, hfirst, heq⟩ | ⟨hnone, heq⟩
  · rw [hnumber] at hfirst
    exact .inl ⟨d, by omega, hfirst, heq⟩
  · exact .inr ⟨not_worksOn_of_week hnone, heq⟩

/-- A window that opens is open at the moment or answers with its next opening on the clock. -/
theorem shiftIn_of_opens (hopens : w.Opens) :
    ∃ x, IsLeast {y | here.wall ≤ y ∧ w.IsOpen y} x ∧
      x < (here.date.dayNumber + 8) * microsPerDay ∧
      shiftIn z ts w = if x = here.wall then inUtc ts else wallInUtc z x := by
  have hmicros := here.lt_day
  by_cases hnow : w.WorksOn here.date.dayNumber ∧ here.wall < wallAt here.date w.closing
  · by_cases hbefore : here.wall < wallAt here.date w.opening
    · have hopening := w.opening.lt_day
      refine ⟨wallAt here.date w.opening, isLeast_open (Int.le_of_lt hbefore)
        (isOpen_wallAt hopens.lt hnow.1) ?_, ?_, ?_⟩
      · intro y hy hlt
        refine (firstDay_self hnow.1).not_isOpen ?_ hlt
        simp only [Moment.wall] at hy
        omega
      · simp only [wallAt, microsPerDay] at *
        omega
      · rw [if_neg (Int.ne_of_gt hbefore), shiftIn, hhere]
        simp only [if_pos (And.intro (worksOn_iff.mp hnow.1) hnow.2), if_pos hbefore]
    · have hopen := isOpen_wall_iff.mpr ⟨hnow.1, Int.not_lt.mp hbefore, hnow.2⟩
      refine ⟨here.wall, isLeast_open (Int.le_refl _) hopen (fun y hy hlt => by omega), ?_, ?_⟩
      · simp only [Moment.wall, microsPerDay] at *
        omega
      · rw [if_pos rfl, shiftIn_of_isOpen hhere hopen]
  · rcases shiftIn_of_over hhere hroom hopens.lt hnow with ⟨d, hlast, hfirst, heq⟩ | ⟨hnever, -⟩
    · have hlater := hfirst.le
      have hbefore : here.wall < wallAt d w.opening := by
        simp only [wallAt, Moment.wall, microsPerDay] at *
        omega
      refine ⟨wallAt d w.opening, isLeast_open (Int.le_of_lt hbefore)
        (isOpen_wallAt hopens.lt hfirst.works) ?_, ?_, ?_⟩
      · intro y hy hlt
        by_cases hday : y < (here.date.dayNumber + 1) * microsPerDay
        · exact not_isOpen_of_over hnow hy hday
        · exact hfirst.not_isOpen (Int.not_lt.mp hday) hlt
      · have hopening := w.opening.lt_day
        simp only [wallAt, microsPerDay] at *
        omega
      · rw [heq, if_neg (Int.ne_of_gt hbefore)]
    · obtain ⟨n, hn⟩ := hopens.exists_worksOn
      exact absurd hn (hnever n)

theorem shiftIn_of_never (hlt : w.opening.micros < w.closing.micros)
    (hnever : ∀ n, ¬ w.WorksOn n) : shiftIn z ts w = inUtc ts := by
  rcases shiftIn_of_over hhere hroom hlt fun h => hnever _ h.1 with ⟨d, -, hfirst, -⟩ | ⟨-, heq⟩
  · exact absurd hfirst.works (hnever _)
  · exact heq

end Shift

end Funnel.Hours
