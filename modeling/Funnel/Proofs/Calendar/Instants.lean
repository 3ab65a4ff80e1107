import Funnel.Proofs.Calendar.Clock

/-!
# Moments and their instants

A moment is its wall time with an offset, and the calendar holds every wall time of its days. In UTC
and in a zone a moment keeps its instant.
-/

set_option autoImplicit false

namespace Funnel.Calendar

def InCalendar (instant : Int) : Prop :=
  microsPerDay ≤ instant ∧ instant < (lastDay + 1) * microsPerDay

namespace Moment

variable {m n : Moment} {z : Zone} {wall : Int} {offset : Option Int}

theorem wall_ediv (m : Moment) : m.wall / microsPerDay = m.date.dayNumber := by
  have hday := m.lt_day
  simp only [wall, microsPerDay] at *
  omega

theorem wall_emod (m : Moment) : m.wall % microsPerDay = m.micros := by
  have hday := m.lt_day
  simp only [wall, microsPerDay] at *
  omega

theorem ofWall?_eq_some_iff : ofWall? wall offset = some m ↔ m.wall = wall ∧ m.offset = offset := by
  have hdiv : wall.fdiv microsPerDay = wall / microsPerDay :=
    Int.fdiv_eq_ediv_of_nonneg wall (Int.natCast_nonneg _)
  have hmod : wall.fmod microsPerDay = wall % microsPerDay :=
    Int.fmod_eq_emod_of_nonneg wall (Int.natCast_nonneg _)
  rw [ofWall?, hdiv, hmod]
  constructor
  · intro h
    split at h
    · cases h
    next date hdate =>
    split at h
    · cases h
      have hnumber := Date.dayNumber_of_ofDayNumber? hdate
      refine ⟨?_, rfl⟩
      simp only [Moment.wall, hnumber]
      simp only [microsPerDay]
      omega
    · cases h
  · rintro ⟨rfl, rfl⟩
    have hone := m.date.one_le
    have hlast := m.date.le_last
    obtain ⟨date, hdate⟩ := Option.isSome_iff_exists.mp (Date.ofDayNumber?_isSome.mpr
      (show 1 ≤ (m.date.dayNumber : Int) ∧ (m.date.dayNumber : Int) ≤ lastDay by omega))
    have hsame : date = m.date := by
      have hnumber := Date.dayNumber_of_ofDayNumber? hdate
      exact Date.ext_day (by omega)
    have hday := m.lt_day
    simp only [wall_ediv, wall_emod, hdate, hsame, Int.toNat_natCast, dif_pos hday]

/-- The calendar holds the wall times of its days. -/
theorem exists_ofWall? (h : InCalendar wall) (offset : Option Int) :
    ∃ m, ofWall? wall offset = some m := by
  have hdiv : 1 ≤ wall / microsPerDay ∧ wall / microsPerDay ≤ lastDay := by
    obtain ⟨hfirst, hlast⟩ := h
    simp only [microsPerDay, lastDay] at *
    omega
  obtain ⟨date, hdate⟩ := Option.isSome_iff_exists.mp (Date.ofDayNumber?_isSome.mpr hdiv)
  have hnumber := Date.dayNumber_of_ofDayNumber? hdate
  have hmicros : (wall % microsPerDay).toNat < microsPerDay := by
    simp only [microsPerDay]
    omega
  refine ⟨⟨date, (wall % microsPerDay).toNat, hmicros, offset⟩, ofWall?_eq_some_iff.mpr ⟨?_, rfl⟩⟩
  simp only [Moment.wall, hnumber]
  simp only [microsPerDay]
  omega

theorem inCalendar_wall (m : Moment) : InCalendar m.wall := by
  have hone := m.date.one_le
  have hlast := m.date.le_last
  have hday := m.lt_day
  simp only [InCalendar, wall, microsPerDay] at *
  omega

theorem toUtc?_eq_some_iff : m.toUtc? = some n ↔ n.instant = m.instant ∧ n.offset = some 0 := by
  rw [toUtc?, atOffset?, ofWall?_eq_some_iff, Int.add_zero]
  constructor
  · rintro ⟨hwall, hoffset⟩
    refine ⟨?_, hoffset⟩
    rw [instant, hoffset, hwall]
    exact Int.sub_zero _
  · rintro ⟨hinstant, hoffset⟩
    refine ⟨?_, hoffset⟩
    rw [← hinstant, instant, hoffset]
    exact (Int.sub_zero _).symm

theorem of_inZone? (h : m.inZone? z = some n) :
    n.wall = z.clock m.instant ∧ n.instant = m.instant ∧ InCalendar m.instant := by
  obtain ⟨utc, hutc, h⟩ := Option.bind_eq_some_iff.mp h
  obtain ⟨hinstant, hoffset⟩ := toUtc?_eq_some_iff.mp hutc
  obtain ⟨hwall, hzone⟩ := ofWall?_eq_some_iff.mp h
  rw [hinstant] at hwall
  refine ⟨hwall, ?_, ?_⟩
  · rw [instant, hzone, hwall]
    exact Int.add_sub_cancel _ _
  · have hcalendar := utc.inCalendar_wall
    rwa [← Int.sub_zero utc.wall, show utc.wall - 0 = utc.instant by rw [instant, hoffset]; rfl,
      hinstant] at hcalendar

theorem exists_toUtc? (h : InCalendar m.instant) : ∃ n, m.toUtc? = some n :=
  exists_ofWall? (by rwa [Int.add_zero]) (some 0)

theorem exists_inZone? (h : InCalendar m.instant) (hclock : InCalendar (z.clock m.instant)) :
    ∃ n, m.inZone? z = some n := by
  obtain ⟨utc, hutc⟩ := exists_toUtc? h
  have hinstant := (toUtc?_eq_some_iff.mp hutc).1
  rw [Zone.clock, ← hinstant] at hclock
  obtain ⟨n, hn⟩ := exists_ofWall? hclock (some (z.offsetAt utc.instant))
  refine ⟨n, Option.bind_eq_some_iff.mpr ⟨utc, hutc, ?_⟩⟩
  rw [atOffset?, ← hinstant, hn]

theorem inZone?_congr (h : m.instant = n.instant) : m.inZone? z = n.inZone? z := by
  rw [inZone?, inZone?, toUtc?, toUtc?, atOffset?, atOffset?, h]

end Moment

end Funnel.Calendar
