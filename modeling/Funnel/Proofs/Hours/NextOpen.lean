import Funnel.Proofs.Fault
import Funnel.Proofs.Hours.Opening

/-!
# The next open moment

A moment is answered with the least open reading of its zone's clock from what the clock reads then.
Where the clock never changes this is the least open instant from the moment on, so an open moment is
kept, a second look changes nothing, and a later moment is not answered with an earlier one.
-/

set_option autoImplicit false

namespace Funnel.Hours

open Calendar

variable {known : String → Option Zone} {w : Window} {z : Zone} {m ts : Moment} {x : Int}

theorem inUtc_eq_ok_iff {r : Moment} :
    inUtc ts = .ok r ↔ r.instant = ts.instant ∧ r.offset = some 0 := by
  rw [← Moment.toUtc?_eq_some_iff, inUtc]
  cases ts.toUtc? with
  | none =>
    constructor
    · rintro ⟨⟩
    · rintro ⟨⟩
  | some m =>
    exact ⟨fun h => congrArg some (Except.ok.inj h), fun h => congrArg Except.ok (Option.some.inj h)⟩

theorem exists_inUtc (h : InCalendar ts.instant) : ∃ r, inUtc ts = .ok r := by
  obtain ⟨r, hr⟩ := Moment.exists_toUtc? h
  exact ⟨r, by rw [inUtc, hr]⟩

theorem exists_wallInUtc (h : InCalendar (z.instantOf x)) :
    ∃ r, wallInUtc z x = .ok r ∧ r.instant = z.instantOf x ∧ r.offset = some 0 := by
  obtain ⟨r, hr⟩ := Moment.exists_ofWall? h (some 0)
  obtain ⟨hwall, hoffset⟩ := Moment.ofWall?_eq_some_iff.mp hr
  refine ⟨r, ?_, ?_, hoffset⟩
  · rw [Zone.instantOf] at hr
    rw [wallInUtc, hr]
  · rw [Moment.instant, hoffset, hwall]
    exact Int.sub_zero _

theorem isBefore_of_naive (hnaive : w.Naive) :
    isBefore w.opening w.closing = .ok (decide (w.opening.micros < w.closing.micros)) := by
  rw [isBefore, hnaive.opening, hnaive.closing]

theorem shiftBy_of_lt (hzone : zoneIn known w.zone = .ok z) (hnaive : w.Naive)
    (hdays : w.workingDays ≠ []) (hlt : w.opening.micros < w.closing.micros) :
    shiftBy known m w = shiftIn z m.assumeUtc w := by
  rw [shiftBy, if_neg hdays, isBefore_of_naive hnaive, hzone, decide_eq_true hlt]
  rfl

theorem shiftBy_of_not_lt (hnaive : w.Naive) (h : ¬ w.opening.micros < w.closing.micros) :
    shiftBy known m w = inUtc m.assumeUtc := by
  rw [shiftBy, isBefore_of_naive hnaive, decide_eq_false h]
  exact ite_self _

theorem Window.Opens.workingDays_ne_nil (h : w.Opens) : w.workingDays ≠ [] := by
  obtain ⟨d, hd, -⟩ := h.days
  exact List.ne_nil_of_mem hd

theorem HasRoom.inCalendar (h : HasRoom z m) :
    InCalendar m.instant ∧ InCalendar (z.clock m.instant) := by
  obtain ⟨here, hhere, -⟩ := h
  obtain ⟨hwall, -, hcalendar⟩ := Moment.of_inZone? hhere
  exact ⟨hcalendar, hwall ▸ here.inCalendar_wall⟩

theorem exists_inUtc_assumeUtc (h : HasRoom z m) :
    ∃ r, inUtc m.assumeUtc = .ok r ∧ r.instant = m.instant ∧ r.offset = some 0 := by
  have hcalendar : InCalendar m.assumeUtc.instant := by
    rw [m.instant_assumeUtc]
    exact h.inCalendar.1
  obtain ⟨r, hr⟩ := exists_inUtc hcalendar
  obtain ⟨hinstant, hoffset⟩ := inUtc_eq_ok_iff.mp hr
  exact ⟨r, hr, hinstant.trans m.instant_assumeUtc, hoffset⟩

/-- A window that opens answers with the least open reading from that of the moment on: with the
moment itself if it is open, and else with the instant of an opening. -/
theorem shiftBy_eq (hzone : zoneIn known w.zone = .ok z) (hnaive : w.Naive) (hopens : w.Opens)
    (hroom : HasRoom z m) :
    ∃ x, IsLeast {y | z.clock m.instant ≤ y ∧ w.IsOpen y} x ∧ x < lastDay * microsPerDay ∧
      x ≤ z.clock m.instant + 8 * microsPerDay ∧
      shiftBy known m w =
        if x = z.clock m.instant then inUtc m.assumeUtc else wallInUtc z x := by
  obtain ⟨here, hhere, hlast⟩ := hroom
  have hwall := (Moment.of_inZone? hhere).1
  rw [Moment.inZone?_congr m.instant_assumeUtc.symm] at hhere
  obtain ⟨x, hleast, hx, heq⟩ := shiftIn_of_opens hhere hlast hopens
  have hdiv := here.wall_ediv
  rw [hwall] at hleast heq hdiv
  refine ⟨x, hleast, ?_, ?_, ?_⟩
  · simp only [microsPerDay, lastDay] at *
    omega
  · simp only [microsPerDay] at *
    omega
  · rw [shiftBy_of_lt hzone hnaive hopens.workingDays_ne_nil hopens.lt, heq]

theorem exists_shiftBy (hzone : zoneIn known w.zone = .ok z) (hnaive : w.Naive)
    (hopens : w.Opens) (hroom : HasRoom z m)
    (hkept : ∀ x, z.clock m.instant ≤ x → x < lastDay * microsPerDay →
      InCalendar (z.instantOf x)) :
    ∃ x r, IsLeast {y | z.clock m.instant ≤ y ∧ w.IsOpen y} x ∧ x < lastDay * microsPerDay ∧
      x ≤ z.clock m.instant + 8 * microsPerDay ∧ shiftBy known m w = .ok r ∧
      r.offset = some 0 ∧
      r.instant = if x = z.clock m.instant then m.instant else z.instantOf x := by
  obtain ⟨x, hleast, hlast, hweek, heq⟩ := shiftBy_eq hzone hnaive hopens hroom
  suffices h : ∃ r, shiftBy known m w = .ok r ∧ r.offset = some 0 ∧
      r.instant = if x = z.clock m.instant then m.instant else z.instantOf x from
    h.elim fun r hr => ⟨x, r, hleast, hlast, hweek, hr⟩
  rw [heq]
  by_cases hnow : x = z.clock m.instant
  · rw [if_pos hnow, if_pos hnow]
    obtain ⟨r, hr, hinstant, hoffset⟩ := exists_inUtc_assumeUtc hroom
    exact ⟨r, hr, hoffset, hinstant⟩
  · rw [if_neg hnow, if_neg hnow]
    obtain ⟨r, hr, hinstant, hoffset⟩ := exists_wallInUtc (hkept x hleast.1.1 hlast)
    exact ⟨r, hr, hoffset, hinstant⟩

theorem Window.IsOpen.opens (h : w.IsOpen x) : w.Opens := by
  have hopened := h.opened
  have hclosing := h.not_closed
  exact ⟨by omega, _, h.works, by omega, by omega⟩

theorem shiftBy_of_not_opens (hzone : zoneIn known w.zone = .ok z) (hnaive : w.Naive)
    (hroom : HasRoom z m) (h : ¬ w.Opens) :
    ∃ r, shiftBy known m w = .ok r ∧ r.instant = m.instant := by
  obtain ⟨r, hr, hinstant, -⟩ := exists_inUtc_assumeUtc hroom
  suffices heq : shiftBy known m w = inUtc m.assumeUtc from ⟨r, heq.trans hr, hinstant⟩
  by_cases hlt : w.opening.micros < w.closing.micros
  · by_cases hdays : w.workingDays = []
    · exact if_pos hdays
    · obtain ⟨here, hhere, hlast⟩ := hroom
      rw [Moment.inZone?_congr m.instant_assumeUtc.symm] at hhere
      rw [shiftBy_of_lt hzone hnaive hdays hlt]
      refine shiftIn_of_never hhere hlast hlt ?_
      intro n hn
      exact h ⟨hlt, _, hn, by omega, by omega⟩
  · exact shiftBy_of_not_lt hnaive hlt

theorem shiftBy_of_isOpen (hzone : zoneIn known w.zone = .ok z) (hnaive : w.Naive)
    (hopens : w.Opens) {here : Moment} (hhere : m.inZone? z = some here)
    (hopen : w.IsOpen (z.clock m.instant)) : shiftBy known m w = inUtc m.assumeUtc := by
  rw [← (Moment.of_inZone? hhere).1] at hopen
  rw [Moment.inZone?_congr m.instant_assumeUtc.symm] at hhere
  rw [shiftBy_of_lt hzone hnaive hopens.workingDays_ne_nil hopens.lt,
    shiftIn_of_isOpen hhere hopen]

section Steady

variable {o : Int}

theorem clock_of_steady (hz : z.Steady o) (i : Int) : z.clock i = i + o := by
  rw [Zone.clock, hz.of_instant]

theorem instantOf_of_steady (hz : z.Steady o) (x : Int) : z.instantOf x = x - o := by
  rw [Zone.instantOf, hz.of_reading]

theorem steady_fixed {minutes : Int} (h : -1440 < minutes ∧ minutes < 1440) :
    (Zone.fixed minutes).Steady (minutes * 60 * microsPerSecond) := by
  refine ⟨Zone.offsetAt_fixed minutes, Zone.offsetOfWall_fixed minutes, ?_⟩
  simp only [microsPerDay, microsPerSecond]
  omega

/-- The answer is the instant of the least open reading. -/
theorem exists_shiftBy_of_steady (hz : z.Steady o) (hzone : zoneIn known w.zone = .ok z)
    (hnaive : w.Naive) (hopens : w.Opens) (hroom : HasRoom z m) :
    ∃ r, shiftBy known m w = .ok r ∧ r.offset = some 0 ∧
      IsLeast {y | z.clock m.instant ≤ y ∧ w.IsOpen y} (z.clock r.instant) ∧
      z.clock r.instant < lastDay * microsPerDay := by
  have hkept : ∀ x, z.clock m.instant ≤ x → x < lastDay * microsPerDay →
      InCalendar (z.instantOf x) := by
    intro x hx hlast
    have hcalendar := hroom.inCalendar.1
    have hwithin := hz.within_day
    rw [clock_of_steady hz] at hx
    rw [instantOf_of_steady hz]
    simp only [InCalendar, microsPerDay, lastDay] at *
    omega
  obtain ⟨x, r, hleast, hlast, -, hr, hoffset, hinstant⟩ :=
    exists_shiftBy hzone hnaive hopens hroom hkept
  have hclock : z.clock r.instant = x := by
    rw [hinstant]
    split
    · rename_i hnow
      exact hnow.symm
    · rw [clock_of_steady hz, instantOf_of_steady hz]
      exact Int.sub_add_cancel x o
  exact ⟨r, hr, hoffset, by rwa [hclock], by rwa [hclock]⟩

/-- A window is open at its answer, which is therefore kept. -/
theorem shiftBy_answer (hzone : zoneIn known w.zone = .ok z) (hnaive : w.Naive) (hopens : w.Opens)
    {r : Moment} (hoffset : r.offset = some 0) (hopen : w.IsOpen (z.clock r.instant))
    (hclock : InCalendar (z.clock r.instant)) : shiftBy known r w = .ok r := by
  have hcalendar : InCalendar r.instant := by
    have hwall := r.inCalendar_wall
    rwa [Moment.instant, hoffset, Option.getD_some, Int.sub_zero]
  obtain ⟨here, hhere⟩ := Moment.exists_inZone? hcalendar hclock
  rw [shiftBy_of_isOpen hzone hnaive hopens hhere hopen]
  exact inUtc_eq_ok_iff.mpr ⟨r.instant_assumeUtc.symm, hoffset⟩

/-- In a zone whose offset is constant a moment is answered with the least open instant from it on.
An open moment is kept, a second look changes nothing, and answers come in the order of the
moments. -/
theorem next_open_moment (hz : z.Steady o) (hzone : zoneIn known w.zone = .ok z)
    (hnaive : w.Naive) (hopens : w.Opens) (hroom : HasRoom z m) :
    ∃ r, shiftBy known m w = .ok r ∧ r.offset = some 0 ∧
      IsLeast {t | m.instant ≤ t ∧ w.IsOpen (z.clock t)} r.instant ∧
      (w.IsOpen (z.clock m.instant) → r.instant = m.instant) ∧
      shiftBy known r w = .ok r ∧
      ∀ m', HasRoom z m' → m.instant ≤ m'.instant →
        ∃ r', shiftBy known m' w = .ok r' ∧ r.instant ≤ r'.instant := by
  obtain ⟨r, hr, hoffset, hreading, hlast⟩ := exists_shiftBy_of_steady hz hzone hnaive hopens hroom
  have hleast : IsLeast {t | m.instant ≤ t ∧ w.IsOpen (z.clock t)} r.instant := by
    simp only [clock_of_steady hz] at hreading ⊢
    have hlater : m.instant + o ≤ r.instant + o := hreading.1.1
    refine ⟨⟨by omega, hreading.1.2⟩, ?_⟩
    rintro t ⟨ht, hopen⟩
    have hle : r.instant + o ≤ t + o := hreading.2 ⟨by omega, hopen⟩
    omega
  refine ⟨r, hr, hoffset, hleast, ?_, ?_, ?_⟩
  · intro hopen
    exact Int.le_antisymm (hleast.2 ⟨Int.le_refl _, hopen⟩) hleast.1.1
  · refine shiftBy_answer hzone hnaive hopens hoffset hreading.1.2 ?_
    obtain ⟨-, hlow, -⟩ := hroom.inCalendar
    refine ⟨Int.le_trans hlow hreading.1.1, Int.lt_trans hlast ?_⟩
    simp only [microsPerDay, lastDay]
    omega
  · intro m' hroom' hle
    obtain ⟨r', hr', -, hreading', -⟩ := exists_shiftBy_of_steady hz hzone hnaive hopens hroom'
    refine ⟨r', hr', hleast.2 ⟨?_, hreading'.1.2⟩⟩
    have hlater := hreading'.1.1
    simp only [clock_of_steady hz] at hlater
    omega

end Steady

/-- Hours on Mondays only, at the closing: the next open moment is a week later, on the eighth day
that is looked at. -/
theorem next_open_moment_of_mondays :
    let known : Zones := fun name => if name = "Asia/Kathmandu" then some (.fixed 345) else none
    ∃ (w : Window) (m r : Moment), w.workingDays = [1] ∧ w.zone = .text "Asia/Kathmandu" ∧
    Iso.moment? "2024-03-04T17:00:00+05:45" = some m ∧ HasRoom (.fixed 345) m ∧
    shiftBy known m w = .ok r ∧ Iso.moment? "2024-03-11T03:15:00+00:00" = some r ∧
    IsLeast {t | m.instant ≤ t ∧ w.IsOpen ((Zone.fixed 345).clock t)} r.instant := by
  intro known
  let w : Window := { Window.standard (.text "Asia/Kathmandu") with workingDays := [1] }
  let m := (Iso.moment? "2024-03-04T17:00:00+05:45").get (by decide)
  let monday := (Iso.moment? "2024-03-11T03:15:00+00:00").get (by decide)
  have hroom : HasRoom (.fixed 345) m := by decide
  have hopens : w.Opens := ⟨by decide, 1, List.mem_singleton.mpr rfl, by decide⟩
  have hzone : zoneIn known w.zone = .ok (.fixed 345) := rfl
  have hsteady := steady_fixed (show -1440 < (345 : Int) ∧ (345 : Int) < 1440 by decide)
  obtain ⟨r, hr, -, hleast, -⟩ := next_open_moment hsteady hzone ⟨rfl, rfl⟩ hopens hroom
  have hmonday : (shiftBy known m w).toOption = some monday := by decide +kernel
  have hsame : monday = r := by
    rw [hr] at hmonday
    exact (Option.some.inj hmonday).symm
  refine ⟨w, m, r, rfl, rfl, (Option.some_get _).symm, hroom, hr, ?_, hleast⟩
  rw [← hsame]
  exact (Option.some_get _).symm

end Funnel.Hours
