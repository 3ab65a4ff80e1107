import Funnel.Proofs.Hours.NextOpen
import Mathlib.Logic.ExistsUnique

/-!
# Business hours around clock changes

An answer is found by what the clock reads, and an opening is answered with the first instant that
shows it. A moment can therefore be moved back: when the clock has been set back, the opening that it
waits for may have been shown before. This and every disorder of answers is due to an opening or a
closing that the clock skips or shows twice. Without one, answers are the next open moments.
-/

set_option autoImplicit false

namespace Funnel.Hours

open Calendar

variable {known : String → Option Zone} {w : Window} {z : Zone} {m : Moment} {x y now : Int}

/-- The window opens or closes at this reading on a working day. -/
def Window.Turns (w : Window) (x : Int) : Prop :=
  ∃ n, w.WorksOn n ∧
    (x = n * microsPerDay + w.opening.micros ∨ x = n * microsPerDay + w.closing.micros)

/-- The clock shows every opening and closing that can matter at a reading exactly once: those of the
two days before it and of the eight days after it. -/
def ShowsTurnsOnce (z : Zone) (w : Window) (now : Int) : Prop :=
  ∀ x, w.Turns x → now - 2 * microsPerDay ≤ x → x ≤ now + 8 * microsPerDay → ∃! i, z.clock i = x

theorem isOpen_of_between (hopen : w.IsOpen y) (hlow : w.opening.micros ≤ x % microsPerDay)
    (hhigh : x % microsPerDay < w.closing.micros) (hday : x / microsPerDay = y / microsPerDay) :
    w.IsOpen x :=
  ⟨hday ▸ hopen.works, hlow, hhigh⟩

theorem turns_of_isLeast (hleast : IsLeast {y | now ≤ y ∧ w.IsOpen y} x) (hnow : now < x) :
    w.Turns x := by
  have hopen := hleast.1.2
  have hopened := hopen.opened
  have hclosing := hopen.not_closed
  have hmicros := w.opening.lt_day
  let opening := x / microsPerDay * microsPerDay + w.opening.micros
  have hdiv : opening / microsPerDay = x / microsPerDay := by
    simp only [opening, microsPerDay] at *
    omega
  have hmod : opening % microsPerDay = w.opening.micros := by
    simp only [opening, microsPerDay] at *
    omega
  have hlt : w.opening.micros < (w.closing.micros : Int) := by omega
  refine ⟨x / microsPerDay, hopen.works, .inl ?_⟩
  by_cases hlater : now ≤ opening
  · have hle : x ≤ opening :=
      hleast.2 ⟨hlater, isOpen_of_between hopen (by omega) (by omega) hdiv⟩
    simp only [opening, microsPerDay] at *
    omega
  · -- then the window has been open from before `now`
    have hnowopen : w.IsOpen now := by
      refine isOpen_of_between hopen ?_ ?_ ?_ <;>
      · simp only [opening, microsPerDay] at *
        omega
    have hle : x ≤ now := hleast.2 ⟨Int.le_refl _, hnowopen⟩
    omega

/-- Between an open reading and a later closed one the window closes. -/
theorem exists_turns (hopen : w.IsOpen y) (hclosed : ¬ w.IsOpen now) (hlt : y < now) :
    ∃ c, w.Turns c ∧ y ≤ c ∧ c ≤ now := by
  have hopened := hopen.opened
  have hclosing := hopen.not_closed
  have hmicros := w.closing.lt_day
  let closing := y / microsPerDay * microsPerDay + w.closing.micros
  refine ⟨closing, ⟨_, hopen.works, .inr rfl⟩, ?_, ?_⟩
  · simp only [closing, microsPerDay] at *
    omega
  · by_contra hlater
    refine hclosed (isOpen_of_between hopen ?_ ?_ ?_) <;>
    · simp only [closing, microsPerDay] at *
      omega

section Regular

variable (hz : z.Regular)
include hz

theorem exists_shiftBy_of_regular (hzone : zoneIn known w.zone = .ok z) (hnaive : w.Naive)
    (hopens : w.Opens) (hroom : HasRoom z m) :
    ∃ x r, IsLeast {y | z.clock m.instant ≤ y ∧ w.IsOpen y} x ∧
      x ≤ z.clock m.instant + 8 * microsPerDay ∧ shiftBy known m w = .ok r ∧
      r.instant = if x = z.clock m.instant then m.instant else z.instantOf x := by
  have hkept : ∀ x, z.clock m.instant ≤ x → x < lastDay * microsPerDay →
      InCalendar (z.instantOf x) := fun x hx hlast =>
    ⟨hz.le_instantOf hroom.inCalendar.1.1 hx, hz.instantOf_lt hlast⟩
  obtain ⟨x, r, hleast, -, hweek, hr, -, hinstant⟩ :=
    exists_shiftBy hzone hnaive hopens hroom hkept
  exact ⟨x, r, hleast, hweek, hr, hinstant⟩

/-- A reading that is shown once has not been passed by an earlier instant that reads more, nor by
a later one that reads less. -/
theorem not_set_back (honce : ∃! i, z.clock i = x) {i j : Int} (hij : i ≤ j)
    (hlt : z.clock j < z.clock i) (hj : z.clock j ≤ x) : z.clock i < x := by
  by_contra hi
  obtain ⟨k, l, hne, hk, hl⟩ := hz.shown_twice hij hlt hj (Int.not_lt.mp hi)
  exact hne (honce.unique hk hl)

/-- Where openings and closings are shown once, the least open reading is shown by the least open
instant. -/
theorem isLeast_instant (hleast : IsLeast {y | z.clock m.instant ≤ y ∧ w.IsOpen y} x)
    (hweek : x ≤ z.clock m.instant + 8 * microsPerDay)
    (honce : ShowsTurnsOnce z w (z.clock m.instant)) :
    IsLeast {t | m.instant ≤ t ∧ w.IsOpen (z.clock t)}
      (if x = z.clock m.instant then m.instant else z.instantOf x) := by
  obtain ⟨⟨hle, hopen⟩, hlow⟩ := hleast
  by_cases hnow : x = z.clock m.instant
  · rw [if_pos hnow]
    exact ⟨⟨Int.le_refl _, hnow ▸ hopen⟩, fun t ht => ht.1⟩
  rw [if_neg hnow]
  have hlt : z.clock m.instant < x := by
    have hle : z.clock m.instant ≤ x := hle
    omega
  have hclosed : ¬ w.IsOpen (z.clock m.instant) := by
    intro hopen
    have hle : x ≤ z.clock m.instant := hlow ⟨Int.le_refl _, hopen⟩
    omega
  have hopening : ∃! i, z.clock i = x :=
    honce x (turns_of_isLeast ⟨⟨hle, hopen⟩, hlow⟩ hlt) (by omega) hweek
  obtain ⟨-, hshown⟩ := hz.instantOf_le hopening.choose_spec.1
  refine ⟨⟨?_, by rwa [hshown]⟩, ?_⟩
  · by_contra hback
    have hpassed := not_set_back hz hopening (Int.le_of_lt (Int.not_le.mp hback))
      (by rwa [hshown]) (Int.le_of_lt hlt)
    rw [hshown] at hpassed
    exact Int.lt_irrefl _ hpassed
  · rintro t ⟨ht, htopen⟩
    by_contra hearly
    have hbefore := hz.clock_lt hshown (Int.not_le.mp hearly)
    by_cases hset : z.clock m.instant ≤ z.clock t
    · have hle : x ≤ z.clock t := hlow ⟨hset, htopen⟩
      omega
    · -- the clock has been set back over a closing
      obtain ⟨c, hc, hlow, hhigh⟩ := exists_turns htopen hclosed (Int.not_le.mp hset)
      have hrange := hz.clock_within_day t
      have hrange' := hz.clock_within_day m.instant
      have hpassed := not_set_back hz (honce c hc (by omega) (by simp only [microsPerDay]; omega))
        ht (Int.not_le.mp hset) hlow
      omega

/-- Opening and closing are shown once every day if no change touches their times of day. -/
theorem showsTurnsOnce_of_spares (hopening : Zone.Spares w.opening.micros z.initial z.changes)
    (hclosing : Zone.Spares w.closing.micros z.initial z.changes) (now : Int) :
    ShowsTurnsOnce z w now := by
  rintro x ⟨n, -, rfl | rfl⟩ - -
  · exact hz.stretches.shown_once (hopening.outside n)
  · exact hz.stretches.shown_once (hclosing.outside n)

/-- A moment is moved back just if its opening was shown before it. -/
theorem instantOf_lt_iff (hlt : z.clock m.instant < x) :
    z.instantOf x < m.instant ↔ ∃ i < m.instant, z.clock i = x := by
  constructor
  · intro hback
    exact ⟨_, hback, hz.clock_instantOf hback hlt⟩
  · rintro ⟨i, hi, hx⟩
    exact Int.lt_of_le_of_lt (hz.instantOf_le hx).1 hi

/-- Whatever the clock of a zone does, a moment is answered, and it is moved back exactly if the
opening that it waits for on the clock was shown at an instant before it. Where the openings and
closings around are shown once, the answer is the next open moment, so it is never earlier than the
moment and answers come in the order of the moments. -/
theorem moved_back_iff_shown_before (hzone : zoneIn known w.zone = .ok z) (hnaive : w.Naive)
    (hroom : HasRoom z m) :
    ∃ r, shiftBy known m w = .ok r ∧
      (r.instant < m.instant ↔ ∃ x, IsLeast {y | z.clock m.instant ≤ y ∧ w.IsOpen y} x ∧
        z.clock m.instant < x ∧ ∃ i < m.instant, z.clock i = x) ∧
      (ShowsTurnsOnce z w (z.clock m.instant) →
        (w.Opens → IsLeast {t | m.instant ≤ t ∧ w.IsOpen (z.clock t)} r.instant) ∧
        m.instant ≤ r.instant ∧
        ∀ m', HasRoom z m' → m.instant ≤ m'.instant →
          ShowsTurnsOnce z w (z.clock m'.instant) →
          ∃ r', shiftBy known m' w = .ok r' ∧ r.instant ≤ r'.instant) := by
  by_cases hopens : w.Opens
  · obtain ⟨x, r, hleast, hweek, hr, hinstant⟩ :=
      exists_shiftBy_of_regular hz hzone hnaive hopens hroom
    refine ⟨r, hr, ?_, ?_⟩
    · rw [hinstant]
      constructor
      · intro hback
        split at hback
        · exact absurd hback (Int.lt_irrefl _)
        · rename_i hne
          have hle : z.clock m.instant ≤ x := hleast.1.1
          have hlt : z.clock m.instant < x := by omega
          exact ⟨x, hleast, hlt, (instantOf_lt_iff hz hlt).mp hback⟩
      · rintro ⟨x', hleast', hlt, hbefore⟩
        rw [hleast'.unique hleast] at hlt hbefore
        rw [if_neg (Int.ne_of_gt hlt)]
        exact (instantOf_lt_iff hz hlt).mpr hbefore
    · intro honce
      have hnext := isLeast_instant hz hleast hweek honce
      rw [← hinstant] at hnext
      refine ⟨fun _ => hnext, hnext.1.1, ?_⟩
      intro m' hroom' hle honce'
      obtain ⟨x', r', hleast', hweek', hr', hinstant'⟩ :=
        exists_shiftBy_of_regular hz hzone hnaive hopens hroom'
      have hnext' := isLeast_instant hz hleast' hweek' honce'
      rw [← hinstant'] at hnext'
      exact ⟨r', hr', hnext.2 ⟨Int.le_trans hle hnext'.1.1, hnext'.1.2⟩⟩
  · obtain ⟨r, hr, hinstant⟩ := shiftBy_of_not_opens hzone hnaive hroom hopens
    refine ⟨r, hr, ?_, ?_⟩
    · rw [hinstant]
      refine ⟨fun hback => absurd hback (Int.lt_irrefl _), ?_⟩
      rintro ⟨x, hleast, -⟩
      exact absurd hleast.1.2.opens hopens
    · intro _
      refine ⟨fun h => absurd h hopens, Int.le_of_eq hinstant.symm, ?_⟩
      intro m' hroom' hle _
      obtain ⟨r', hr', hinstant'⟩ := shiftBy_of_not_opens hzone hnaive hroom' hopens
      exact ⟨r', hr', by rwa [hinstant, hinstant']⟩

end Regular

def london : Zone := .ofChanges 0 [Zone.changeAt 2024 3 31 60 60, Zone.changeAt 2024 10 27 60 0]

def newYork : Zone :=
  .ofChanges (-300) [Zone.changeAt 2024 3 10 420 (-240), Zone.changeAt 2024 11 3 360 (-300)]

def twoCities : Zones
  | "Europe/London" => some london
  | "America/New_York" => some newYork
  | _ => none

/-- In London the clock is set back in the night before a Sunday, which still opens at nine by the
new time. -/
theorem moved_back_iff_shown_before_london : ∃ m r : Moment,
    Iso.moment? "2024-10-26T23:30:00+00:00" = some m ∧
    HasRoom london m ∧
    shiftBy twoCities m (.standard (.text "Europe/London")) = .ok r ∧
    Iso.moment? "2024-10-27T09:00:00+00:00" = some r ∧ m.instant ≤ r.instant := by
  let m := (Iso.moment? "2024-10-26T23:30:00+00:00").get (by decide)
  let nine := (Iso.moment? "2024-10-27T09:00:00+00:00").get (by decide)
  have hz : london.Regular := by decide
  have hroom : HasRoom london m := by decide
  have hzone : zoneIn twoCities (Window.standard (.text "Europe/London")).zone = .ok london := rfl
  have hspares : Zone.Spares defaultOpening.micros london.initial london.changes ∧
      Zone.Spares defaultClosing.micros london.initial london.changes := by decide
  obtain ⟨r, hr, -, hforward⟩ :=
    moved_back_iff_shown_before hz hzone ⟨rfl, rfl⟩ hroom
  have hnine : (shiftBy twoCities m (.standard (.text "Europe/London"))).toOption = some nine := by
    decide
  have hsame : nine = r := by
    rw [hr] at hnine
    exact (Option.some.inj hnine).symm
  refine ⟨m, r, (Option.some_get _).symm, hroom, hr, ?_,
    (hforward (showsTurnsOnce_of_spares hz hspares.1 hspares.2 _)).2.1⟩
  rw [← hsame]
  exact (Option.some_get _).symm

/-- Opening at half past one, a moment of London's second hour from one to two is moved back to the
first one. Opening at half past two, in an hour that New York skips, the earlier of two moments is
answered with the later one. -/
theorem disorder_of_clock_changes :
    (∃ (w : Window) (m r : Moment), w.Naive ∧ HasRoom london m ∧
      w = { Window.standard (.text "Europe/London") with
        opening := timeOr defaultOpening (.text "01:30") } ∧
      Iso.moment? "2024-10-27T01:10:00+00:00" = some m ∧ shiftBy twoCities m w = .ok r ∧
      r.instant < m.instant) ∧
    ∃ (w : Window) (m m' r r' : Moment), w.Naive ∧
      HasRoom newYork m ∧ HasRoom newYork m' ∧
      w = { Window.standard (.text "America/New_York") with
        opening := timeOr defaultOpening (.text "02:30") } ∧
      Iso.moment? "2024-03-10T06:59:00+00:00" = some m ∧
      Iso.moment? "2024-03-10T07:05:00+00:00" = some m' ∧ m.instant ≤ m'.instant ∧
      shiftBy twoCities m w = .ok r ∧ shiftBy twoCities m' w = .ok r' ∧ r'.instant < r.instant := by
  constructor
  · let m := (Iso.moment? "2024-10-27T01:10:00+00:00").get (by decide)
    let r := (Iso.moment? "2024-10-27T00:30:00+00:00").get (by decide)
    refine ⟨_, m, r, ⟨by decide, rfl⟩, by decide, rfl, (Option.some_get _).symm,
      Fault.eq_ok_of_toOption (by decide), by decide⟩
  · let m := (Iso.moment? "2024-03-10T06:59:00+00:00").get (by decide)
    let m' := (Iso.moment? "2024-03-10T07:05:00+00:00").get (by decide)
    let r := (Iso.moment? "2024-03-10T07:30:00+00:00").get (by decide)
    refine ⟨_, m, m', r, m', ⟨by decide, rfl⟩, by decide, by decide, rfl,
      (Option.some_get _).symm, (Option.some_get _).symm, by decide,
      Fault.eq_ok_of_toOption (by decide), Fault.eq_ok_of_toOption (by decide),
      by decide⟩

end Funnel.Hours
