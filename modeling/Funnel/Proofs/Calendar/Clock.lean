import Funnel.Calendar.Zone

/-!
# Clocks of time zones

The clock of a zone runs with UTC except where its offset changes. A change forward skips a stretch
of readings and a change back shows one twice. Where no two changes move the clock over the same
readings, these are the only irregularities: a reading is otherwise shown once, and the instant that
a zone gives for a reading is the first one at which it is shown.
-/

set_option autoImplicit false

namespace Funnel.Calendar.Zone

/-- What the clock of a zone reads at an instant. -/
def clock (z : Zone) (instant : Int) : Int := instant + z.offsetAt instant

/-- The instant that a zone gives for a reading of its clock. -/
def instantOf (z : Zone) (reading : Int) : Int := reading - z.offsetOfWall reading

/-- The readings that changes skip or repeat come one stretch after the other, all after `lo`, for
a clock with an offset of `before` until the first change. -/
def StretchesAfter (lo before : Int) : List Transition → Prop
  | [] => True
  | t :: rest =>
    lo < t.instant + min before t.offset ∧
      StretchesAfter (t.instant + max before t.offset) t.offset rest

instance decidableStretchesAfter :
    (lo before : Int) → (ts : List Transition) → Decidable (StretchesAfter lo before ts)
  | _, _, [] => .isTrue trivial
  | _, before, t :: rest =>
    have := decidableStretchesAfter (t.instant + max before t.offset) t.offset rest
    inferInstanceAs (Decidable (_ ∧ _))

/-- What the zones of a time zone database keep to: no offset reaches a day, nothing changes in the
first days of the calendar, and no two changes move the clock over the same readings. -/
structure Regular (z : Zone) : Prop where
  within_day : ∀ o ∈ z.initial :: z.changes.map Transition.offset,
    -microsPerDay < o ∧ o < microsPerDay
  stretches : StretchesAfter (3 * microsPerDay) z.initial z.changes

instance (z : Zone) : Decidable z.Regular :=
  decidable_of_iff ((∀ o ∈ z.initial :: z.changes.map Transition.offset,
      -(microsPerDay : Int) < o ∧ o < microsPerDay) ∧
      StretchesAfter (3 * microsPerDay) z.initial z.changes)
    ⟨fun h => ⟨h.1, h.2⟩, fun h => ⟨h.1, h.2⟩⟩

structure Steady (z : Zone) (offset : Int) : Prop where
  of_instant : ∀ i, z.offsetAt i = offset
  of_reading : ∀ x, z.offsetOfWall x = offset
  within_day : -microsPerDay < offset ∧ offset < microsPerDay

section Changes

variable {lo lo' before i j x : Int} {t : Transition} {ts : List Transition}

theorem StretchesAfter.mono (hlo : lo' ≤ lo) (h : StretchesAfter lo before ts) :
    StretchesAfter lo' before ts := by
  cases ts with
  | nil => trivial
  | cons t ts => exact ⟨Int.lt_of_le_of_lt hlo h.1, h.2⟩

theorem StretchesAfter.lt_instant (h : StretchesAfter lo before ts) :
    ∀ t ∈ ts, lo - before < t.instant := by
  induction ts generalizing lo before with
  | nil => nofun
  | cons t ts ih =>
    obtain ⟨hlo, hrest⟩ := h
    intro u hu
    rcases List.mem_cons.mp hu with rfl | hu
    · omega
    · have hlater := ih hrest u hu
      omega

theorem offsetAt_of_lt (h : ∀ t ∈ ts, i < t.instant) : (Zone.mk before ts).offsetAt i = before := by
  induction ts with
  | nil => rfl
  | cons t ts ih =>
    have hearly : ¬ t.instant ≤ i := Int.not_le.mpr (h t List.mem_cons_self)
    have hrest := ih fun u hu => h u (List.mem_cons_of_mem t hu)
    rw [offsetAt] at hrest ⊢
    rwa [List.foldl_cons, if_neg hearly]

theorem StretchesAfter.clock_of_add_le (h : StretchesAfter lo before ts) (hi : i + before ≤ lo) :
    (Zone.mk before ts).clock i = i + before := by
  rw [clock, offsetAt_of_lt]
  intro t ht
  have hlate := h.lt_instant t ht
  omega

theorem clock_cons_of_lt (h : StretchesAfter lo before (t :: ts)) (hi : i < t.instant) :
    (Zone.mk before (t :: ts)).clock i = i + before := by
  rw [clock, offsetAt_of_lt]
  intro u hu
  rcases List.mem_cons.mp hu with rfl | hu
  · exact hi
  · have hlate := h.2.lt_instant u hu
    omega

theorem clock_cons_of_le (hi : t.instant ≤ i) :
    (Zone.mk before (t :: ts)).clock i = (Zone.mk t.offset ts).clock i := by
  simp only [clock, offsetAt, List.foldl_cons, if_pos hi]

theorem instantOf_cons_of_lt (hx : x < t.instant + max before t.offset) :
    (Zone.mk before (t :: ts)).instantOf x = x - before := by
  simp only [instantOf, offsetOfWall, wallOffsetFrom, if_pos hx]

theorem instantOf_cons_of_le (hx : t.instant + max before t.offset ≤ x) :
    (Zone.mk before (t :: ts)).instantOf x = (Zone.mk t.offset ts).instantOf x := by
  simp only [instantOf, offsetOfWall, wallOffsetFrom, if_neg (Int.not_lt.mpr hx)]

/-- Changes after a reading leave the clock at or past it. -/
theorem StretchesAfter.le_clock (h : StretchesAfter lo before ts) (hi : lo ≤ i + before) :
    lo ≤ (Zone.mk before ts).clock i := by
  induction ts generalizing lo before with
  | nil => exact hi
  | cons t ts ih =>
    by_cases hlt : i < t.instant
    · rw [clock_cons_of_lt h hlt]
      exact hi
    · obtain ⟨hlo, hrest⟩ := h
      rw [clock_cons_of_le (Int.not_lt.mp hlt)]
      exact ih (hrest.mono (by omega)) (by omega)

theorem StretchesAfter.le_clock_of_le (h : StretchesAfter lo before (t :: ts))
    (hi : t.instant ≤ i) : t.instant + t.offset ≤ (Zone.mk t.offset ts).clock i :=
  have hstretches : StretchesAfter (t.instant + t.offset) t.offset ts := h.2.mono (by omega)
  hstretches.le_clock (by omega)

theorem StretchesAfter.sub_le_instantOf (h : StretchesAfter lo before ts) (hx : lo ≤ x) :
    lo - before ≤ (Zone.mk before ts).instantOf x := by
  induction ts generalizing lo before with
  | nil => exact Int.sub_le_sub_right hx before
  | cons t ts ih =>
    obtain ⟨hlo, hrest⟩ := h
    by_cases hlt : x < t.instant + max before t.offset
    · rw [instantOf_cons_of_lt hlt]
      omega
    · have hle := Int.not_lt.mp hlt
      have hlate := ih hrest hle
      rw [instantOf_cons_of_le hle]
      omega

/-- A reading behind the stretch of a change belongs to an instant from the change on. -/
theorem StretchesAfter.le_instantOf (h : StretchesAfter lo before (t :: ts))
    (hx : t.instant + max before t.offset ≤ x) : t.instant ≤ (Zone.mk t.offset ts).instantOf x := by
  have hlate := h.2.sub_le_instantOf hx
  omega

/-- Up to the first stretch, a reading belongs to an instant no earlier than one that reads less. -/
theorem StretchesAfter.le_instantOf_of_le (h : StretchesAfter lo before ts)
    (hi : (Zone.mk before ts).clock i ≤ x) (hx : x ≤ lo) : i ≤ (Zone.mk before ts).instantOf x := by
  cases ts with
  | nil => exact Int.le_sub_right_of_add_le hi
  | cons t ts =>
    rw [instantOf_cons_of_lt (by have := h.1; omega)]
    by_cases hlt : i < t.instant
    · rw [clock_cons_of_lt h hlt] at hi
      omega
    · have hle := Int.not_lt.mp hlt
      have hlo := h.1
      have hpast := h.le_clock_of_le hle
      rw [clock_cons_of_le hle] at hi
      omega

/-- The instant of a reading that is shown is the first one that shows it. -/
theorem StretchesAfter.instantOf_le (h : StretchesAfter lo before ts)
    (hx : (Zone.mk before ts).clock i = x) :
    (Zone.mk before ts).instantOf x ≤ i ∧
      (Zone.mk before ts).clock ((Zone.mk before ts).instantOf x) = x := by
  induction ts generalizing lo before with
  | nil =>
    have hx : i + before = x := hx
    change x - before ≤ i ∧ x - before + before = x
    omega
  | cons t ts ih =>
    by_cases hlt : x < t.instant + max before t.offset
    · have hshown : x - before < t.instant ∧ x - before ≤ i := by
        by_cases hi : i < t.instant
        · rw [clock_cons_of_lt h hi] at hx
          omega
        · have hle := Int.not_lt.mp hi
          have hpast := h.le_clock_of_le hle
          rw [clock_cons_of_le hle] at hx
          omega
      rw [instantOf_cons_of_lt hlt, clock_cons_of_lt h hshown.1]
      omega
    · have hle := Int.not_lt.mp hlt
      have hlate := h.le_instantOf hle
      by_cases hi : i < t.instant
      · rw [clock_cons_of_lt h hi] at hx
        omega
      · rw [clock_cons_of_le (Int.not_lt.mp hi)] at hx
        rw [instantOf_cons_of_le hle, clock_cons_of_le hlate]
        exact ih h.2 hx

/-- Before a reading is shown for the first time, the clock has not passed it. -/
theorem StretchesAfter.clock_lt (h : StretchesAfter lo before ts)
    (hx : (Zone.mk before ts).clock i = x) (hj : j < (Zone.mk before ts).instantOf x) :
    (Zone.mk before ts).clock j < x := by
  induction ts generalizing lo before with
  | nil => exact Int.add_lt_of_lt_sub_right hj
  | cons t ts ih =>
    by_cases hlt : x < t.instant + max before t.offset
    · rw [instantOf_cons_of_lt hlt] at hj
      have hearly : j < t.instant := by
        by_cases hi : i < t.instant
        · rw [clock_cons_of_lt h hi] at hx
          omega
        · have hle := Int.not_lt.mp hi
          have hpast := h.le_clock_of_le hle
          rw [clock_cons_of_le hle] at hx
          omega
      rw [clock_cons_of_lt h hearly]
      omega
    · have hle := Int.not_lt.mp hlt
      rw [instantOf_cons_of_le hle] at hj
      by_cases hearly : j < t.instant
      · rw [clock_cons_of_lt h hearly]
        omega
      · rw [clock_cons_of_le (Int.not_lt.mp hearly)]
        by_cases hi : i < t.instant
        · rw [clock_cons_of_lt h hi] at hx
          omega
        · rw [clock_cons_of_le (Int.not_lt.mp hi)] at hx
          exact ih h.2 hx hj

/-- A clock that reads less than `x`, though the instant of `x` is over, has shown `x` then. -/
theorem StretchesAfter.clock_instantOf (h : StretchesAfter lo before ts)
    (hover : (Zone.mk before ts).instantOf x < i) (hx : (Zone.mk before ts).clock i < x) :
    (Zone.mk before ts).clock ((Zone.mk before ts).instantOf x) = x := by
  induction ts generalizing lo before with
  | nil => exact Int.sub_add_cancel x before
  | cons t ts ih =>
    by_cases hlt : x < t.instant + max before t.offset
    · rw [instantOf_cons_of_lt hlt] at hover ⊢
      have hearly : x - before < t.instant := by
        by_cases hi : i < t.instant
        · omega
        · have hle := Int.not_lt.mp hi
          have hpast := h.le_clock_of_le hle
          rw [clock_cons_of_le hle] at hx
          omega
      rw [clock_cons_of_lt h hearly]
      omega
    · have hle := Int.not_lt.mp hlt
      have hlate := h.le_instantOf hle
      rw [instantOf_cons_of_le hle] at hover ⊢
      rw [clock_cons_of_le (by omega)] at hx
      rw [clock_cons_of_le hlate]
      exact ih h.2 hover hx

/-- Where the clock has been set back from one reading to another, it shows what lies between them
twice. -/
theorem StretchesAfter.shown_twice (h : StretchesAfter lo before ts) (hij : i ≤ j)
    (hlt : (Zone.mk before ts).clock j < (Zone.mk before ts).clock i)
    (hj : (Zone.mk before ts).clock j ≤ x) (hi : x ≤ (Zone.mk before ts).clock i) :
    lo < x ∧ ∃ k l, k ≠ l ∧ (Zone.mk before ts).clock k = x ∧ (Zone.mk before ts).clock l = x := by
  induction ts generalizing lo before with
  | nil =>
    have hlt : j + before < i + before := hlt
    omega
  | cons t ts ih =>
    have hstretch := h.1
    by_cases hjt : j < t.instant
    · rw [clock_cons_of_lt h hjt, clock_cons_of_lt h (by omega)] at hlt
      omega
    · have hle := Int.not_lt.mp hjt
      rw [clock_cons_of_le hle] at hlt hj
      by_cases hit : i < t.instant
      · have hpast := h.le_clock_of_le hle
        rw [clock_cons_of_lt h hit] at hlt hi
        refine ⟨by omega, x - before, x - t.offset, by omega, ?_, ?_⟩
        · rw [clock_cons_of_lt h (by omega)]
          omega
        · rw [clock_cons_of_le (by omega), h.2.clock_of_add_le (by omega)]
          omega
      · rw [clock_cons_of_le (Int.not_lt.mp hit)] at hlt hi
        obtain ⟨hx, k, l, hkl, hk, hl⟩ := ih h.2 hlt hj hi
        -- before the change the clock of the later changes has not come as far as `x`
        have hlater : ∀ k, (Zone.mk t.offset ts).clock k = x → t.instant ≤ k := by
          intro k hk
          by_cases hearly : k < t.instant
          · rw [h.2.clock_of_add_le (by omega)] at hk
            omega
          · exact Int.not_lt.mp hearly
        refine ⟨by omega, k, l, hkl, ?_, ?_⟩
        · rw [clock_cons_of_le (hlater k hk), hk]
        · rw [clock_cons_of_le (hlater l hl), hl]

/-- The reading is in no stretch that a change skips or repeats. -/
def Outside (x before : Int) : List Transition → Prop
  | [] => True
  | t :: rest =>
    (x < t.instant + min before t.offset ∨ t.instant + max before t.offset ≤ x) ∧
      Outside x t.offset rest

theorem StretchesAfter.shown_once (h : StretchesAfter lo before ts) (hx : Outside x before ts) :
    ∃ i, (Zone.mk before ts).clock i = x ∧ ∀ j, (Zone.mk before ts).clock j = x → j = i := by
  induction ts generalizing lo before with
  | nil =>
    refine ⟨x - before, Int.sub_add_cancel x before, ?_⟩
    intro j hj
    have hj : j + before = x := hj
    omega
  | cons t ts ih =>
    rcases hx.1 with hlt | hle
    · refine ⟨x - before, ?_, ?_⟩
      · rw [clock_cons_of_lt h (by omega)]
        omega
      · intro j hj
        by_cases hjt : j < t.instant
        · rw [clock_cons_of_lt h hjt] at hj
          omega
        · have hpast := h.le_clock_of_le (Int.not_lt.mp hjt)
          rw [clock_cons_of_le (Int.not_lt.mp hjt)] at hj
          omega
    · obtain ⟨i, hi, honly⟩ := ih h.2 hx.2
      have hit : t.instant ≤ i := by
        by_cases hearly : i < t.instant
        · rw [h.2.clock_of_add_le (by omega)] at hi
          omega
        · exact Int.not_lt.mp hearly
      refine ⟨i, by rw [clock_cons_of_le hit, hi], ?_⟩
      intro j hj
      by_cases hjt : j < t.instant
      · rw [clock_cons_of_lt h hjt] at hj
        omega
      · rw [clock_cons_of_le (Int.not_lt.mp hjt)] at hj
        exact honly j hj

/-- No change skips or repeats a reading at this time of day. -/
def Spares (time before : Int) : List Transition → Prop
  | [] => True
  | t :: rest =>
    max before t.offset - min before t.offset ≤
        (time - (t.instant + min before t.offset)) % microsPerDay ∧
      Spares time t.offset rest

instance decidableSpares : (time before : Int) → (ts : List Transition) →
    Decidable (Spares time before ts)
  | _, _, [] => .isTrue trivial
  | time, _, t :: rest =>
    have := decidableSpares time t.offset rest
    inferInstanceAs (Decidable (_ ∧ _))

theorem Spares.outside {time : Int} (h : Spares time before ts) (day : Int) :
    Outside (day * microsPerDay + time) before ts := by
  induction ts generalizing before with
  | nil => trivial
  | cons t ts ih =>
    refine ⟨?_, ih h.2⟩
    have hspared := h.1
    simp only [microsPerDay] at *
    omega

end Changes

section Clock

variable {z : Zone} {i j x : Int}

theorem offsetOfWall_mem (z : Zone) (x : Int) :
    z.offsetOfWall x ∈ z.initial :: z.changes.map Transition.offset := by
  obtain ⟨before, ts⟩ := z
  change wallOffsetFrom before x ts ∈ before :: ts.map Transition.offset
  induction ts generalizing before with
  | nil => exact List.mem_singleton.mpr rfl
  | cons t ts ih =>
    rw [wallOffsetFrom]
    split
    · exact List.mem_cons_self
    · exact List.mem_cons_of_mem before (ih t.offset)

theorem offsetAt_mem (z : Zone) (i : Int) :
    z.offsetAt i ∈ z.initial :: z.changes.map Transition.offset := by
  obtain ⟨before, ts⟩ := z
  change ts.foldl (fun o t => if t.instant ≤ i then t.offset else o) before ∈
    before :: ts.map Transition.offset
  induction ts generalizing before with
  | nil => exact List.mem_singleton.mpr rfl
  | cons t ts ih =>
    rw [List.foldl_cons]
    split
    · exact List.mem_cons_of_mem before (ih t.offset)
    · rcases List.mem_cons.mp (ih before) with h | h
      · rw [h]
        exact List.mem_cons_self
      · exact List.mem_cons_of_mem before (List.mem_cons_of_mem t.offset h)

namespace Regular

theorem clock_within_day (hz : z.Regular) (i : Int) :
    i - microsPerDay < z.clock i ∧ z.clock i < i + microsPerDay := by
  obtain ⟨hlow, hhigh⟩ := hz.within_day _ (offsetAt_mem z i)
  unfold clock
  omega

theorem instantOf_le (hz : z.Regular) (hx : z.clock i = x) :
    z.instantOf x ≤ i ∧ z.clock (z.instantOf x) = x :=
  hz.stretches.instantOf_le hx

theorem clock_lt (hz : z.Regular) (hx : z.clock i = x) (hj : j < z.instantOf x) : z.clock j < x :=
  hz.stretches.clock_lt hx hj

theorem clock_instantOf (hz : z.Regular) (hover : z.instantOf x < i) (hx : z.clock i < x) :
    z.clock (z.instantOf x) = x :=
  hz.stretches.clock_instantOf hover hx

theorem shown_twice (hz : z.Regular) (hij : i ≤ j) (hlt : z.clock j < z.clock i)
    (hj : z.clock j ≤ x) (hi : x ≤ z.clock i) : ∃ k l, k ≠ l ∧ z.clock k = x ∧ z.clock l = x :=
  (hz.stretches.shown_twice hij hlt hj hi).2

/-- A reading at or past what an instant of the calendar reads belongs to an instant of it. -/
theorem le_instantOf (hz : z.Regular) (hi : microsPerDay ≤ i) (hx : z.clock i ≤ x) :
    microsPerDay ≤ z.instantOf x := by
  by_cases hfirst : x ≤ 3 * microsPerDay
  · exact Int.le_trans hi (hz.stretches.le_instantOf_of_le hx hfirst)
  · have hoffset := (hz.within_day _ (offsetOfWall_mem z x)).2
    unfold instantOf
    omega

theorem instantOf_lt (hz : z.Regular) (hx : x < lastDay * microsPerDay) :
    z.instantOf x < (lastDay + 1) * microsPerDay := by
  have hoffset := (hz.within_day _ (offsetOfWall_mem z x)).1
  rw [instantOf, Int.add_mul, Int.one_mul]
  omega

end Regular

end Clock

end Funnel.Calendar.Zone
