import Funnel.Proofs.Hours.Forward

/-!
# Stored business hours

A stored setting is a list of entries, in place or spelled in JSON. Entries that are no objects are
skipped and times that cannot be read take their default, but working days have to be whole numbers:
one entry with others fails the whole setting. A window that has been read answers every moment, if
both of its times have an offset or neither has.
-/

set_option autoImplicit false

namespace Funnel.Hours

open Calendar

def storedEntries (raw : Value) : List Value :=
  if raw.isGiven then
    match raw with
    | .text s =>
      match Json.read? s with
      | some (.list entries) => entries
      | _ => []
    | .list entries => entries
    | _ => []
  else []

def objects (entries : List Value) : List Fields :=
  entries.filterMap fun
    | .object fields => some fields
    | _ => none

/-- The value stands for a whole number: it is finite, or a text of digits. -/
def StandsForWhole : Value → Prop
  | .bool _ | .int _ => True
  | .double x => Number.isFinite x = true
  | .decimal d => ∃ negative coefficient exponent, d = .finite negative coefficient exponent
  | .text s => (Number.readInt? s).isSome = true
  | _ => False

/-- The working days of an entry are not given, or they list whole numbers. -/
def DaysReadable (fields : Fields) : Prop :=
  (either fields "workingDays" "working_days").isGiven = true →
    ∃ items, (either fields "workingDays" "working_days").entries = .ok items ∧
      ∀ item ∈ items, StandsForWhole item

theorem exists_wholeNumber_iff (v : Value) :
    (∃ n, wholeNumber v = .ok n) ↔ StandsForWhole v := by
  cases v with
  | bool b => exact ⟨fun _ => trivial, fun _ => ⟨_, rfl⟩⟩
  | int n => exact ⟨fun _ => trivial, fun _ => ⟨n, rfl⟩⟩
  | double x =>
    rw [wholeNumber, StandsForWhole, Number.truncate?, Number.fraction?, Number.isFinite]
    cases Number.Reading.ofDouble x <;> simp
  | decimal d =>
    cases d with
    | finite negative coefficient exponent =>
      exact ⟨fun _ => ⟨negative, coefficient, exponent, rfl⟩, fun _ => ⟨_, rfl⟩⟩
    | _ =>
      constructor
      · rintro ⟨_, ⟨⟩⟩
      · rintro ⟨_, _, _, ⟨⟩⟩
  | text s =>
    rw [wholeNumber, StandsForWhole]
    cases Number.readInt? s <;> simp
  | _ =>
    constructor
    · rintro ⟨_, ⟨⟩⟩
    · exact False.elim

theorem parse_eq (raw : Value) :
    parse raw = (objects (storedEntries raw)).mapM Window.ofFields := by
  unfold parse storedEntries
  split
  · cases raw with
    | text s =>
      simp only
      cases Json.read? s with
      | none => rfl
      | some v => cases v <;> rfl
    | _ => rfl
  · rfl

theorem exists_daysOf_iff {days : Value} : (∃ ds, daysOf days = .ok ds) ↔
    (days.isGiven = true → ∃ items, days.entries = .ok items ∧
      ∀ item ∈ items, StandsForWhole item) := by
  rw [daysOf]
  simp only [← exists_wholeNumber_iff]
  by_cases hgiven : days.isGiven = true
  · rw [if_pos hgiven]
    simp only [Fault.bind_eq_ok_iff, hgiven, true_imp_iff, ← Fault.exists_mapM_eq_ok_iff]
    constructor
    · rintro ⟨ds, items, hitems, hds⟩
      exact ⟨items, hitems, ds, hds⟩
    · rintro ⟨items, hitems, ds, hds⟩
      exact ⟨ds, items, hitems, hds⟩
  · rw [if_neg hgiven]
    exact ⟨fun _ h => absurd h hgiven, fun _ => ⟨allDays, rfl⟩⟩

/-- An entry has a window exactly if its working days can be read. -/
theorem exists_ofFields_iff {fields : Fields} :
    (∃ w, Window.ofFields fields = .ok w) ↔ DaysReadable fields := by
  rw [DaysReadable, ← exists_daysOf_iff]
  constructor
  · rintro ⟨w, hw⟩
    obtain ⟨ds, hds, -⟩ := Fault.bind_eq_ok_iff.mp hw
    exact ⟨ds, hds⟩
  · rintro ⟨ds, hds⟩
    exact Fault.exists_bind_eq_ok hds ⟨_, rfl⟩

theorem entries_ne_nil {v : Value} {items : List Value} (hgiven : v.isGiven = true)
    (h : v.entries = .ok items) : items ≠ [] := by
  rintro rfl
  cases v with
  | list items =>
    cases h
    cases hgiven
  | text s =>
    have hs : s.toList = [] := List.map_eq_nil_iff.mp (Except.ok.inj h)
    rw [String.toList_eq_nil_iff.mp hs] at hgiven
    cases hgiven
  | object fields =>
    obtain rfl := List.map_eq_nil_iff.mp (Except.ok.inj h)
    cases hgiven
  | _ => cases h

theorem daysOf_ne_nil {days : Value} {ds : List Int} (h : daysOf days = .ok ds) : ds ≠ [] := by
  rw [daysOf] at h
  split at h
  · rename_i hgiven
    obtain ⟨items, hitems, hds⟩ := Fault.bind_eq_ok_iff.mp h
    have hne := entries_ne_nil hgiven hitems
    have hlength := (Fault.mapM_eq_ok_iff.mp hds).length_eq
    rintro rfl
    exact hne (List.eq_nil_of_length_eq_zero hlength)
  · cases h
    exact List.cons_ne_nil _ _

theorem workingDays_ne_nil {fields : Fields} {w : Window} (h : Window.ofFields fields = .ok w) :
    w.workingDays ≠ [] := by
  obtain ⟨ds, hds, hw⟩ := Fault.bind_eq_ok_iff.mp h
  cases hw
  exact daysOf_ne_nil hds

variable {known : String → Option Zone} {w : Window} {z : Zone} {m ts here : Moment} {day : Date}

/-- Times can be compared just if both have an offset or neither has. -/
theorem exists_isBefore_iff (a b : ClockTime) :
    (∃ before, isBefore a b = .ok before) ↔ a.offset.isSome = b.offset.isSome := by
  unfold isBefore
  cases a.offset <;> cases b.offset
  · exact ⟨fun _ => rfl, fun _ => ⟨_, rfl⟩⟩
  · exact ⟨nofun, nofun⟩
  · exact ⟨nofun, nofun⟩
  · refine ⟨fun _ => rfl, fun _ => ?_⟩
    simp only
    split <;> exact ⟨_, rfl⟩

section Answers

variable (hz : z.Regular) (hcalendar : InCalendar ts.instant)
include hz hcalendar

theorem exists_wallInUtc_of_le {x : Int} (hx : z.clock ts.instant ≤ x)
    (hlast : x < lastDay * microsPerDay) : ∃ r, wallInUtc z x = .ok r := by
  obtain ⟨r, hr, -⟩ := exists_wallInUtc ⟨hz.le_instantOf hcalendar.1 hx, hz.instantOf_lt hlast⟩
  exact ⟨r, hr⟩

theorem exists_nextOpening {left : Nat}
    (hday : z.clock ts.instant ≤ day.dayNumber * microsPerDay)
    (hroom : day.dayNumber + left ≤ lastDay) : ∃ r, nextOpening z w ts left day = .ok r := by
  induction left generalizing day with
  | zero => exact exists_inUtc hcalendar
  | succ left ih =>
    rw [nextOpening]
    split
    · have hmidnight := wallAt_midnight day
      have hopening := w.opening.lt_day
      refine exists_wallInUtc_of_le hz hcalendar ?_ ?_
      · omega
      · rw [hmidnight]
        simp only [wallAt, microsPerDay, lastDay] at *
        omega
    · obtain ⟨next, hnext, hnumber⟩ := exists_next (show day.dayNumber < lastDay by omega)
      simp only [hnext]
      refine ih ?_ (by omega)
      simp only [hnumber, microsPerDay] at *
      omega

theorem exists_shiftIn (hhere : ts.inZone? z = some here)
    (hroom : here.date.dayNumber + 8 ≤ lastDay) : ∃ r, shiftIn z ts w = .ok r := by
  have hwall := (Moment.of_inZone? hhere).1
  have hdiv := here.wall_ediv
  have hmicros := here.lt_day
  rw [shiftIn, hhere]
  simp only
  split
  · split
    · refine exists_wallInUtc_of_le hz hcalendar (by omega) ?_
      have hopening := w.opening.lt_day
      simp only [wallAt, microsPerDay, lastDay] at *
      omega
    · rw [inUtc_congr (Moment.of_inZone? hhere).2.1]
      exact exists_inUtc hcalendar
  · obtain ⟨next, hnext, hnumber⟩ := exists_next (show here.date.dayNumber < lastDay by omega)
    simp only [hnext]
    refine exists_nextOpening hz hcalendar ?_ (by omega)
    simp only [hnumber, microsPerDay] at *
    omega

end Answers

theorem exists_shiftBy_iff (hz : z.Regular) (hzone : zoneIn known w.zone = .ok z)
    (hdays : w.workingDays ≠ []) (hroom : HasRoom z m) :
    (∃ r, shiftBy known m w = .ok r) ↔ w.opening.offset.isSome = w.closing.offset.isSome := by
  have hcalendar : InCalendar m.assumeUtc.instant := by
    rw [m.instant_assumeUtc]
    exact hroom.inCalendar.1
  rw [← exists_isBefore_iff, shiftBy, if_neg hdays]
  constructor
  · rintro ⟨r, hr⟩
    obtain ⟨before, hbefore, -⟩ := Fault.bind_eq_ok_iff.mp hr
    exact ⟨before, hbefore⟩
  · rintro ⟨before, hbefore⟩
    refine Fault.exists_bind_eq_ok hbefore ?_
    cases before with
    | false => exact exists_inUtc hcalendar
    | true =>
      obtain ⟨here, hhere, hlast⟩ := hroom
      rw [Moment.inZone?_congr m.instant_assumeUtc.symm] at hhere
      exact Fault.exists_bind_eq_ok hzone (exists_shiftIn hz hcalendar hhere hlast)

/-- A stored setting is read exactly if the working days of all its objects are. Then each object has
the window of its own fields, in the order of the entries, and a window answers the moments that have
room in its zone exactly if both of its times have an offset or neither has. -/
theorem stored_hours_usable_iff (raw : Value) :
    ((∃ ws, parse raw = .ok ws) ↔
      ∀ fields ∈ objects (storedEntries raw), DaysReadable fields) ∧
    ∀ ws, parse raw = .ok ws →
      List.Forall₂ (fun fields w => Window.ofFields fields = .ok w)
        (objects (storedEntries raw)) ws ∧
      ∀ w ∈ ws, ∀ (known : String → Option Zone) (z : Zone) (m : Moment),
        zoneIn known w.zone = .ok z → z.Regular → HasRoom z m →
          ((∃ r, shiftBy known m w = .ok r) ↔
            w.opening.offset.isSome = w.closing.offset.isSome) := by
  constructor
  · rw [parse_eq, Fault.exists_mapM_eq_ok_iff]
    simp only [exists_ofFields_iff]
  · intro ws hws
    rw [parse_eq] at hws
    refine ⟨Fault.mapM_eq_ok_iff.mp hws, ?_⟩
    intro w hw known z m hzone hz hroom
    obtain ⟨fields, -, hfields⟩ := (Fault.mem_of_mapM hws).mp hw
    exact exists_shiftBy_iff hz hzone (workingDays_ne_nil hfields) hroom

/-- Of three entries the one that is no object is skipped, a time that cannot be read is the default,
and the hours of both countries answer. -/
theorem stored_hours_usable_iff_two_countries : ∃ (raw : Value) (uk us : Window) (m : Moment),
    (storedEntries raw).length = 3 ∧ parse raw = .ok [uk, us] ∧
    uk = { Window.standard (.text "Europe/London") with
      workingDays := [1, 5], countryCode := "+44" } ∧
    us = { Window.standard (.text "UTC") with countryCode := "+1" } ∧
    HasRoom london m ∧ HasRoom .utc m ∧
    (∃ r, shiftBy twoCities m uk = .ok r) ∧ ∃ r, shiftBy twoCities m us = .ok r := by
  let raw : Value := .list [
    .object [("countryCode", .text "+44"), ("tz", .text "Europe/London"),
      ("workingDays", .list [.int 1, .text "5"])],
    .text "closed",
    .object [("countryCode", .text "+1"), ("startLocal", .text "8 am")]]
  let uk : Window := { Window.standard (.text "Europe/London") with
    workingDays := [1, 5], countryCode := "+44" }
  let us : Window := { Window.standard (.text "UTC") with countryCode := "+1" }
  let m := (Iso.moment? "2024-10-26T23:30:00+00:00").get (by decide)
  have hroom : HasRoom london m ∧ HasRoom .utc m := by decide
  have hregular : london.Regular ∧ Zone.utc.Regular := by decide
  have hws : parse raw = .ok [uk, us] := rfl
  have hanswers := ((stored_hours_usable_iff raw).2 _ hws).2
  exact ⟨raw, uk, us, m, rfl, hws, rfl, rfl, hroom.1, hroom.2,
    (hanswers uk List.mem_cons_self twoCities _ m rfl hregular.1 hroom.1).mpr rfl,
    (hanswers us (List.mem_cons_of_mem _ List.mem_cons_self) twoCities _ m rfl hregular.2
      hroom.2).mpr rfl⟩

/-- A weekday by its name fails the hours of another country, and an opening with an offset beside a
closing without one fails every moment, here one at which the window is open. -/
theorem hours_lost_by_one_entry :
    (∃ (named other : Value) (ws : List Window),
      named = .object [("workingDays", .list [.text "Mon"])] ∧
      parse (.list [other]) = .ok ws ∧ ws ≠ [] ∧
      parse (.list [named, other]) = .error .badValue) ∧
    ∃ (raw : Value) (w : Window) (m : Moment), parse raw = .ok [w] ∧ HasRoom .utc m ∧
      zoneIn twoCities w.zone = .ok .utc ∧ shiftBy twoCities m w = .error .wrongKind := by
  constructor
  · refine ⟨_, .object [("tz", .text "Europe/London")], _, rfl, rfl, List.cons_ne_nil _ _, rfl⟩
  · let m := (Iso.moment? "2024-03-01T10:00:00+00:00").get (by decide)
    refine ⟨.list [.object [("startLocal", .text "09:00+01:00"), ("endLocal", .text "17:00")]],
      _, m, rfl, by decide, rfl, rfl⟩

end Funnel.Hours
