import Mathlib.Data.Prod.Lex
import Mathlib.Order.Bounds.Basic
import Funnel.Proofs.Work.Narrowing

/-!
# What grouping gives

The rows of a caller and a local day make one work day. It tells of the least and the greatest
instant of those rows, how many they are and how many of them are booked. The work days are in order
of their callers and days, so rows in another order make the same ones.
-/

set_option autoImplicit false

namespace Funnel.Work

open Calendar

variable {z : Zone} {k : String × Date} {d : WorkDay} {dial : Dial} {dials : List Dial}
  {row : Value} {rows : List Value}

def called? (row : Value) : Option Moment := (row.get "date_called").toOption.bind Value.timestamp?

def booked? (row : Value) : Option Bool := (row.get "booked" >>= Value.flag).toOption

def isBooked (row : Value) : Bool := booked? row == some true

/-- A row that fails nothing: an object whose flag can be read and whose time is on the calendar in
the zone, if there is a caller and a time at all. -/
structure Groupable (z : Zone) (row : Value) : Prop where
  object : ∃ fields, row = .object fields
  within : ∀ user m, caller? row = some user → called? row = some m → ∃ here, m.inZone? z = some here
  flagged : ∀ user m, caller? row = some user → called? row = some m → ∃ b, booked? row = some b

def rowsAt (z : Zone) (k : String × Date) (rows : List Value) : List Value :=
  rows.filter fun row => caller? row = some k.1 ∧ localDay? z row = some k.2

def instants (rows : List Value) : Set Int :=
  {t | ∃ row ∈ rows, ∃ m, called? row = some m ∧ m.instant = t}

theorem mem_rowsAt :
    row ∈ rowsAt z k rows ↔ row ∈ rows ∧ caller? row = some k.1 ∧ localDay? z row = some k.2 := by
  rw [rowsAt, List.mem_filter, decide_eq_true_eq]

theorem localDay?_eq (z : Zone) (row : Value) :
    localDay? z row = (called? row).bind fun m => (m.inZone? z).map Moment.date := by
  unfold localDay? called?
  cases row.get "date_called" with
  | error e => rfl
  | ok called =>
    change (called.timestamp?.bind fun m => (m.inZone? z).bind fun here => some here.date) = _
    simp only [Option.map_eq_bind, Function.comp_def]
    rfl

def dial? (z : Zone) (row : Value) : Option Dial :=
  (caller? row).bind fun user => (called? row).bind fun m => (localDay? z row).map fun day =>
    ⟨user, day, m, isBooked row⟩

theorem dial?_eq_some_iff : dial? z row = some dial ↔ caller? row = some dial.userId ∧
    called? row = some dial.called ∧ localDay? z row = some dial.day ∧
    isBooked row = dial.booked := by
  simp only [dial?, Option.bind_eq_some_iff, Option.map_eq_some_iff]
  constructor
  · rintro ⟨user, huser, m, hm, day, hday, rfl⟩
    exact ⟨huser, hm, hday, rfl⟩
  · rintro ⟨huser, hm, hday, hbooked⟩
    exact ⟨_, huser, _, hm, _, hday, by rw [hbooked]⟩

theorem Groupable.ofRow?_eq (h : Groupable z row) : Dial.ofRow? z row = .ok (dial? z row) := by
  have hwithin := h.within
  have hflagged := h.flagged
  have hday := localDay?_eq z row
  obtain ⟨fields, rfl⟩ := h.object
  have hcalled : called? (.object fields) =
      ((Named.find? fields "date_called").getD .null).timestamp? := rfl
  have hcaller : caller? (.object fields) =
      if ((Named.find? fields "setter_user_id").getD .null).isGiven then
        some ((Named.find? fields "setter_user_id").getD .null).toText else none := rfl
  refine Fault.bind_eq_ok_iff.mpr ⟨_, rfl, Fault.bind_eq_ok_iff.mpr ⟨_, rfl, ?_⟩⟩
  rw [← hcalled, dial?]
  cases hm : called? (.object fields) with
  | none => cases caller? (.object fields) <;> rfl
  | some m =>
    by_cases hgiven : ((Named.find? fields "setter_user_id").getD .null).isGiven = true
    · rw [if_pos hgiven] at hcaller
      obtain ⟨here, hhere⟩ := hwithin _ m hcaller hm
      obtain ⟨b, hb⟩ := hflagged _ m hcaller hm
      obtain ⟨flag, hflag, hread⟩ := Fault.bind_eq_ok_iff.mp (Fault.eq_ok_of_toOption hb)
      rw [hm, Option.bind_some, hhere] at hday
      simp only [if_pos hgiven, hhere]
      refine Fault.bind_eq_ok_iff.mpr ⟨flag, hflag, Fault.bind_eq_ok_iff.mpr ⟨b, hread, ?_⟩⟩
      rw [hcaller, hday, isBooked, hb]
      cases b <;> rfl
    · rw [if_neg hgiven] at hcaller
      simp only [if_neg hgiven, hcaller, Option.bind_none]

theorem groupable_of_isSome {fields : Fields} (hdial : (dial? z (.object fields)).isSome = true)
    (hflag : (booked? (.object fields)).isSome = true) : Groupable z (.object fields) where
  object := ⟨fields, rfl⟩
  within := by
    intro _ m _ hm
    obtain ⟨dial, hdial⟩ := Option.isSome_iff_exists.mp hdial
    have hday := (dial?_eq_some_iff.mp hdial).2.2.1
    rw [localDay?_eq, hm, Option.bind_some, Option.map_eq_some_iff] at hday
    exact hday.imp fun _ => And.left
  flagged _ _ _ _ := Option.isSome_iff_exists.mp hflag

theorem group_eq (h : ∀ row ∈ rows, Groupable z row) :
    group rows z = .ok (ofDials (rows.filterMap (dial? z))) := by
  refine group_eq_ok_iff.mpr ⟨_, Fault.mapM_eq_ok fun row hrow => (h row hrow).ofRow?_eq, ?_⟩
  rw [List.filterMap_map]
  rfl

def timesOf (dials : List Dial) : Set Int := {t | ∃ dial ∈ dials, dial.called.instant = t}

/-- A work day tells of the first and the last of some instants, how many dials there are and how
many of them are booked. -/
structure WorkDay.SumsUp (d : WorkDay) (times : Set Int) (dials bookings : Nat) : Prop where
  first : IsLeast times d.firstDial.instant
  last : IsGreatest times d.lastDial.instant
  dials : d.dials = dials
  bookings : d.bookings = bookings

theorem instant_earlier (a b : Moment) : (earlier a b).instant = min b.instant a.instant := by
  unfold earlier
  split <;> omega

theorem instant_later (a b : Moment) : (later a b).instant = max b.instant a.instant := by
  unfold later
  split <;> omega

section SumsUp

variable {times : Set Int} {n b : Nat}

theorem WorkDay.sumsUp_ofDial (dial : Dial) :
    (WorkDay.ofDial dial).SumsUp {dial.called.instant} 1 (if dial.booked then 1 else 0) :=
  ⟨isLeast_singleton, isGreatest_singleton, rfl, rfl⟩

theorem WorkDay.SumsUp.extend (h : d.SumsUp times n b) (dial : Dial) :
    (d.extend dial).SumsUp (insert dial.called.instant times) (n + 1)
      (b + if dial.booked then 1 else 0) where
  first := by
    rw [WorkDay.extend, instant_earlier]
    exact h.first.insert _
  last := by
    rw [WorkDay.extend, instant_later]
    exact h.last.insert _
  dials := congrArg (· + 1) h.dials
  bookings := congrArg (· + if dial.booked then 1 else 0) h.bookings

theorem timesOf_cons (dial : Dial) (dials : List Dial) :
    timesOf (dial :: dials) = insert dial.called.instant (timesOf dials) := by
  ext t
  simp [timesOf, eq_comm]

theorem WorkDay.SumsUp.foldl (h : d.SumsUp times n b) (dials : List Dial) :
    (dials.foldl WorkDay.extend d).SumsUp (times ∪ timesOf dials) (n + dials.length)
      (b + dials.countP Dial.booked) := by
  induction dials generalizing d times n b with
  | nil => simpa [timesOf] using h
  | cons dial dials ih =>
    have hnext := ih (h.extend dial)
    rw [Set.insert_union, ← Set.union_insert, ← timesOf_cons] at hnext
    rw [List.foldl_cons, List.length_cons, List.countP_cons, Nat.add_comm dials.length,
      Nat.add_comm (dials.countP _), ← Nat.add_assoc, ← Nat.add_assoc]
    exact hnext

end SumsUp

theorem foldl_addDial_of_keys (h : ∀ dial ∈ dials, dial.key = d.key) :
    dials.foldl addDial [d] = [dials.foldl WorkDay.extend d] := by
  induction dials generalizing d with
  | nil => rfl
  | cons dial dials ih =>
    rw [List.forall_mem_cons] at h
    rw [List.foldl_cons, List.foldl_cons, addDial_cons_of_eq h.1.symm]
    exact ih h.2

/-- Dials of one caller on one day make one work day. -/
theorem ofDials_of_keys (h : ∀ other ∈ dials, other.key = dial.key) :
    ofDials (dial :: dials) = [dials.foldl WorkDay.extend (.ofDial dial)] := by
  rw [ofDials, List.foldl_cons]
  change List.mergeSort (dials.foldl addDial [.ofDial dial]) comesBefore = _
  rw [foldl_addDial_of_keys h, List.mergeSort_singleton]

theorem WorkDay.sumsUp_foldl (dial : Dial) (dials : List Dial) :
    (dials.foldl WorkDay.extend (.ofDial dial)).SumsUp (timesOf (dial :: dials))
      (dial :: dials).length ((dial :: dials).countP Dial.booked) := by
  have hsums := (WorkDay.sumsUp_ofDial dial).foldl dials
  rw [Set.singleton_union, ← timesOf_cons] at hsums
  rw [List.length_cons, List.countP_cons, Nat.add_comm dials.length, Nat.add_comm (dials.countP _)]
  exact hsums

def dialsAt (k : String × Date) (dials : List Dial) : List Dial :=
  dials.filter fun dial => dial.key == k

theorem key_of_mem_dialsAt (h : dial ∈ dialsAt k dials) : dial.key = k :=
  beq_iff_eq.mp (List.mem_filter.mp h).2

theorem mem_ofDials_dialsAt : d ∈ ofDials (dialsAt k dials) ↔ d ∈ ofDials dials ∧ d.key = k := by
  rw [dialsAt, ← filter_ofDials (· == k) dials, List.mem_filter, beq_iff_eq]

/-- The work day of a caller and a day is that of the dials with both. -/
theorem ofDials_dialsAt {rest : List Dial} (h : dialsAt k dials = dial :: rest) :
    ofDials (dialsAt k dials) = [rest.foldl WorkDay.extend (.ofDial dial)] := by
  have hkeys : ∀ other ∈ dial :: rest, other.key = k := by
    intro other hother
    exact key_of_mem_dialsAt (h ▸ hother)
  rw [List.forall_mem_cons] at hkeys
  rw [h]
  apply ofDials_of_keys
  intro other hother
  rw [hkeys.1, hkeys.2 other hother]

theorem sumsUp_of_mem_ofDials (h : d ∈ ofDials dials) :
    d.SumsUp (timesOf (dialsAt d.key dials)) (dialsAt d.key dials).length
      ((dialsAt d.key dials).countP Dial.booked) := by
  -- Other dials leave the work day as it is, so it is the fold over the dials of its own key.
  have hmem : d ∈ ofDials (dialsAt d.key dials) := mem_ofDials_dialsAt.mpr ⟨h, rfl⟩
  cases hat : dialsAt d.key dials with
  | nil =>
    rw [hat] at hmem
    cases mem_ofDials.mp hmem
  | cons dial rest =>
    rw [ofDials_dialsAt hat, List.mem_singleton] at hmem
    rw [hmem]
    exact WorkDay.sumsUp_foldl dial rest

theorem exists_mem_ofDials (h : dial ∈ dials) : ∃ d ∈ ofDials dials, d.key = dial.key := by
  cases hat : dialsAt dial.key dials with
  | nil => exact absurd (beq_self_eq_true dial.key) (List.filter_eq_nil_iff.mp hat dial h)
  | cons first rest =>
    exact ⟨_, mem_ofDials_dialsAt.mp (ofDials_dialsAt hat ▸ List.mem_singleton_self _)⟩

theorem nodup_keys_ofDials (dials : List Dial) : ((ofDials dials).map WorkDay.key).Nodup :=
  ((List.mergeSort_perm _ comesBefore).map WorkDay.key).nodup_iff.mpr
    (nodup_keys_foldl dials List.nodup_nil)

instance : Std.Asymm fun a b : Date => a < b := ⟨fun _ _ => Nat.lt_asymm⟩

theorem sorted_ofDials (dials : List Dial) :
    ((ofDials dials).map WorkDay.key).Pairwise (Prod.Lex (· < ·) (· < ·)) := by
  have hsorted : (ofDials dials).Pairwise fun a b => comesBefore a b = true :=
    List.pairwise_mergeSort comesBefore_trans comesBefore_total _
  have hdistinct := List.pairwise_map.mp (nodup_keys_ofDials dials)
  rw [List.pairwise_map]
  refine (hsorted.and hdistinct).imp ?_
  intro a b ⟨hab, hne⟩
  rcases comesBefore_iff.mp hab with huser | ⟨huser, hday⟩
  · exact .left _ _ huser
  · have hdays : a.day ≠ b.day := fun hsame => hne (Prod.ext huser hsame)
    exact Prod.lex_def.mpr (.inr ⟨huser, Nat.lt_of_le_of_ne hday fun hn => hdays (Date.ext_day hn)⟩)

theorem exists_dial? (h : row ∈ rowsAt z k rows) :
    ∃ m, called? row = some m ∧ dial? z row = some ⟨k.1, k.2, m, isBooked row⟩ := by
  obtain ⟨-, huser, hday⟩ := mem_rowsAt.mp h
  have hcalled := hday
  rw [localDay?_eq] at hcalled
  obtain ⟨m, hm, -⟩ := Option.bind_eq_some_iff.mp hcalled
  exact ⟨m, hm, dial?_eq_some_iff.mpr ⟨huser, hm, hday, rfl⟩⟩

theorem dialsAt_filterMap (z : Zone) (k : String × Date) (rows : List Value) :
    dialsAt k (rows.filterMap (dial? z)) = (rowsAt z k rows).filterMap (dial? z) := by
  rw [dialsAt, rowsAt, List.filter_filterMap, List.filterMap_filter]
  apply List.filterMap_congr
  intro row _
  cases hdial : dial? z row with
  | none => rw [Option.filter_none, ite_self]
  | some dial =>
    obtain ⟨huser, -, hday, -⟩ := dial?_eq_some_iff.mp hdial
    rw [huser, hday, Option.filter_some]
    simp only [Option.some.injEq, decide_eq_true_eq, beq_iff_eq, Dial.key, Prod.ext_iff]

theorem timesOf_rowsAt (z : Zone) (k : String × Date) (rows : List Value) :
    timesOf ((rowsAt z k rows).filterMap (dial? z)) = instants (rowsAt z k rows) := by
  ext t
  constructor
  · rintro ⟨dial, hdial, rfl⟩
    obtain ⟨row, hrow, hsome⟩ := List.mem_filterMap.mp hdial
    exact ⟨row, hrow, _, (dial?_eq_some_iff.mp hsome).2.1, rfl⟩
  · rintro ⟨row, hrow, m, hm, rfl⟩
    obtain ⟨n, hn, hdial⟩ := exists_dial? hrow
    obtain rfl : m = n := Option.some.inj (hm.symm.trans hn)
    exact ⟨_, List.mem_filterMap.mpr ⟨row, hrow, hdial⟩, rfl⟩

theorem length_rowsAt (z : Zone) (k : String × Date) (rows : List Value) :
    ((rowsAt z k rows).filterMap (dial? z)).length = (rowsAt z k rows).length := by
  rw [List.length_filterMap_eq_countP, List.countP_eq_length]
  intro row hrow
  obtain ⟨m, -, hdial⟩ := exists_dial? hrow
  rw [hdial, Option.isSome_some]

theorem countP_rowsAt (z : Zone) (k : String × Date) (rows : List Value) :
    ((rowsAt z k rows).filterMap (dial? z)).countP Dial.booked =
      (rowsAt z k rows).countP isBooked := by
  rw [List.countP_filterMap]
  apply List.countP_congr
  intro row hrow
  obtain ⟨m, -, hdial⟩ := exists_dial? hrow
  rw [hdial]
  rfl

/-- The work days of rows: in strict order, one for each caller and day of a dial, and each sums up
the rows of its caller and day. -/
structure Grouped (z : Zone) (rows : List Value) (days : List WorkDay) : Prop where
  sorted : (days.map WorkDay.key).Pairwise (Prod.Lex (· < ·) (· < ·))
  one : ∀ k, (∃! d, d ∈ days ∧ d.key = k) ↔
    ∃ row ∈ rows, caller? row = some k.1 ∧ localDay? z row = some k.2
  sums : ∀ d ∈ days, d.SumsUp (instants (rowsAt z d.key rows)) (rowsAt z d.key rows).length
    ((rowsAt z d.key rows).countP isBooked)

theorem sums_of_mem (h : d ∈ ofDials (rows.filterMap (dial? z))) :
    d.SumsUp (instants (rowsAt z d.key rows)) (rowsAt z d.key rows).length
      ((rowsAt z d.key rows).countP isBooked) := by
  have hsums := sumsUp_of_mem_ofDials h
  rwa [dialsAt_filterMap, timesOf_rowsAt, length_rowsAt, countP_rowsAt] at hsums

theorem grouped_ofDials (z : Zone) (rows : List Value) :
    Grouped z rows (ofDials (rows.filterMap (dial? z))) where
  sorted := sorted_ofDials _
  one k := by
    constructor
    · rintro ⟨d, ⟨hd, rfl⟩, -⟩
      obtain ⟨row, hrow, -⟩ := (sums_of_mem hd).first.1
      exact ⟨row, mem_rowsAt.mp hrow⟩
    · rintro ⟨row, hrow, hkey⟩
      obtain ⟨m, -, hdial⟩ := exists_dial? (mem_rowsAt.mpr ⟨hrow, hkey⟩)
      obtain ⟨d, hd, hdkey⟩ := exists_mem_ofDials (List.mem_filterMap.mpr ⟨row, hrow, hdial⟩)
      refine ⟨d, ⟨hd, hdkey⟩, ?_⟩
      rintro other ⟨hother, hotherkey⟩
      exact List.inj_on_of_nodup_map (nodup_keys_ofDials _) hother hd
        (hotherkey.trans hdkey.symm)
  sums d hd := sums_of_mem hd

/-- What a work day says, whatever the offsets its instants are written with. -/
def WorkDay.reading (d : WorkDay) : (String × Date) × (Int × Int) × Nat × Nat :=
  (d.key, (d.firstDial.instant, d.lastDial.instant), d.dials, d.bookings)

theorem WorkDay.SumsUp.reading_eq {times : Set Int} {n b : Nat} {e : WorkDay} (hkey : d.key = e.key)
    (hd : d.SumsUp times n b) (he : e.SumsUp times n b) : d.reading = e.reading := by
  rw [WorkDay.reading, WorkDay.reading, hkey, hd.first.unique he.first, hd.last.unique he.last,
    hd.dials, he.dials, hd.bookings, he.bookings]

section Grouped

variable {rows' : List Value} {days days' : List WorkDay}

theorem Grouped.perm (h : Grouped z rows days) (hperm : rows.Perm rows') :
    Grouped z rows' days where
  sorted := h.sorted
  one k := by
    rw [h.one k]
    simp only [hperm.mem_iff]
  sums d hd := by
    have hat : (rowsAt z d.key rows).Perm (rowsAt z d.key rows') := hperm.filter _
    have hinstants : instants (rowsAt z d.key rows) = instants (rowsAt z d.key rows') := by
      ext t
      simp only [instants, Set.mem_ofPred_eq, hat.mem_iff]
    rw [← hinstants, ← hat.length_eq, ← hat.countP_eq]
    exact h.sums d hd

theorem Grouped.reading_mem (h : Grouped z rows days) (h' : Grouped z rows days') (hd : d ∈ days) :
    d.reading ∈ days'.map WorkDay.reading := by
  obtain ⟨row, hrow, -⟩ := (h.sums d hd).first.1
  obtain ⟨d', ⟨hd', hkey⟩, -⟩ := (h'.one d.key).mpr ⟨row, mem_rowsAt.mp hrow⟩
  have hsums := h'.sums d' hd'
  rw [hkey] at hsums
  exact List.mem_map.mpr ⟨d', hd', hsums.reading_eq hkey (h.sums d hd)⟩

theorem Grouped.sorted_readings (h : Grouped z rows days) :
    (days.map WorkDay.reading).Pairwise fun r s => Prod.Lex (· < ·) (· < ·) r.1 s.1 :=
  List.pairwise_map.mpr (List.pairwise_map.mp h.sorted)

theorem Grouped.nodup_readings (h : Grouped z rows days) : (days.map WorkDay.reading).Nodup := by
  apply h.sorted_readings.imp
  rintro r s hrs rfl
  exact irrefl _ hrs

/-- The rows leave no choice of what their work days say. -/
theorem Grouped.readings_eq (h : Grouped z rows days) (h' : Grouped z rows days') :
    days.map WorkDay.reading = days'.map WorkDay.reading := by
  have hmem : ∀ r, r ∈ days.map WorkDay.reading ↔ r ∈ days'.map WorkDay.reading := by
    intro r
    constructor
    · intro hr
      obtain ⟨d, hd, rfl⟩ := List.mem_map.mp hr
      exact h.reading_mem h' hd
    · intro hr
      obtain ⟨d, hd, rfl⟩ := List.mem_map.mp hr
      exact h'.reading_mem h hd
  have hperm := (List.perm_ext_iff_of_nodup h.nodup_readings h'.nodup_readings).mpr hmem
  refine hperm.eq_of_pairwise ?_ h.sorted_readings h'.sorted_readings
  intro r s _ _ hrs hsr
  exact (asymm hrs hsr).elim

end Grouped

/-- Rows are grouped into the work days of their callers and local days, in strict order, each of
which tells of the least and the greatest instant of its rows, how many they are and how many of
them are booked. Rows in another order make work days that say the same. -/
theorem groups_by_caller_and_day (h : ∀ row ∈ rows, Groupable z row) :
    ∃ days, group rows z = .ok days ∧ Grouped z rows days ∧
      (∀ d ∈ days, d.firstDial.instant ≤ d.lastDial.instant ∧ d.bookings ≤ d.dials ∧
        1 ≤ d.dials) ∧
      ∀ rows', rows'.Perm rows → ∃ days', group rows' z = .ok days' ∧
        days'.map WorkDay.reading = days.map WorkDay.reading := by
  have hgrouped := grouped_ofDials z rows
  refine ⟨_, group_eq h, hgrouped, ?_, ?_⟩
  · intro d hd
    obtain ⟨hfirst, hlast, hdials, hbookings⟩ := hgrouped.sums d hd
    obtain ⟨row, hrow, -⟩ := hfirst.1
    refine ⟨hfirst.2 hlast.1, ?_, ?_⟩
    · rw [hdials, hbookings]
      exact List.countP_le_length
    · rw [hdials]
      exact List.length_pos_of_mem hrow
  · intro rows' hperm
    have h' : ∀ row ∈ rows', Groupable z row := fun row hrow => h row (hperm.mem_iff.mp hrow)
    exact ⟨_, group_eq h', ((grouped_ofDials z rows').perm hperm).readings_eq hgrouped⟩

/-- Ann dials twice on a day that is five hours behind UTC, and Bob once: the three rows make a work
day of Ann with two dials and one booking. -/
theorem groups_by_caller_and_day_ann : ∃ (rows : List Value) (z : Zone) (days : List WorkDay),
    group rows z = .ok days ∧
      ∃ d ∈ days, d.userId = "ann" ∧ d.dials = 2 ∧ d.bookings = 1 ∧
        d.firstDial.instant ≤ d.lastDial.instant := by
  let rows := [dialRow "ann" "2024-01-03T03:00:00Z" (.bool false),
    dialRow "bob" "2024-01-02T20:00:00Z" .null,
    dialRow "ann" "2024-01-02T20:00:00Z" (.bool true)]
  let z := Zone.fixed (-300)
  let k : String × Date := ("ann", ⟨738887, by decide, by decide⟩)
  have h : ∀ row ∈ rows, Groupable z row := by
    simp only [rows, List.forall_mem_cons, List.not_mem_nil, false_imp_iff, implies_true, and_true]
    refine ⟨groupable_of_isSome ?_ ?_, groupable_of_isSome ?_ ?_, groupable_of_isSome ?_ ?_⟩ <;>
      decide
  obtain ⟨days, hdays, hgrouped, hbounds, -⟩ := groups_by_caller_and_day h
  have hann : caller? rows[0] = some k.1 ∧ localDay? z rows[0] = some k.2 := by decide
  obtain ⟨d, ⟨hd, hkey⟩, -⟩ := (hgrouped.one k).mpr ⟨_, List.getElem_mem _, hann⟩
  have hsums := hgrouped.sums d hd
  have hcounts : (rowsAt z k rows).length = 2 ∧ (rowsAt z k rows).countP isBooked = 1 := by
    decide
  rw [hkey, hcounts.1, hcounts.2] at hsums
  exact ⟨rows, z, days, hdays, d, hd, congrArg Prod.fst hkey, hsums.dials, hsums.bookings,
    (hbounds d hd).1⟩

end Funnel.Work
