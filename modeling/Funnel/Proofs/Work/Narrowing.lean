import Mathlib.Algebra.BigOperators.Group.List.Basic
import Mathlib.Algebra.BigOperators.Ring.List
import Mathlib.Algebra.GroupWithZero.Nat
import Mathlib.Data.List.Nodup
import Funnel.Proofs.Fault
import Funnel.Proofs.Named
import Funnel.Proofs.Series.Partition
import Funnel.Work.Day

/-!
# Narrowing work days

Dials are grouped by caller and day. Whatever says of a caller and a day whether they are wanted
can be asked of the dials before they are grouped or of the work days afterwards: the work days are
the same ones in the same order, and so are their totals to the last bit of the hours. Counts of
dials are whole numbers, so they also add up over any windows that hold each day once, and over the
callers.
-/

set_option autoImplicit false

namespace Funnel.Work

open Calendar

def WorkDay.key (d : WorkDay) : String × Date := (d.userId, d.day)

def Dial.key (dial : Dial) : String × Date := (dial.userId, dial.day)

theorem WorkDay.key_ofDial (dial : Dial) : (WorkDay.ofDial dial).key = dial.key := rfl

theorem WorkDay.key_extend (d : WorkDay) (dial : Dial) : (d.extend dial).key = d.key := rfl

theorem addDial_cons_of_eq {d : WorkDay} {dial : Dial} (h : d.key = dial.key)
    (ds : List WorkDay) : addDial (d :: ds) dial = d.extend dial :: ds :=
  if_pos (Prod.mk.inj h)

theorem addDial_cons_of_ne {d : WorkDay} {dial : Dial} (h : d.key ≠ dial.key)
    (ds : List WorkDay) : addDial (d :: ds) dial = d :: addDial ds dial :=
  if_neg fun hsame => h (Prod.ext hsame.1 hsame.2)

variable {p : String × Date → Bool} {dial : Dial}

/-- A dial that is wanted goes to the same work day among the wanted ones. -/
theorem filter_addDial_of_pos (h : p dial.key = true) (ds : List WorkDay) :
    (addDial ds dial).filter (fun d => p d.key) = addDial (ds.filter fun d => p d.key) dial := by
  induction ds with
  | nil => simp [addDial, WorkDay.key_ofDial, h]
  | cons d ds ih =>
    by_cases hkey : d.key = dial.key
    · have hd : p d.key = true := by rw [hkey, h]
      rw [addDial_cons_of_eq hkey, List.filter_cons, List.filter_cons, WorkDay.key_extend,
        if_pos hd, if_pos hd, addDial_cons_of_eq hkey]
    · rw [addDial_cons_of_ne hkey, List.filter_cons, List.filter_cons, ih]
      by_cases hd : p d.key = true
      · rw [if_pos hd, if_pos hd, addDial_cons_of_ne hkey]
      · rw [if_neg hd, if_neg hd]

theorem filter_addDial_of_neg (h : ¬ p dial.key = true) (ds : List WorkDay) :
    (addDial ds dial).filter (fun d => p d.key) = ds.filter fun d => p d.key := by
  induction ds with
  | nil => simp [addDial, WorkDay.key_ofDial, h]
  | cons d ds ih =>
    by_cases hkey : d.key = dial.key
    · have hd : ¬ p d.key = true := by rwa [hkey]
      rw [addDial_cons_of_eq hkey, List.filter_cons, List.filter_cons, WorkDay.key_extend,
        if_neg hd, if_neg hd]
    · rw [addDial_cons_of_ne hkey, List.filter_cons, List.filter_cons, ih]

theorem filter_foldl_addDial (dials : List Dial) (ds : List WorkDay) :
    (dials.foldl addDial ds).filter (fun d => p d.key) =
      (dials.filter fun dial => p dial.key).foldl addDial (ds.filter fun d => p d.key) := by
  induction dials generalizing ds with
  | nil => rfl
  | cons dial dials ih =>
    rw [List.foldl_cons, ih]
    by_cases h : p dial.key = true
    · rw [List.filter_cons, if_pos h, List.foldl_cons, filter_addDial_of_pos h]
    · rw [List.filter_cons, if_neg h, filter_addDial_of_neg h]

theorem mem_keys_addDial {ds : List WorkDay} {k : String × Date}
    (h : k ∈ (addDial ds dial).map WorkDay.key) : k ∈ ds.map WorkDay.key ∨ k = dial.key := by
  induction ds with
  | nil => exact .inr (by simpa [addDial, WorkDay.key_ofDial] using h)
  | cons d ds ih =>
    by_cases hkey : d.key = dial.key
    · rw [addDial_cons_of_eq hkey] at h
      exact .inl h
    · rw [addDial_cons_of_ne hkey, List.map_cons, List.mem_cons] at h
      rcases h with rfl | h
      · exact .inl List.mem_cons_self
      · exact (ih h).imp_left (List.mem_cons_of_mem _)

theorem nodup_keys_addDial {ds : List WorkDay} (h : (ds.map WorkDay.key).Nodup) (dial : Dial) :
    ((addDial ds dial).map WorkDay.key).Nodup := by
  induction ds with
  | nil => exact List.nodup_singleton _
  | cons d ds ih =>
    by_cases hkey : d.key = dial.key
    · rw [addDial_cons_of_eq hkey]
      exact h
    · rw [List.map_cons, List.nodup_cons] at h
      rw [addDial_cons_of_ne hkey, List.map_cons, List.nodup_cons]
      refine ⟨?_, ih h.2⟩
      intro hmem
      rcases mem_keys_addDial hmem with hold | hnew
      · exact h.1 hold
      · exact hkey hnew

theorem nodup_keys_foldl (dials : List Dial) {ds : List WorkDay}
    (h : (ds.map WorkDay.key).Nodup) : ((dials.foldl addDial ds).map WorkDay.key).Nodup := by
  induction dials generalizing ds with
  | nil => exact h
  | cons dial dials ih => exact ih (nodup_keys_addDial h dial)

theorem comesBefore_iff {a b : WorkDay} :
    comesBefore a b = true ↔ a.userId < b.userId ∨ (a.userId = b.userId ∧ a.day ≤ b.day) := by
  simp [comesBefore]

theorem comesBefore_trans (a b c : WorkDay) (hab : comesBefore a b = true)
    (hbc : comesBefore b c = true) : comesBefore a c = true := by
  rw [comesBefore_iff] at hab hbc ⊢
  rcases hab with hab | ⟨hab, hday⟩
  · rcases hbc with hbc | ⟨hbc, -⟩
    · exact .inl (String.lt_trans hab hbc)
    · exact .inl (hbc ▸ hab)
  · rcases hbc with hbc | ⟨hbc, hday'⟩
    · exact .inl (hab ▸ hbc)
    · exact .inr ⟨hab.trans hbc, Nat.le_trans hday hday'⟩

theorem comesBefore_total (a b : WorkDay) : (comesBefore a b || comesBefore b a) = true := by
  rw [Bool.or_eq_true, comesBefore_iff, comesBefore_iff]
  by_cases hlt : a.userId < b.userId
  · exact .inl (.inl hlt)
  · by_cases hgt : b.userId < a.userId
    · exact .inr (.inl hgt)
    · have hsame := String.le_antisymm (String.not_lt.mp hgt) (String.not_lt.mp hlt)
      rcases Nat.le_total a.day.dayNumber b.day.dayNumber with hday | hday
      · exact .inl (.inr ⟨hsame, hday⟩)
      · exact .inr (.inr ⟨hsame.symm, hday⟩)

theorem key_eq_of_comesBefore {a b : WorkDay} (hab : comesBefore a b = true)
    (hba : comesBefore b a = true) : a.key = b.key := by
  rw [comesBefore_iff] at hab hba
  rcases hab with hab | ⟨hab, hday⟩
  · rcases hba with hba | ⟨hba, -⟩
    · exact absurd (String.lt_trans hab hba) (String.lt_irrefl _)
    · exact absurd (hba ▸ hab) (String.lt_irrefl _)
  · rcases hba with hba | ⟨-, hday'⟩
    · exact absurd (hab ▸ hba) (String.lt_irrefl _)
    · exact Prod.ext hab (Date.ext_day (Nat.le_antisymm hday hday'))

theorem mem_ofDials {dials : List Dial} {d : WorkDay} :
    d ∈ ofDials dials ↔ d ∈ dials.foldl addDial [] := List.mem_mergeSort

/-- The work days of the wanted dials are the wanted work days. Their order is fixed, since no two
of them are of the same caller and day. -/
theorem filter_ofDials (p : String × Date → Bool) (dials : List Dial) :
    (ofDials dials).filter (fun d => p d.key) = ofDials (dials.filter fun dial => p dial.key) := by
  have hfold : (dials.foldl addDial []).filter (fun d => p d.key) =
      (dials.filter fun dial => p dial.key).foldl addDial [] := filter_foldl_addDial dials []
  have hnodup : ((dials.foldl addDial []).map WorkDay.key).Nodup :=
    nodup_keys_foldl dials List.nodup_nil
  have hsame : ∀ a b, a ∈ (ofDials dials).filter (fun d => p d.key) →
      b ∈ ofDials (dials.filter fun dial => p dial.key) → comesBefore a b = true →
      comesBefore b a = true → a = b := by
    intro a b ha hb hab hba
    have ha' := mem_ofDials.mp (List.mem_of_mem_filter ha)
    rw [mem_ofDials, ← hfold] at hb
    exact List.inj_on_of_nodup_map hnodup ha' (List.mem_of_mem_filter hb)
      (key_eq_of_comesBefore hab hba)
  have hsorted : ∀ ds : List WorkDay,
      (ds.mergeSort comesBefore).Pairwise fun a b => comesBefore a b = true :=
    List.pairwise_mergeSort comesBefore_trans comesBefore_total
  have hperm := (List.mergeSort_perm (dials.foldl addDial []) comesBefore).filter
    fun d => p d.key
  rw [hfold] at hperm
  exact (hperm.trans (List.mergeSort_perm _ _).symm).eq_of_pairwise hsame
    ((hsorted _).filter _) (hsorted _)

def localDay? (z : Zone) (row : Value) : Option Date := do
  let called ← (row.get "date_called").toOption
  let here ← (← called.timestamp?).inZone? z
  some here.date

def caller? (row : Value) : Option String := do
  let user ← (row.get "setter_user_id").toOption
  if user.isGiven then some user.toText else none

theorem of_ofRow? {z : Zone} {row : Value} (h : Dial.ofRow? z row = .ok (some dial)) :
    localDay? z row = some dial.day ∧ caller? row = some dial.userId := by
  unfold Dial.ofRow? at h
  obtain ⟨user, huser, h⟩ := Fault.bind_eq_ok_iff.mp h
  obtain ⟨called, hcalled, h⟩ := Fault.bind_eq_ok_iff.mp h
  unfold localDay? caller?
  rw [huser, hcalled]
  split at h
  · cases h
  next moment hmoment =>
  split at h
  next hgiven =>
    split at h
    · cases h
    next here hhere =>
    obtain ⟨flag, -, h⟩ := Fault.bind_eq_ok_iff.mp h
    obtain ⟨booked, -, h⟩ := Fault.bind_eq_ok_iff.mp h
    cases h
    constructor
    · change (called.timestamp?.bind fun moment => (moment.inZone? z).bind fun here =>
        some here.date) = _
      rw [hmoment, Option.bind_some, hhere]
      rfl
    · exact if_pos hgiven
  · cases h

theorem group_eq_ok_iff {rows : List Value} {z : Zone} {days : List WorkDay} :
    group rows z = .ok days ↔ ∃ found, rows.mapM (Dial.ofRow? z) = .ok found ∧
      ofDials (found.filterMap id) = days := by
  unfold group
  rw [Fault.bind_eq_ok_iff]
  simp only [Except.ok.injEq]

theorem group_filter {rows : List Value} {z : Zone} {days : List WorkDay} {keep : Value → Bool}
    (hkeep : ∀ row dial, Dial.ofRow? z row = .ok (some dial) → keep row = p dial.key)
    (h : group rows z = .ok days) :
    group (rows.filter keep) z = .ok (days.filter fun d => p d.key) := by
  obtain ⟨found, hfound, rfl⟩ := group_eq_ok_iff.mp h
  obtain ⟨kept, hkept, hdials⟩ := Fault.mapM_filter hkeep hfound
  refine group_eq_ok_iff.mpr ⟨kept, hkept, ?_⟩
  rw [hdials, filter_ofDials]

def rowsWithin (z : Zone) (start finish : Date) (rows : List Value) : List Value :=
  rows.filter fun row => (localDay? z row).any fun day => start ≤ day ∧ day ≤ finish

def rowsOf (user : String) (rows : List Value) : List Value :=
  rows.filter fun row => caller? row == some user

section Rows

variable {rows : List Value} {z : Zone} {days : List WorkDay}

theorem group_rowsWithin (h : group rows z = .ok days) (start finish : Date) :
    group (rowsWithin z start finish rows) z =
      .ok (days.filter fun d => start ≤ d.day ∧ d.day ≤ finish) := by
  apply group_filter (p := fun k => start ≤ k.2 ∧ k.2 ≤ finish) _ h
  intro row dial hrow
  rw [(of_ofRow? hrow).1]
  rfl

theorem group_rowsOf (h : group rows z = .ok days) (user : String) :
    group (rowsOf user rows) z = .ok (days.filter fun d => d.userId == user) := by
  apply group_filter (p := fun k => k.1 == user) _ h
  intro row dial hrow
  rw [(of_ofRow? hrow).2]
  rfl

end Rows

theorem mem_callers {days : List WorkDay} {user : String} :
    user ∈ callers days ↔ ∃ d ∈ days, d.userId = user := by
  rw [callers, List.mem_eraseDups, List.mem_map]

theorem nodup_callers (days : List WorkDay) : (callers days).Nodup := by
  have hnames := Named.names_putAll_nil (days.map fun d => (d.userId, ()))
  have hnodup : (Named.putAll [] (days.map fun d => (d.userId, ()))).names.Nodup :=
    @Named.nodup_names_putAll Unit [] List.nodup_nil _
  rw [hnames, Named.names, List.map_map] at hnodup
  exact hnodup

theorem names_perUser (days : List WorkDay) : (perUser days).names = callers days := by
  rw [perUser, Named.names, List.map_map]
  exact List.map_id _

theorem find?_perUser (days : List WorkDay) (user : String) :
    (perUser days).find? user = if days.filter (fun d => d.userId == user) = [] then none
      else some (.ofDays (days.filter fun d => d.userId == user)) := by
  by_cases hmem : user ∈ callers days
  · obtain ⟨d, hd, huser⟩ := mem_callers.mp hmem
    have hne : days.filter (fun d => d.userId == user) ≠ [] := by
      intro hnil
      exact List.filter_eq_nil_iff.mp hnil d hd (beq_iff_eq.mpr huser)
    have hnodup : (perUser days).names.Nodup := by
      rw [names_perUser]
      exact nodup_callers days
    rw [if_neg hne]
    exact Named.find?_of_mem hnodup (List.mem_map.mpr ⟨user, hmem, rfl⟩)
  · have hnil : days.filter (fun d => d.userId == user) = [] := by
      rw [List.filter_eq_nil_iff]
      intro d hd huser
      exact hmem (mem_callers.mpr ⟨d, hd, beq_iff_eq.mp huser⟩)
    rw [if_pos hnil]
    cases hfind : (perUser days).find? user with
    | none => rfl
    | some totals =>
      have hname := List.mem_map_of_mem (f := Prod.fst) (Named.mem_of_find? hfind)
      rw [← names_perUser] at hmem
      exact absurd hname hmem

theorem counts_foldl (days : List WorkDay) (t : Totals) :
    (days.foldl Totals.add t).dials = t.dials + (days.map WorkDay.dials).sum ∧
      (days.foldl Totals.add t).bookings = t.bookings + (days.map WorkDay.bookings).sum := by
  induction days generalizing t with
  | nil => exact ⟨rfl, rfl⟩
  | cons d days ih =>
    obtain ⟨hdials, hbookings⟩ := ih (t.add d)
    rw [List.foldl_cons, List.map_cons, List.map_cons, List.sum_cons, List.sum_cons, hdials,
      hbookings]
    exact ⟨Nat.add_assoc _ _ _, Nat.add_assoc _ _ _⟩

theorem counts_ofDays (days : List WorkDay) :
    (Totals.ofDays days).dials = (days.map WorkDay.dials).sum ∧
      (Totals.ofDays days).bookings = (days.map WorkDay.bookings).sum := by
  obtain ⟨hdials, hbookings⟩ := counts_foldl days .zero
  exact ⟨hdials.trans (Nat.zero_add _), hbookings.trans (Nat.zero_add _)⟩

section Sums

variable {α ι : Type}

theorem sum_ite (ks : List ι) (q : ι → Bool) (n : Nat) :
    (ks.map fun k => if q k then n else 0).sum = ks.countP q * n := by
  induction ks with
  | nil => simp
  | cons k ks ih =>
    rw [List.map_cons, List.sum_cons, ih, List.countP_cons]
    by_cases h : q k = true
    · rw [if_pos h, if_pos h, Nat.add_mul, Nat.one_mul, Nat.add_comm]
    · rw [if_neg h, if_neg h, Nat.add_zero, Nat.zero_add]

/-- What is counted for each of several filters is counted as often as a filter keeps it. -/
theorem sum_filters (ks : List ι) (q : ι → α → Bool) (count : α → Nat) (xs : List α) :
    (ks.map fun k => ((xs.filter (q k)).map count).sum).sum =
      (xs.map fun x => ks.countP (q · x) * count x).sum := by
  induction xs with
  | nil => simp
  | cons x xs ih =>
    have hstep : ∀ k, (((x :: xs).filter (q k)).map count).sum =
        (if q k x then count x else 0) + ((xs.filter (q k)).map count).sum := by
      intro k
      rw [List.filter_cons]
      by_cases h : q k x = true
      · rw [if_pos h, if_pos h, List.map_cons, List.sum_cons]
      · rw [if_neg h, if_neg h, Nat.zero_add]
    simp only [hstep, List.sum_map_add, ih, sum_ite, List.map_cons, List.sum_cons]

theorem sum_filter (q : α → Bool) (count : α → Nat) (xs : List α) :
    ((xs.filter q).map count).sum = (xs.map fun x => (if q x then 1 else 0) * count x).sum := by
  induction xs with
  | nil => rfl
  | cons x xs ih =>
    rw [List.filter_cons, List.map_cons, List.sum_cons, ← ih]
    by_cases h : q x = true
    · rw [if_pos h, if_pos h, List.map_cons, List.sum_cons, Nat.one_mul]
    · rw [if_neg h, if_neg h, Nat.zero_mul, Nat.zero_add]

end Sums

section Windows

variable {start finish : Date} {g : Granularity} {ws : List BucketWindow}

theorem bounds_of_bucketWindows (h : bucketWindows start finish g = .ok ws) {w : BucketWindow}
    (hw : w ∈ ws) : start ≤ w.start ∧ w.finish ≤ finish := by
  obtain ⟨series, -, h⟩ := Fault.bind_eq_ok_iff.mp h
  obtain ⟨b, -, hclip⟩ := (Fault.mem_of_mapM h).mp hw
  obtain ⟨next, -, hclip⟩ := Fault.bind_eq_ok_iff.mp hclip
  split at hclip
  next last hlast =>
    cases hclip
    rw [Date.le_iff, Date.le_iff, dayNumber_max, dayNumber_min]
    exact ⟨Nat.le_max_right _ _, Nat.min_le_right _ _⟩
  · cases hclip

/-- A day of the range is in one window, and any other day in none. -/
theorem countP_windows (h : bucketWindows start finish g = .ok ws) (d : Date) :
    ws.countP (fun w => w.start ≤ d ∧ d ≤ w.finish) =
      if start ≤ d ∧ d ≤ finish then 1 else 0 := by
  by_cases hd : start ≤ d ∧ d ≤ finish
  · have hle : start ≤ finish := Nat.le_trans hd.1 hd.2
    obtain ⟨-, -, hparts⟩ := of_bucketWindows hle h
    obtain ⟨w, hone, -⟩ := hparts.covers d hd.1 hd.2
    rw [if_pos hd, List.countP_eq_length_filter, hone]
    rfl
  · rw [if_neg hd, List.countP_eq_zero]
    intro w hw hwithin
    obtain ⟨hstart, hfinish⟩ := bounds_of_bucketWindows h hw
    obtain ⟨hfrom, hto⟩ := of_decide_eq_true hwithin
    exact hd ⟨Nat.le_trans hstart hfrom, Nat.le_trans hto hfinish⟩

theorem sum_windows (h : bucketWindows start finish g = .ok ws) (count : WorkDay → Nat)
    (days : List WorkDay) :
    (ws.map fun w => ((days.filter fun d => w.start ≤ d.day ∧ d.day ≤ w.finish).map count).sum).sum =
      ((days.filter fun d => start ≤ d.day ∧ d.day ≤ finish).map count).sum := by
  have hwindows := sum_filters ws (fun w (d : WorkDay) => w.start ≤ d.day ∧ d.day ≤ w.finish)
    count days
  simp only [countP_windows h] at hwindows
  rw [hwindows, sum_filter]
  simp only [decide_eq_true_eq]

end Windows

theorem sum_callers (count : WorkDay → Nat) (days : List WorkDay) :
    ((callers days).map fun u => ((days.filter fun d => d.userId == u).map count).sum).sum =
      (days.map count).sum := by
  rw [sum_filters (callers days) fun u (d : WorkDay) => d.userId == u]
  apply congrArg List.sum
  apply List.map_congr_left
  intro d hd
  have hone : (callers days).countP (fun u => d.userId == u) = 1 := by
    simp only [BEq.comm (a := d.userId)]
    exact List.count_eq_one_of_mem (nodup_callers days) (mem_callers.mpr ⟨d, hd, rfl⟩)
  rw [hone, Nat.one_mul]

/-- Work figures are the same whether rows are narrowed before they are grouped or work days
afterwards, to days and to a caller. Over the windows of a range no dial and no booking is lost or
counted twice, and over the callers neither. -/
theorem narrowing_commutes {rows : List Value} {z : Zone} {days : List WorkDay}
    (h : group rows z = .ok days) :
    (∀ start finish, ∃ ds, group (rowsWithin z start finish rows) z = .ok ds ∧
      between days start finish = .ofDays ds) ∧
    (∀ user, ∃ ds, group (rowsOf user rows) z = .ok ds ∧
      (perUser days).find? user = if ds = [] then none else some (.ofDays ds)) ∧
    (∀ start finish g,
      (start ≤ finish → bucketEnd finish g ≤ lastDay →
        ∃ ws, bucketWindows start finish g = .ok ws) ∧
      ∀ ws, bucketWindows start finish g = .ok ws →
        (ws.map fun w => (between days w.start w.finish).dials).sum =
          (between days start finish).dials ∧
        (ws.map fun w => (between days w.start w.finish).bookings).sum =
          (between days start finish).bookings) ∧
    ((perUser days).map fun (_, t) => t.dials).sum = (Totals.ofDays days).dials ∧
    ((perUser days).map fun (_, t) => t.bookings).sum = (Totals.ofDays days).bookings := by
  refine ⟨?_, ?_, ?_, ?_, ?_⟩
  · intro start finish
    exact ⟨_, group_rowsWithin h start finish, rfl⟩
  · intro user
    exact ⟨_, group_rowsOf h user, find?_perUser days user⟩
  · intro start finish g
    refine ⟨exists_bucketWindows, ?_⟩
    intro ws hws
    simp only [between, (counts_ofDays _).1, (counts_ofDays _).2]
    exact ⟨sum_windows hws _ days, sum_windows hws _ days⟩
  · rw [perUser, List.map_map, (counts_ofDays days).1, ← sum_callers]
    simp only [Function.comp_def, (counts_ofDays _).1]
  · rw [perUser, List.map_map, (counts_ofDays days).2, ← sum_callers]
    simp only [Function.comp_def, (counts_ofDays _).2]

/-- The row of a dial. -/
def dialRow (user called : String) (booked : Value) : Value :=
  .object [("setter_user_id", .text user), ("date_called", .text called), ("booked", booked)]

/-- Three dials of Ann on two days in a zone five hours behind UTC: the last one is on the day of
the second. -/
theorem narrowing_commutes_ann : ∃ (rows : List Value) (z : Zone) (days : List WorkDay),
    group rows z = .ok days ∧ days.length = 2 ∧
    (∃ ds, group (rowsOf "ann" rows) z = .ok ds ∧
      (perUser days).find? "ann" = if ds = [] then none else some (.ofDays ds)) ∧
    ((perUser days).map fun (_, t) => t.dials).sum = (Totals.ofDays days).dials := by
  let rows := ["2024-01-02T20:00:00Z", "2024-01-03T20:00:00Z", "2024-01-04T02:00:00Z"].map
    (dialRow "ann" · (.bool true))
  let z := Zone.fixed (-300)
  have hfound : ((rows.mapM (Dial.ofRow? z)).toOption.map fun found =>
      ((found.filterMap id).foldl addDial []).length) = some 2 := by decide +kernel
  obtain ⟨found, hfound, hlength⟩ := Option.map_eq_some_iff.mp hfound
  have h : group rows z = .ok (ofDials (found.filterMap id)) :=
    group_eq_ok_iff.mpr ⟨found, Fault.eq_ok_of_toOption hfound, rfl⟩
  obtain ⟨-, hcaller, -, hdials, -⟩ := narrowing_commutes h
  exact ⟨rows, z, _, h, (List.length_mergeSort _).trans hlength, hcaller "ann", hdials⟩

end Funnel.Work
