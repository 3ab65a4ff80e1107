import Funnel.Proofs.DataView.Counts
import Funnel.Proofs.DataView.PeriodRows
import Funnel.Proofs.Pool.History
import Mathlib.Data.List.Forall2

/-!
# Periods add up

The windows of a range are parts of it, and a store that counts day by day counts in them what it
counts in the whole range. The figures of a row are therefore whole numbers that add up to the
total, each of them its own request, in whatever order the requests end.
-/

set_option autoImplicit false

namespace Funnel

open Calendar Number Session Standard

namespace Period

variable {ws : List BucketWindow} {v : View} {start finish : Date} {g : Granularity} {d : Period}

theorem mem_all {range : DateRange} : d ∈ all ws range ↔
    (∃ w ∈ ws, d = ⟨some w.bucket.iso, ⟨some w.start.iso, some w.finish.iso⟩⟩) ∨
      d = ⟨none, range⟩ := by
  rw [all, List.mem_append, List.mem_map, List.mem_singleton]
  simp only [eq_comm]

theorem labels_all (ws : List BucketWindow) (range : DateRange) :
    (all ws range).filterMap label = ws.map fun w => w.bucket.iso := by
  rw [all, List.filterMap_append, List.filterMap_map]
  change ws.filterMap (fun w => some w.bucket.iso) ++ [] = _
  rw [List.append_nil, List.filterMap_eq_map']

theorem days_of_mem (hf : v.filters.reasons = []) (hdays : v.filters.days = .ok (start, finish))
    (hws : IsPartition start finish g ws) (hd : d ∈ all ws v.range) :
    ∃ first last, (v.during d.range).filters.days = .ok (first, last) ∧
      (v.during d.range).filters.reasons = [] ∧
      ∀ count, tally count first last ≤ tally count start finish := by
  rcases mem_all.mp hd with ⟨w, hw, rfl⟩ | rfl
  · refine ⟨w.start, w.finish, Engine.days_narrowed v.filters w.start w.finish,
      Engine.reasons_narrowed hf (hws.nonempty w hw), fun count => ?_⟩
    rw [← hws.tally count]
    exact List.le_sum_of_mem (List.mem_map_of_mem hw)
  · exact ⟨start, finish, hdays, hf, fun count => Nat.le_refl _⟩

end Period

/-- A figure is what is counted for a person with a role on the days of a range. -/
def View.Counts (v : View) (m : Metric) (count : Fields → Date → Nat) (user role : String)
    (range : DateRange) (x : Float) : Prop :=
  ∀ first last, (v.during range).filters.days = .ok (first, last) →
    x = ofInt (tally (v.dayCount m count user role) first last : Nat)

def Counted (v : View) (m : Metric) (count : Fields → Date → Nat) (t : PeriodTask) (x : Float) :
    Prop :=
  ∃ role, roleOf t.profile.role = .ok role ∧
    v.Counts m count t.profile.userId role t.period.range x

theorem yields_counted {e : Engine} {v : View} {m : Metric} {count : Fields → Date → Nat}
    {start finish : Date} {g : Granularity} {ws : List BucketWindow} {t : PeriodTask}
    (hm : Registry.find? t.metric = some m) (hplain : m.isSpecial = false)
    (hunit : m.unit = .count) (hcount : e.store.CountsByDay m count) (hf : v.filters.reasons = [])
    (hdays : v.filters.days = .ok (start, finish)) (hws : IsPartition start finish g ws)
    (hsmall : ∀ role, tally (v.dayCount m count t.profile.userId role) start finish < pow2 53)
    (ht : t.period ∈ Period.all ws v.range) :
    (e.userCell (v.during t.period.range) t.profile t.metric).Yields fun cell =>
      Counted v m count t cell.value := by
  obtain ⟨first, last, hpart, hreasons, hle⟩ := Period.days_of_mem hf hdays hws ht
  obtain ⟨table, htable⟩ := Registry.exists_table hm
  have hsame : (v.during t.period.range).dayCount m count = v.dayCount m count := by
    funext user role d
    simp only [View.dayCount, View.bindings_during htable hpart hdays]
  have hyields := Engine.yields_userCell hm hplain hunit hcount hreasons hpart t.profile
    fun role => hsame ▸ Nat.lt_of_le_of_lt (hle _) (hsmall role)
  intro trace cell hcell
  obtain ⟨role, hrole, hvalue⟩ := hyields trace cell hcell
  refine ⟨role, hrole, fun a b hab => ?_⟩
  cases hpart.symm.trans hab
  rw [hvalue, hsame]

theorem exists_mem_zip {α β : Type} {xs : List α} {ys : List β} (h : xs.length = ys.length)
    {x : α} (hx : x ∈ xs) : ∃ y, (x, y) ∈ xs.zip ys := by
  rw [← List.map_fst_zip (Nat.le_of_eq h)] at hx
  obtain ⟨⟨_, y⟩, hy, rfl⟩ := List.mem_map.mp hx
  exact ⟨y, hy⟩

section Rows

variable {v : View} {m : Metric} {count : Fields → Date → Nat} {start finish : Date}
  {g : Granularity} {ws : List BucketWindow} {profiles : List Profile} {metrics : List String}
  {values : List Float} {rows : List PeriodRow}

theorem names_periods (hbuckets : (ws.map (·.bucket)).Nodup)
    (hlength : (periodTasks profiles metrics (Period.all ws v.range)).length = values.length)
    (hfilled : Filled ((periodTasks profiles metrics (Period.all ws v.range)).zip values) rows)
    {row : PeriodRow} (hrow : row ∈ rows) :
    row.periods.names = ws.map fun w => w.bucket.iso := by
  have hlabels : ((Period.all ws v.range).filterMap Period.label).Nodup := by
    rw [Period.labels_all]
    exact nodup_labels hbuckets
  obtain ⟨c, hc, hof⟩ := hfilled.begun row hrow
  rw [hfilled.eq row hrow, PeriodRow.periods_addAll]
  refine (Named.names_putAll_nil _).trans ?_
  rw [← Period.labels_all ws v.range]
  exact eraseDups_names_figuresIn hlength hlabels ⟨c.1, (List.of_mem_zip hc).1, hof⟩

/-- Where a metric is counted, every figure of a row is what is counted for the person of the row in
one role. -/
theorem exists_role_counts
    (hsingle : ∀ p ∈ profiles, ∀ q ∈ profiles, p.userId = q.userId → p = q)
    {periods : List Period} {row : PeriodRow} (hrow : row ∈ rows)
    (hvalues : List.Forall₂ (fun t x => row.IsOf t → Counted v m count t x)
      (periodTasks profiles metrics periods) values)
    (hfilled : Filled ((periodTasks profiles metrics periods).zip values) rows) :
    ∃ role, ∀ c ∈ row.figuresIn ((periodTasks profiles metrics periods).zip values),
      c.1 ∈ periods ∧ v.Counts m count row.userId role c.1.range c.2 := by
  obtain ⟨-, hcounted⟩ := List.forall₂_iff_zip.mp hvalues
  obtain ⟨⟨t, x⟩, ht, hof⟩ := hfilled.begun row hrow
  obtain ⟨hp, -, -⟩ := mem_periodTasks.mp (List.of_mem_zip ht).1
  obtain ⟨role, hrole, -⟩ := hcounted ht hof
  refine ⟨role, fun c hc => ?_⟩
  obtain ⟨u, hu, hofu, hperiod⟩ := PeriodRow.mem_figuresIn.mp hc
  obtain ⟨hq, -, hd⟩ := mem_periodTasks.mp (List.of_mem_zip hu).1
  obtain ⟨other, hother, hvalue⟩ := hcounted hu hofu
  have hsame : u.profile = t.profile := hsingle _ hq _ hp (hofu.1.symm.trans hof.1)
  obtain rfl : other = role := by
    rw [hsame] at hother
    exact Except.ok.inj (hother.symm.trans hrole)
  rw [← hperiod, hofu.1]
  exact ⟨hd, hvalue⟩

theorem exists_whole {range : DateRange}
    (hlength : (periodTasks profiles metrics (Period.all ws range)).length = values.length)
    (hfilled : Filled ((periodTasks profiles metrics (Period.all ws range)).zip values) rows)
    {row : PeriodRow} (hrow : row ∈ rows) :
    ∃ c ∈ row.figuresIn ((periodTasks profiles metrics (Period.all ws range)).zip values),
      c.1.label = none := by
  obtain ⟨⟨t, x⟩, ht, hof⟩ := hfilled.begun row hrow
  obtain ⟨hp, hm, -⟩ := mem_periodTasks.mp (List.of_mem_zip ht).1
  have htask : (⟨t.profile, t.metric, ⟨none, range⟩⟩ : PeriodTask) ∈
      periodTasks profiles metrics (Period.all ws range) :=
    mem_periodTasks.mpr ⟨hp, hm, Period.mem_all.mpr (.inr rfl)⟩
  obtain ⟨y, hy⟩ := exists_mem_zip hlength htask
  exact ⟨(⟨none, range⟩, y), PeriodRow.mem_figuresIn.mpr ⟨_, hy, hof, rfl⟩, rfl⟩

/-- A row whose metric is counted has what is counted in each window under the label of its bucket,
and what is counted in the whole range as its total. -/
theorem exists_role_row (hbuckets : (ws.map (·.bucket)).Nodup)
    (hdays : v.filters.days = .ok (start, finish))
    (hsingle : ∀ p ∈ profiles, ∀ q ∈ profiles, p.userId = q.userId → p = q) {row : PeriodRow}
    (hrow : row ∈ rows)
    (hvalues : List.Forall₂ (fun t x => row.IsOf t → Counted v m count t x)
      (periodTasks profiles metrics (Period.all ws v.range)) values)
    (hfilled : Filled ((periodTasks profiles metrics (Period.all ws v.range)).zip values) rows) :
    ∃ role, row.total = ofInt (tally (v.dayCount m count row.userId role) start finish : Nat) ∧
      row.periods = ws.map fun w => (w.bucket.iso,
        ofInt (tally (v.dayCount m count row.userId role) w.start w.finish : Nat)) := by
  have hlength := hvalues.length_eq
  have hnames := names_periods hbuckets hlength hfilled hrow
  obtain ⟨role, hcounts⟩ := exists_role_counts hsingle hrow hvalues hfilled
  have heq := hfilled.eq row hrow
  refine ⟨role, ?_, ?_⟩
  · have hunlabelled : ∀ c ∈ row.figuresIn
        ((periodTasks profiles metrics (Period.all ws v.range)).zip values), c.1.label = none →
        c.2 = ofInt (tally (v.dayCount m count row.userId role) start finish : Nat) := by
      intro c hc hnone
      obtain ⟨hd, hvalue⟩ := hcounts c hc
      rcases Period.mem_all.mp hd with ⟨w, -, hwindow⟩ | hwhole
      · rw [hwindow] at hnone
        cases hnone
      · rw [hwhole] at hvalue
        exact hvalue start finish hdays
    have htotal := @PeriodRow.total_addAll row.cleared _ _ hunlabelled
      (.inr (exists_whole hlength hfilled hrow))
    rwa [← heq] at htotal
  · refine Named.eq_map_of_names hnames (nodup_labels hbuckets) fun q hq => ?_
    rw [heq, PeriodRow.periods_addAll] at hq
    rcases Named.mem_putAll hq with hnone | hmem
    · cases hnone
    · obtain ⟨c, hc, hlabel⟩ := List.mem_filterMap.mp hmem
      obtain ⟨hd, hvalue⟩ := hcounts c hc
      rcases Period.mem_all.mp hd with ⟨w, hw, hwindow⟩ | hwhole
      · rw [hwindow] at hlabel hvalue
        cases hlabel
        refine ⟨w, hw, Prod.ext rfl ?_⟩
        exact hvalue w.start w.finish (Engine.days_narrowed v.filters w.start w.finish)
      · rw [hwhole] at hlabel
        cases hlabel

theorem plainSum_row (hws : IsPartition start finish g ws) {count : Date → Nat}
    (hsmall : tally count start finish < pow2 53) {row : PeriodRow}
    (htotal : row.total = ofInt (tally count start finish : Nat))
    (hperiods : row.periods = ws.map fun w =>
      (w.bucket.iso, ofInt (tally count w.start w.finish : Nat))) :
    plainSum (row.periods.map Prod.snd) = row.total := by
  have hsum := hws.tally count
  have hvalues : row.periods.map Prod.snd =
      (ws.map fun w => tally count w.start w.finish).map fun (n : Nat) => ofInt n := by
    rw [hperiods, List.map_map, List.map_map]
    rfl
  rw [hvalues, plainSum_whole (hsum.symm ▸ hsmall), hsum, htotal]

end Rows

namespace Engine

variable {e : Engine} {v : View} {users metrics : List String} {kind : String} {g : Granularity}
  {start finish : Date} {ws : List BucketWindow}

theorem periods_of_days (hdays : v.filters.days = .ok (start, finish)) (g : Granularity) :
    v.periods g = bucketWindows start finish g >>= fun ws => .ok (Period.all ws v.range) := by
  rw [View.periods, hdays]
  rfl

theorem periods_eq (hdays : v.filters.days = .ok (start, finish))
    (hws : bucketWindows start finish g = .ok ws) :
    v.periods g = .ok (Period.all ws v.range) := by
  rw [periods_of_days hdays, hws]
  rfl

def periodFigure (e : Engine) (v : View) (t : PeriodTask) : Session Float := do
  pure (← e.userCell (v.during t.period.range) t.profile t.metric).value

theorem yields_periodMatrix (hkind : periodGranularity? kind = some g)
    (hdays : v.filters.days = .ok (start, finish)) (hws : bucketWindows start finish g = .ok ws)
    {Q : PeriodTask → Float → Prop}
    (hQ : ∀ t : PeriodTask, t.period ∈ Period.all ws v.range → (e.periodFigure v t).Yields (Q t))
    (limit : Int) :
    (e.periodMatrix v limit users metrics kind).Yields fun rows => ∃ profiles values,
      (∀ p ∈ profiles, ∀ q ∈ profiles, p.userId = q.userId → p = q) ∧
      List.Forall₂ Q (periodTasks profiles metrics (Period.all ws v.range)) values ∧
      Filled ((periodTasks profiles metrics (Period.all ws v.range)).zip values) rows := by
  have hg : periodGranularity kind = .ok g := by rw [periodGranularity, hkind]
  have hperiods := periods_eq hdays hws
  unfold periodMatrix
  refine yields_bind (yields_ofExcept fun a ha => Except.ok.inj (hg.symm.trans ha)) ?_
  rintro _ rfl
  refine yields_bind_last fun _ => ?_
  refine yields_bind (yields_ofExcept fun a ha => Except.ok.inj (hperiods.symm.trans ha)) ?_
  rintro _ rfl
  refine yields_bind (Profile.yields_single e v users) fun profiles hsingle => ?_
  have hvalues : (Pool.run limit e.schedule (periodTasks profiles metrics (Period.all ws v.range))
      (e.periodFigure v)).Yields
        (List.Forall₂ Q (periodTasks profiles metrics (Period.all ws v.range))) :=
    Pool.yields_run (fun t ht => hQ t (mem_periodTasks.mp ht).2.2) limit e.schedule
  refine yields_bind hvalues fun values hvalues => yields_ofExcept fun rows hrows => ?_
  exact ⟨profiles, values, hsingle, hvalues, filled_nil.addAll hrows⟩

/-- The figures of people whose records can be read are found and put into rows. -/
theorem answers_periodRows (hf : v.filters.reasons = [])
    (hmetrics : ∀ name ∈ metrics, ∃ m, Registry.find? name = some m)
    (hdays : v.filters.days = .ok (start, finish)) (hparts : IsPartition start finish g ws)
    {profiles : List Profile} (hread : ∀ p ∈ profiles, ∃ record, p.ReadFrom record) (limit : Int) :
    Session.Answers (fun rows => ∃ values : List Float,
        (periodTasks profiles metrics (Period.all ws v.range)).length = values.length ∧
        Filled ((periodTasks profiles metrics (Period.all ws v.range)).zip values) rows ∧
        (rows.map PeriodRow.key).Nodup) (do
      let values ← Pool.run limit e.schedule (periodTasks profiles metrics (Period.all ws v.range))
        (e.periodFigure v)
      Session.ofExcept (((periodTasks profiles metrics (Period.all ws v.range)).zip values).foldlM
        (fun rows (t, x) => addPeriod rows t x) [])) := by
  have hfigures : (Pool.run limit e.schedule (periodTasks profiles metrics (Period.all ws v.range))
      (e.periodFigure v)).Answers (List.Forall₂ (fun _ _ => True)
        (periodTasks profiles metrics (Period.all ws v.range))) := by
    refine Pool.answers_run (fun t ht => ?_) limit e.schedule
    obtain ⟨hp, hm, hd⟩ := mem_periodTasks.mp ht
    obtain ⟨record, hfrom⟩ := hread t.profile hp
    obtain ⟨role, hrole⟩ := hfrom.exists_role
    obtain ⟨m, hfind⟩ := hmetrics t.metric hm
    obtain ⟨-, -, -, hreasons, -⟩ := Period.days_of_mem hf hdays hparts hd
    exact answers_bind (answers_userCell e hreasons hfind hrole) fun _ _ => answers_pure trivial
  refine answers_bind hfigures fun values hvalues => ?_
  have hblank : ∀ c ∈ (periodTasks profiles metrics (Period.all ws v.range)).zip values,
      ∃ row, c.1.profile.emptyPeriods c.1.metric = .ok row := by
    intro c hc
    obtain ⟨hp, -, -⟩ := mem_periodTasks.mp (List.of_mem_zip hc).1
    obtain ⟨record, hfrom⟩ := hread _ hp
    exact ⟨_, hfrom.emptyPeriods c.1.metric⟩
  obtain ⟨rows, hrows⟩ := exists_addAll hblank []
  exact answers_ofExcept hrows ⟨values, hvalues.length_eq, filled_nil.addAll hrows,
    @nodup_keys_addAll _ [] _ List.nodup_nil hrows⟩

/-- Once the profiles are loaded, a matrix has a row for each person found and each metric. -/
theorem mem_keys_of_filled {profiles : List Profile} {values : List Float} {rows : List PeriodRow}
    (hlength : (periodTasks profiles metrics (Period.all ws v.range)).length = values.length)
    (hfilled : Filled ((periodTasks profiles metrics (Period.all ws v.range)).zip values) rows)
    {key : String × String} : key ∈ rows.map PeriodRow.key ↔
      key.1 ∈ profiles.map Profile.userId ∧ key.2 ∈ metrics := by
  obtain ⟨user, name⟩ := key
  rw [hfilled.mem_keys, List.mem_map]
  constructor
  · rintro ⟨c, hc, heq⟩
    obtain ⟨rfl, rfl⟩ := Prod.mk.inj heq
    obtain ⟨hp, hm, -⟩ := mem_periodTasks.mp (List.of_mem_zip hc).1
    exact ⟨⟨_, hp, rfl⟩, hm⟩
  · rintro ⟨⟨p, hp, rfl⟩, hm⟩
    have htask : (⟨p, name, ⟨none, v.range⟩⟩ : PeriodTask) ∈
        periodTasks profiles metrics (Period.all ws v.range) :=
      mem_periodTasks.mpr ⟨hp, hm, Period.mem_all.mpr (.inr rfl)⟩
    obtain ⟨x, hx⟩ := exists_mem_zip hlength htask
    exact ⟨_, hx, rfl⟩

/-- A matrix of people whose records can be read has a row for each of them and each metric. -/
theorem answers_periodMatrix (hcheck : v.check metrics = .ok ())
    (hkind : periodGranularity? kind = some g) (hdays : v.filters.days = .ok (start, finish))
    (hws : bucketWindows start finish g = .ok ws) (hparts : IsPartition start finish g ws)
    {records : List Value} (hrecords : ∀ record ∈ records, Profile.Readable record)
    (hanswer : Identifier.kept users ≠ [] → ∀ earlier,
      e.store.answer earlier (Profile.call v (Identifier.kept users)) = .ok (.list records))
    (limit : Int) :
    (e.periodMatrix v limit users metrics kind).Answers fun rows =>
      ∀ user ∈ Identifier.kept users, user ∈ Profile.foundIds records → ∀ name ∈ metrics,
        ∃ row ∈ rows, row.userId = user ∧ row.metricName = name := by
  obtain ⟨hf, hmetrics⟩ := View.of_check hcheck
  have hg : periodGranularity kind = .ok g := by rw [periodGranularity, hkind]
  obtain ⟨profiles, hload, hids, hread, -⟩ :=
    Profile.exists_gives_load hrecords fun hne => gives_ask_of_answer (hanswer hne)
  have hrows := answers_periodRows (e := e) hf hmetrics hdays hparts
    (fun p hp => (hread p hp).imp fun _ h => h.2) limit
  unfold periodMatrix
  refine answers_bind (answers_ofExcept hg rfl) ?_
  rintro _ rfl
  refine answers_bind (answers_ofExcept hcheck rfl) fun _ _ => ?_
  refine answers_bind (answers_ofExcept (periods_eq hdays hws) rfl) ?_
  rintro _ rfl
  refine answers_bind hload.answers fun loaded hloaded => ?_
  rw [hloaded]
  refine hrows.mono fun rows hrows user huser hfound name hname => ?_
  obtain ⟨values, hlength, hfilled, -⟩ := hrows
  have hmem : user ∈ profiles.map Profile.userId := by
    rw [hids]
    exact List.mem_filter.mpr ⟨huser, by simpa using hfound⟩
  have hkey : (user, name) ∈ rows.map PeriodRow.key :=
    (mem_keys_of_filled hlength hfilled).mpr ⟨hmem, hname⟩
  obtain ⟨row, hrow, heq⟩ := List.mem_map.mp hkey
  obtain ⟨huser, hname⟩ := Prod.mk.inj heq
  exact ⟨row, hrow, huser, hname⟩

end Engine

/-- Periods add up to the total. Each row of a matrix has a period for each bucket of its range, in
order. Where the store counts the metric of a row day by day, in numbers that doubles have, the
periods of the row add up to its total, also where they are put together from two sides. The matrix
is answered, with a row for each person found and each metric, as soon as the records of the people
can be read. -/
theorem periods_add_up (e : Engine) {v : View} {users metrics : List String}
    (hcheck : v.check metrics = .ok ()) {kind : String} {g : Granularity}
    (hkind : periodGranularity? kind = some g) {start finish : Date}
    (hdays : v.filters.days = .ok (start, finish)) (hend : Followed (bucketStart finish g) g)
    (limit : Int) : ∃ series, bucketSeries start finish g = .ok series ∧
      ((e.periodMatrix v limit users metrics kind).Yields fun rows => ∀ row ∈ rows,
        row.periods.names = series.map Date.iso ∧
        ∀ m count, Registry.find? row.metricName = some m → m.isSpecial = false →
          m.unit = .count → e.store.CountsByDay m count →
          (∀ role, tally (v.dayCount m count row.userId role) start finish < pow2 53) →
          plainSum (row.periods.map Prod.snd) = row.total) ∧
      ∀ records : List Value, (∀ record ∈ records, Profile.Readable record) →
        (Identifier.kept users ≠ [] → ∀ earlier, e.store.answer earlier
          (Profile.call v (Identifier.kept users)) = .ok (.list records)) →
        (e.periodMatrix v limit users metrics kind).Answers fun rows =>
          ∀ user ∈ Identifier.kept users, user ∈ Profile.foundIds records → ∀ name ∈ metrics,
            ∃ row ∈ rows, row.userId = user ∧ row.metricName = name := by
  obtain ⟨hf, -⟩ := View.of_check hcheck
  obtain ⟨_, _, hchecked⟩ := Filters.checked_of_reasons hf
  obtain ⟨rfl, rfl⟩ := Prod.mk.inj (Except.ok.inj (hdays.symm.trans hchecked.days))
  obtain ⟨series, -, hseries, -⟩ := exists_bucketSeries hchecked.ordered hend
  obtain ⟨ws, hws, hbuckets, hparts⟩ := bucketWindows_of_bucketSeries hchecked.ordered hseries
  have hnodup : (ws.map (·.bucket)).Nodup := by
    rw [hbuckets]
    exact (isSeries_of_bucketSeries hchecked.ordered hseries).increasing.imp Date.ne_of_lt
  refine ⟨series, hseries, ?_, fun records hrecords hanswer =>
    Engine.answers_periodMatrix hcheck hkind hdays hws hparts hrecords hanswer limit⟩
  intro trace rows hrows row hrow
  constructor
  · obtain ⟨profiles, values, -, hvalues, hfilled⟩ := Engine.yields_periodMatrix hkind hdays hws
      (fun t _ => yields_trivial (e.periodFigure v t)) limit trace rows hrows
    rw [names_periods hnodup hvalues.length_eq hfilled hrow, ← hbuckets, List.map_map]
    rfl
  · intro m count hm hplain hunit hcount hsmall
    -- Only the figures of this row are counted; nothing is known about other metrics.
    have hQ : ∀ t : PeriodTask, t.period ∈ Period.all ws v.range →
        (e.periodFigure v t).Yields fun x => row.IsOf t → Counted v m count t x := by
      intro t ht
      by_cases hof : row.IsOf t
      · rw [hof.2] at hm
        rw [hof.1] at hsmall
        refine yields_bind (yields_counted hm hplain hunit hcount hf hdays hparts hsmall ht) ?_
        exact fun cell hcell => yields_pure fun _ => hcell
      · exact fun _ _ _ h => absurd h hof
    obtain ⟨profiles, values, hsingle, hvalues, hfilled⟩ :=
      Engine.yields_periodMatrix hkind hdays hws hQ limit trace rows hrows
    obtain ⟨role, htotal, hperiods⟩ := exists_role_row hnodup hdays hsingle hrow hvalues hfilled
    exact plainSum_row hparts (hsmall role) htotal hperiods

/-- Counts one for each day between the days that are bound; without them, finds a record. -/
def oneADay (record : Value) (_ : String) (params : Fields) : Except Fault Value :=
  let day? (name : String) : Option Date := (params.find? name).bind Value.date?
  let counted? := (day? "start_date").bind fun first =>
    (day? "end_date").map fun last =>
      .object [("value", .int (tally (fun _ => 1) first last : Nat))]
  .ok (.list [counted?.getD record])

theorem oneADay_between (record : Value) (sql : String) {params : Fields} {first last : Date}
    (hfirst : params.find? "start_date" = some (.text first.iso))
    (hlast : params.find? "end_date" = some (.text last.iso)) :
    oneADay record sql params =
      .ok (.list [.object [("value", .int (tally (fun _ => 1) first last : Nat))]]) := by
  have hread (d : Date) : Value.date? (.text d.iso) = some d := by
    rw [← dateOfText?, dateOfText?_iso]
  simp only [oneADay, hfirst, hlast, hread, Option.bind_some, Option.map_some, Option.getD_some]

theorem countsByDay_oneADay (record : Value) (m : Metric) :
    (Store.ofFunction (oneADay record)).CountsByDay m fun _ _ => 1 := by
  intro f first last q _ hfdays hq hsmall earlier
  obtain ⟨t, a, b, -, hab, hcall⟩ := Plan.of_generic hq
  cases hfdays.symm.trans hab
  refine ⟨.object [("value", .int (tally (fun _ => 1) first last : Nat))], [], _, ?_, rfl,
    Value.number?_whole hsmall⟩
  have hparams : q.params = (Scope.people t).fields f first last := congrArg Call.params hcall
  have hfirst : q.params.find? "start_date" = some (.text first.iso) := by
    rw [hparams]
    simp [Scope.fields, accountFields, Named.find?_cons]
  have hlast : q.params.find? "end_date" = some (.text last.iso) := by
    rw [hparams]
    simp [Scope.fields, accountFields, Named.find?_cons]
  exact oneADay_between record q.sql hfirst hlast

/-- A store that counts one for each day and side, with an administrator, who is counted on two
sides. -/
theorem periods_add_up_of_admin : ∃ (e : Engine) (v : View) (rows : List PeriodRow),
    ((e.periodMatrix v 2 ["00000000-0000-0000-0000-00000000000a"] ["show_ups"] "weekly").run
      .start).1 = .ok rows ∧
    ∃ row ∈ rows, row.userId = "00000000-0000-0000-0000-00000000000a" ∧
      row.periods.names = ["2024-01-29", "2024-02-05", "2024-02-12", "2024-02-19"] ∧
      plainSum (row.periods.map Prod.snd) = row.total := by
  let record := Profile.kim "00000000-0000-0000-0000-00000000000a" (.text "Admin")
  let e := Engine.plain (oneADay record)
  let v := Profile.february
  let users := ["00000000-0000-0000-0000-00000000000a"]
  let start : Date := ⟨738914, by decide, by decide⟩
  let finish : Date := ⟨738936, by decide, by decide⟩
  have hshown : (Registry.find? "show_ups").map (fun m => (m.isSpecial, m.unit)) =
      some (false, .count) := by decide +kernel
  obtain ⟨m, hm, hkind⟩ := Option.map_eq_some_iff.mp hshown
  obtain ⟨hplain, hunit⟩ := Prod.mk.inj hkind
  have hcheck : v.check ["show_ups"] = .ok () :=
    View.check_of_known Profile.reasons_february (List.forall_mem_singleton.mpr ⟨m, hm⟩)
  have hs : dateOfText? "2024-01-29" = some start := by decide
  have he : dateOfText? "2024-02-20" = some finish := by decide
  have hdays : v.filters.days = .ok (start, finish) := Filters.days_of_texts rfl hs he
  have hweekly : periodGranularity? "weekly" = some .week := rfl
  have hend : Followed (bucketStart finish .week) .week := by
    rw [followed_week_iff]
    decide
  have hcount : e.store.CountsByDay m fun _ _ => 1 := countsByDay_oneADay record m
  have hsmall : ∀ user role, tally (v.dayCount m (fun _ _ => 1) user role) start finish <
      pow2 53 := by
    intro user role
    have htwo : tally (fun _ => 2) start finish < pow2 53 := by decide
    refine Nat.lt_of_le_of_lt (List.sum_le_sum fun d _ => ?_) htwo
    have hsides := m.length_sides_le (Nat.le_succ 1) (fun _ => Nat.le_refl 2) role
    simpa [View.dayCount] using hsides
  have hrecords := Profile.readable_kim "00000000-0000-0000-0000-00000000000a"
    (.inr ⟨"Admin", rfl⟩)
  have hkept : Identifier.kept users = users := by decide
  have hanswer : Identifier.kept users ≠ [] → ∀ earlier, e.store.answer earlier
      (Profile.call v (Identifier.kept users)) = .ok (.list [record]) := by
    intro _ _
    rw [hkept]
    rfl
  obtain ⟨series, hseries, hyields, hanswers⟩ := periods_add_up e hcheck hweekly hdays hend 2
  obtain ⟨rows, u, hrun, hfound⟩ := hanswers [record] hrecords hanswer .start
  have hrows := congrArg Prod.fst hrun
  have huser : "00000000-0000-0000-0000-00000000000a" ∈ Identifier.kept users := by
    rw [hkept]
    exact List.mem_cons_self
  obtain ⟨row, hrow, hid, hname⟩ := hfound _ huser (by decide) "show_ups" List.mem_cons_self
  obtain ⟨hnames, hsum⟩ := hyields .start rows hrows row hrow
  have hiso : (bucketSeries start finish .week).toOption.map (·.map Date.iso) =
      some ["2024-01-29", "2024-02-05", "2024-02-12", "2024-02-19"] := by decide
  rw [hseries] at hiso
  refine ⟨e, v, rows, hrows, row, hrow, hid, hnames.trans (Option.some.inj hiso), ?_⟩
  exact hsum m _ (hname ▸ hm) hplain hunit hcount (hsmall _)

end Funnel
