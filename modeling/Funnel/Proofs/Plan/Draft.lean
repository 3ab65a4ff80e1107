import Funnel.Plan.Chart
import Funnel.Plan.Formula
import Funnel.Proofs.Filter.Conditions
import Funnel.Work.Derive

/-!
# Drafts of queries

A draft is a query before any value is known: its text depends on how many people a request names
and on nothing else of the request, and its scope says what it binds. Every query that is planned is
a draft with the values of the request filled in.
-/

set_option autoImplicit false

namespace Funnel

open Calendar Standard

/-- What a query binds: the account, also the days, or also the people that a table knows. -/
inductive Scope where
  | account
  | days
  | people (t : Table)

namespace Scope

def fields (f : Filters) (start finish : Date) : Scope → Fields
  | .account => [("account_id", accountValue f)]
  | .days => accountFields f start finish
  | .people t => accountFields f start finish ++ userFields f t

def names (n : Headcount) : Scope → List String
  | .account => ["account_id"]
  | .days => ["start_date", "end_date", "account_id"]
  | .people t => ["start_date", "end_date", "account_id"] ++
      (repNames t n.reps ++ setterNames t n.setters)

theorem names_fields (s : Scope) (f : Filters) (start finish : Date) :
    (s.fields f start finish).names = s.names f.headcount := by
  cases s with
  | account => rfl
  | days => rfl
  | people t =>
    rw [fields, Named.names_append, names_userFields]
    rfl

theorem nodup_names_fields (s : Scope) (f : Filters) (start finish : Date) :
    (s.fields f start finish).names.Nodup := by
  have h := Standard.nodup_names_fields f start finish
  cases s with
  | account => simp [fields, Named.names]
  | days =>
    have := h .appointments
    rw [Named.names_append, List.nodup_append] at this
    exact this.1
  | people t => exact h t

end Scope

/-- A query and what it binds. -/
structure Draft where
  query : Select
  scope : Scope

def Draft.call (d : Draft) (f : Filters) (start finish : Date) : Call :=
  ⟨d.query, d.scope.fields f start finish⟩

namespace Standard

theorem params_narrowed (f : Filters) (start finish : Date) (t : Table)
    (qualifier : Option String) : (conditions f start finish t qualifier true).params =
      (Scope.people t).fields f start finish := by
  rw [params_conditions, if_pos rfl]
  rfl

theorem params_wide (f : Filters) (start finish : Date) (t : Table)
    (qualifier : Option String) : (conditions f start finish t qualifier false).params =
      Scope.days.fields f start finish := by
  rw [params_conditions, if_neg Bool.false_ne_true, List.append_nil]
  rfl

/-- Leads know neither reps nor setters, so that the people come from the table joined to them. -/
theorem params_leads (f : Filters) (start finish : Date) (t : Table)
    (qualifier other : Option String) :
    Named.putAll (conditions f start finish .contacts qualifier true).params
      (users f t other).params = (Scope.people t).fields f start finish := by
  have hleads : (Scope.people .contacts).fields f start finish =
      accountFields f start finish := List.append_nil _
  rw [params_narrowed, hleads, params_users]
  exact Named.putAll_eq_append (nodup_names_fields f start finish t)

theorem params_records (f : Filters) (start finish : Date) (qualifier : Option String) :
    Named.putAll (conditions f start finish .appointments qualifier true).params
      (conditions f start finish .discoveries qualifier true).params =
      (Scope.people .appointments).fields f start finish := by
  rw [params_narrowed, params_narrowed]
  exact Named.putAll_eq_self (Scope.nodup_names_fields _ f start finish) fun _ hp => hp

theorem apply_eq {f : Filters} {start finish : Date} (hdays : f.days = .ok (start, finish))
    (t : Table) (qualifier : Option String) (narrowed : Bool) :
    Standard.apply f t qualifier narrowed =
      .ok (conditions f start finish t qualifier narrowed) := by
  rw [Standard.apply, hdays]
  rfl

end Standard

theorem Standard.apply_error {f : Filters} {e : Fault} (hdays : f.days = .error e) (t : Table)
    (qualifier : Option String) (narrowed : Bool) :
    Standard.apply f t qualifier narrowed = .error e := by
  rw [Standard.apply, hdays]
  rfl

theorem Filters.days_eq_ok_iff {f : Filters} {start finish : Date} :
    f.days = .ok (start, finish) ↔ f.bounds = .ok (some start, some finish) := by
  unfold Filters.days
  rcases f.bounds with e | ⟨s, e⟩
  · exact ⟨nofun, nofun⟩
  · cases s <;> cases e <;> simp [bind, Except.bind]

namespace Plan

def plainDraft (m : Metric) (t : Table) (b : Breakdown) (n : Headcount) : Draft :=
  ⟨shape m t b (sqlConditions
    (texts t none true n ++ m.conditions ++ ownerConditions m.attribution none)), .people t⟩

theorem generic_eq {m : Metric} {t : Table} {f : Filters} {start finish : Date}
    (ht : m.tableSpec = .ok t) (hdays : f.days = .ok (start, finish)) (b : Breakdown) :
    generic m f b = .ok
      ⟨(plainDraft m t b f.headcount).call f start finish, .generic, b⟩ := by
  rw [generic, ht]
  simp only [Except.bind, bind, apply_eq hdays, metricConditions, sql_conditions, params_narrowed]
  rfl

theorem of_generic {m : Metric} {f : Filters} {b : Breakdown} {q : BoundQuery}
    (h : generic m f b = .ok q) : ∃ t start finish, m.tableSpec = .ok t ∧
      f.days = .ok (start, finish) ∧
      q.toCall = (plainDraft m t b f.headcount).call f start finish := by
  cases ht : m.tableSpec with
  | error e =>
    rw [generic, ht] at h
    cases h
  | ok t =>
    cases hdays : f.days with
    | error e =>
      rw [generic, ht] at h
      simp only [Except.bind, bind, apply_error hdays] at h
      cases h
    | ok days =>
      rw [generic_eq ht hdays] at h
      cases h
      exact ⟨t, days.1, days.2, rfl, rfl, rfl⟩

def chartDraft (m : Metric) (t : Table) (g : Granularity) (n : Headcount) : Draft :=
  ⟨chartQuery m t g (sqlConditions
    (texts t none true n ++ m.conditions ++ ownerConditions m.attribution none)), .people t⟩

def seriesFields (first last : Date) : Fields :=
  [("series_start", .text first.iso), ("series_end", .text last.iso)]

theorem chartDays_eq_ok_iff {f : Filters} {g : Option Granularity} {start finish : Date} :
    chartDays f g = .ok (start, finish) ↔ f.days = .ok (start, finish) := by
  rw [Filters.days_eq_ok_iff]
  unfold chartDays
  rcases f.bounds with e | ⟨s, e⟩
  · exact ⟨nofun, nofun⟩
  · cases s <;> cases e <;> simp [bind, Except.bind]

theorem nodup_names_series (t : Table) (f : Filters) (start finish first last : Date) :
    ((Scope.people t).fields f start finish ++ seriesFields first last).names.Nodup := by
  have hseries : ∀ a ∈ ["series_start", "series_end"],
      a ∉ ["start_date", "end_date", "account_id"] ∧ a.toList.take 3 = ['s', 'e', 'r'] := by
    decide
  rw [Named.names_append, List.nodup_append]
  refine ⟨Scope.nodup_names_fields _ f start finish, by simp [seriesFields, Named.names], ?_⟩
  rintro a ha b hb rfl
  rw [Scope.names_fields, Scope.names] at ha
  have hb := hseries a hb
  rcases List.mem_append.mp ha with ha | ha
  · exact hb.1 ha
  · rcases List.mem_append.mp ha with ha | ha
    · rw [take_of_mem_repNames ha] at hb
      exact absurd hb.2 (by decide)
    · rw [take_of_mem_setterNames ha] at hb
      exact absurd hb.2 (by decide)

theorem putAll_seriesFields (t : Table) (f : Filters) (start finish first last : Date) :
    Named.putAll ((Scope.people t).fields f start finish) (seriesFields first last) =
      (Scope.people t).fields f start finish ++ seriesFields first last :=
  Named.putAll_eq_append (nodup_names_series t f start finish first last)

theorem chart_eq {m : Metric} {t : Table} {f : Filters} {start finish : Date}
    {g : Option Granularity} {series : List Date} {first last : Date}
    (ht : m.tableSpec = .ok t) (hdays : f.days = .ok (start, finish))
    (hseries : bucketSeries start finish (g.getD (.select start finish)) = .ok series)
    (hfirst : series.head? = some first) (hlast : series.getLast? = some last) :
    chart m f g = .ok (⟨⟨(chartDraft m t (g.getD (.select start finish)) f.headcount).query,
      (Scope.people t).fields f start finish ++ seriesFields first last⟩, .timeSeries, .time⟩,
      series) := by
  rw [chart, chartDays_eq_ok_iff.mpr hdays]
  simp only [Except.bind, bind, hseries, ht, hfirst, hlast, metricConditions, sql_conditions,
    params_narrowed]
  rw [← putAll_seriesFields]
  rfl

theorem of_chart {m : Metric} {f : Filters} {g : Option Granularity} {q : BoundQuery}
    {series : List Date} (h : chart m f g = .ok (q, series)) :
    ∃ t start finish first last, m.tableSpec = .ok t ∧ f.days = .ok (start, finish) ∧
      bucketSeries start finish (g.getD (.select start finish)) = .ok series ∧
      series.head? = some first ∧ series.getLast? = some last := by
  cases hdays : chartDays f g with
  | error e =>
    rw [chart, hdays] at h
    cases h
  | ok days =>
    obtain ⟨start, finish⟩ := days
    cases hbuckets : bucketSeries start finish (g.getD (.select start finish)) with
    | error e =>
      rw [chart, hdays] at h
      simp only [Except.bind, bind, hbuckets] at h
      cases h
    | ok all =>
      cases ht : m.tableSpec with
      | error e =>
        rw [chart, hdays] at h
        simp only [Except.bind, bind, hbuckets, ht] at h
        cases h
      | ok t =>
        rw [chart, hdays] at h
        simp only [Except.bind, bind, hbuckets, ht] at h
        split at h
        · rename_i first last hfirst hlast
          cases h
          exact ⟨t, start, finish, first, last, rfl, chartDays_eq_ok_iff.mp hdays, hbuckets,
            hfirst, hlast⟩
        · cases h

def sumDraft (t : Table) (expression : String) (narrowed : Bool) (n : Headcount) : Draft :=
  ⟨sumSelect t expression (texts t none narrowed n), if narrowed then .people t else .days⟩

def spendDraft : Draft := sumDraft .adPerformance "COALESCE(SUM(spend), 0)" false ⟨0, 0⟩

def totalAppointmentsDraft : Draft := sumDraft .appointments "COUNT(*)" false ⟨0, 0⟩

def accountDraft : Draft :=
  ⟨.simple ["business_timezone", "business_hours"] "accounts" [.sql "id = $account_id"], .account⟩

def recordsDraft (columns more : List String) (value : String) (conditions : List String)
    (n : Headcount) : Draft :=
  ⟨.mk [value ++ " AS value"] "records" [] (sqlConditions conditions) [] [] []
    [recordsCte columns more (texts .appointments none true n) (texts .discoveries none true n)],
    .people .appointments⟩

def overdueDraft (formula : Formula) (n : Headcount) : Draft :=
  recordsDraft ["date_booked_for", "data_filled"] [] (overdueValue formula)
    ["data_filled IS NOT TRUE"] n

/-- The drafts of a formula, under the names of its queries. -/
def drafts (formula : Formula) (b : Breakdown) (n : Headcount) : Named Draft :=
  match formula with
  | .roi => [("cash", sumDraft .appointments "COALESCE(SUM(cash_collected), 0)" true n),
      ("spend", spendDraft)]
  | .repRoi => [("rep_stats", ⟨repStatsSelect (texts .appointments none true n),
        .people .appointments⟩),
      ("total_appointments", totalAppointmentsDraft), ("spend", spendDraft)]
  | .costPerBookedCall =>
    let keys := Table.appointments.keys b
    [("total_appointments", totalAppointmentsDraft), ("spend", spendDraft)] ++
      if keys.isEmpty then [] else
        [("entities", ⟨entitiesSelect keys (texts .appointments none true n),
          .people .appointments⟩)]
  | .speedToLead => [("pairs", ⟨pairsSelect (texts .contacts (some "c") true n)
        (userTexts .dials (some "d") n), .people .dials⟩),
      ("account", accountDraft)]
  | .leadToAppointment => [("conversion", ⟨conversionSelect (texts .contacts (some "c") true n)
        (userTexts .appointments (some "a") n), .people .appointments⟩)]
  | .dataCompletionRate => [("completion", recordsDraft ["data_filled"]
      ["date_booked_for < now()"]
      "COALESCE(COUNT(*) FILTER (WHERE data_filled IS TRUE)::numeric / NULLIF(COUNT(*), 0), 0)"
      [] n)]
  | .overdueItems => [("overdue", overdueDraft .overdueItems n)]
  | .overduePercentage => [("overdue", overdueDraft .overduePercentage n)]
  | .cashPerDial => [("dials", ⟨dialsSelect (texts .dials (some "d") true n), .people .dials⟩),
      ("cash", ⟨cashSelect (texts .dials (some "d") true n), .people .dials⟩)]
  | .bookingLeadTime => [("lead_times", ⟨leadTimesSelect (texts .appointments none true n),
      .people .appointments⟩)]
  | .workTimeframe => []

def FormulaPlan.calls (p : FormulaPlan) : Named Call := p.queries.map fun (n, q) => (n, q.toCall)

theorem sumQuery_eq {f : Filters} {start finish : Date} (hdays : f.days = .ok (start, finish))
    (t : Table) (expression : String) (b : Breakdown) : sumQuery t expression f true b =
      .ok ⟨(sumDraft t expression true f.headcount).call f start finish, .special, b⟩ := by
  rw [sumQuery, apply_eq hdays]
  simp only [Except.bind, bind, sql_conditions, params_narrowed]
  rfl

theorem sumQuery_wide_eq {f : Filters} {start finish : Date}
    (hdays : f.days = .ok (start, finish)) (t : Table) (expression : String) (b : Breakdown) :
    sumQuery t expression f false b =
      .ok ⟨(sumDraft t expression false ⟨0, 0⟩).call f start finish, .special, b⟩ := by
  rw [sumQuery, apply_eq hdays]
  simp only [Except.bind, bind, sql_conditions, params_wide]
  rfl

theorem recordsQuery_eq {f : Filters} {start finish : Date}
    (hdays : f.days = .ok (start, finish)) (columns more : List String) (value : String)
    (conditions : List String) : recordsQuery f columns more value conditions =
      .ok ⟨(recordsDraft columns more value conditions f.headcount).call f start finish,
        .special, .total⟩ := by
  rw [recordsQuery, apply_eq hdays, apply_eq hdays]
  simp only [Except.bind, bind, sql_conditions, params_records]
  rfl

theorem repStatsQuery_eq {f : Filters} {start finish : Date}
    (hdays : f.days = .ok (start, finish)) (b : Breakdown) : repStatsQuery f b =
      .ok ⟨Draft.call ⟨repStatsSelect (texts .appointments none true f.headcount),
        .people .appointments⟩ f start finish, .special, b⟩ := by
  rw [repStatsQuery, apply_eq hdays]
  simp only [Except.bind, bind, sql_conditions, params_narrowed]
  rfl

theorem entitiesQuery_eq {f : Filters} {start finish : Date}
    (hdays : f.days = .ok (start, finish)) (b : Breakdown) (keys : List (String × String)) :
    entitiesQuery f b keys =
      .ok ⟨Draft.call ⟨entitiesSelect keys (texts .appointments none true f.headcount),
        .people .appointments⟩ f start finish, .special, b⟩ := by
  rw [entitiesQuery, apply_eq hdays]
  simp only [Except.bind, bind, sql_conditions, params_narrowed]
  rfl

theorem pairsQuery_eq {f : Filters} {start finish : Date}
    (hdays : f.days = .ok (start, finish)) : pairsQuery f =
      .ok ⟨Draft.call ⟨pairsSelect (texts .contacts (some "c") true f.headcount)
        (userTexts .dials (some "d") f.headcount), .people .dials⟩
        f start finish, .special, .total⟩ := by
  rw [pairsQuery, apply_eq hdays]
  simp only [Except.bind, bind, sql_conditions, sql_users, params_leads]
  rfl

theorem conversionQuery_eq {f : Filters} {start finish : Date}
    (hdays : f.days = .ok (start, finish)) : conversionQuery f =
      .ok ⟨Draft.call ⟨conversionSelect (texts .contacts (some "c") true f.headcount)
        (userTexts .appointments (some "a") f.headcount),
        .people .appointments⟩ f start finish, .special, .total⟩ := by
  rw [conversionQuery, apply_eq hdays]
  simp only [Except.bind, bind, sql_conditions, sql_users, params_leads]
  rfl

theorem leadTimesQuery_eq {f : Filters} {start finish : Date}
    (hdays : f.days = .ok (start, finish)) : leadTimesQuery f =
      .ok ⟨Draft.call ⟨leadTimesSelect (texts .appointments none true f.headcount),
        .people .appointments⟩ f start finish, .special, .total⟩ := by
  rw [leadTimesQuery, apply_eq hdays]
  simp only [Except.bind, bind, sql_conditions, params_narrowed]
  rfl

/-- With two days, every formula but the one over work days has a plan, and its calls are the
drafts filled in. -/
theorem formula_eq {m : Metric} {fm : Formula} {f : Filters} {start finish : Date}
    (hm : m.formula = some fm) (hfm : fm ≠ .workTimeframe) (hdays : f.days = .ok (start, finish))
    (settings : Fields) (b : Breakdown) : (formula m f settings b).map FormulaPlan.calls =
      .ok ((drafts fm b f.headcount).map fun (n, d) => (n, d.call f start finish)) := by
  have hspend : ∀ b, spendQuery f b = _ :=
    sumQuery_wide_eq hdays .adPerformance "COALESCE(SUM(spend), 0)"
  have htotal : ∀ b, totalAppointmentsQuery f b = _ :=
    sumQuery_wide_eq hdays .appointments "COUNT(*)"
  unfold formula
  rw [hm]
  cases fm with
  | roi =>
    simp only [roiPlan, sumQuery_eq hdays, hspend, Except.bind, bind]
    rfl
  | repRoi =>
    simp only [repRoiPlan, repStatsQuery_eq hdays, htotal, hspend, Except.bind, bind]
    rfl
  | costPerBookedCall =>
    simp only [costPerBookedCallPlan, htotal, hspend, entitiesQuery_eq hdays, Except.bind, bind,
      drafts]
    cases (Table.appointments.keys b).isEmpty <;> rfl
  | speedToLead =>
    simp only [speedToLeadPlan, pairsQuery_eq hdays, Except.bind, bind]
    rfl
  | leadToAppointment =>
    simp only [leadToAppointmentPlan, conversionQuery_eq hdays, Except.bind, bind]
    rfl
  | dataCompletionRate =>
    simp only [dataCompletionPlan, completionQuery, recordsQuery_eq hdays, Except.bind, bind]
    rfl
  | overdueItems =>
    simp only [overduePlan, overdueQuery, recordsQuery_eq hdays, Except.bind, bind]
    rfl
  | overduePercentage =>
    simp only [overduePlan, overdueQuery, recordsQuery_eq hdays, Except.bind, bind]
    rfl
  | cashPerDial =>
    simp only [cashPerDialPlan, apply_eq hdays, sql_conditions, params_narrowed, Except.bind, bind]
    rfl
  | bookingLeadTime =>
    simp only [bookingLeadTimePlan, leadTimesQuery_eq hdays, Except.bind, bind]
    rfl
  | workTimeframe => exact absurd rfl hfm

theorem of_formula {m : Metric} {f : Filters} {settings : Fields} {b : Breakdown}
    {plan : FormulaPlan} (h : formula m f settings b = .ok plan) :
    ∃ fm start finish, m.formula = some fm ∧ fm ≠ .workTimeframe ∧
      f.days = .ok (start, finish) ∧
      plan.calls = (drafts fm b f.headcount).map fun (n, d) => (n, d.call f start finish) := by
  cases hm : m.formula with
  | none => simp [formula, hm] at h
  | some fm =>
    have hfm : fm ≠ .workTimeframe := by
      rintro rfl
      simp [formula, hm] at h
    cases hdays : f.days with
    | error e =>
      unfold formula at h
      rw [hm] at h
      cases fm <;> simp [roiPlan, repRoiPlan, repStatsQuery, costPerBookedCallPlan,
        totalAppointmentsQuery, sumQuery, speedToLeadPlan, pairsQuery, leadToAppointmentPlan,
        conversionQuery, dataCompletionPlan, completionQuery, overduePlan, overdueQuery,
        recordsQuery, cashPerDialPlan, bookingLeadTimePlan, leadTimesQuery, apply_error hdays,
        bind, Except.bind] at h
    | ok days =>
      have heq := formula_eq hm hfm hdays settings b
      rw [h, Except.map, Except.ok.injEq] at heq
      exact ⟨fm, days.1, days.2, rfl, hfm, rfl, heq⟩

/-- What holds of the calls of all drafts of formulas holds of the queries of a plan. -/
theorem forall_queries {P : Call → Prop} {m : Metric} {f : Filters} {settings : Fields}
    {b : Breakdown} {plan : FormulaPlan} (h : formula m f settings b = .ok plan)
    (hP : ∀ fm start finish, m.formula = some fm → f.days = .ok (start, finish) →
      ∀ p ∈ drafts fm b f.headcount, P (p.2.call f start finish)) :
    ∀ p ∈ plan.queries, P p.2.toCall := by
  obtain ⟨fm, start, finish, hfm, -, hdays, hcalls⟩ := of_formula h
  intro p hp
  have hmem : (p.1, p.2.toCall) ∈ plan.calls := List.mem_map_of_mem hp
  rw [hcalls] at hmem
  obtain ⟨⟨name, d⟩, hd, heq⟩ := List.mem_map.mp hmem
  rw [← (Prod.mk.inj heq).2]
  exact hP fm start finish hfm hdays (name, d) hd

end Plan

namespace Work

/-- The filters under which the dials of some callers are found. -/
def callersOnly (f : Filters) (callers : List String) : Filters :=
  { f with repIds := [], setterIds := callers }

def dialsDraft (n : Headcount) : Draft :=
  ⟨.mk ["setter_user_id", "date_called", "booked"] "dials" []
    (sqlConditions (texts .dials none true n ++ ["date_called IS NOT NULL"])) [] []
    ["date_called"] [], .people .dials⟩

theorem dialsCall_eq {f : Filters} {start finish : Date} (hdays : f.days = .ok (start, finish))
    (callers : List String) : dialsCall f callers =
      .ok ((dialsDraft (callersOnly f callers).headcount).call (callersOnly f callers)
        start finish) := by
  have hsame : (callersOnly f callers).days = .ok (start, finish) := hdays
  rw [dialsCall, ← callersOnly, apply_eq hsame]
  simp only [Except.bind, bind, sql_conditions, params_narrowed]
  rfl

theorem of_dialsCall {f : Filters} {callers : List String} {c : Call}
    (h : dialsCall f callers = .ok c) : ∃ start finish, f.days = .ok (start, finish) ∧
      c = (dialsDraft (callersOnly f callers).headcount).call (callersOnly f callers)
        start finish := by
  cases hdays : f.days with
  | error e =>
    have hsame : (callersOnly f callers).days = .error e := hdays
    rw [dialsCall, ← callersOnly, apply_error hsame] at h
    cases h
  | ok days =>
    rw [dialsCall_eq hdays] at h
    cases h
    exact ⟨days.1, days.2, rfl, rfl⟩

end Work

end Funnel
