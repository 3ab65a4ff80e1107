import Funnel.Proofs.Plan.Binding
import Funnel.Proofs.Plan.Form
import Funnel.Proofs.Series.Buckets

/-!
# Planned queries are narrowed to the people of the request

A query that credits people binds the identifiers of those that its table knows and compares the
columns of the table with them. A query about the whole account binds nobody.
-/

set_option autoImplicit false

namespace Funnel

open Calendar Fragment Standard

/-- Somewhere inside a query a table is read on the conditions on its people, which stand in the
WHERE clause or in the join that reads the table. -/
def Select.NarrowedTo (q : Select) (t : Table) (n : Headcount) : Prop :=
  ∃ p ∈ q.selects, ∃ qualifier,
    (Reading.ofText p.source = ⟨t.name, qualifier⟩ ∧
      ∀ s ∈ userTexts t qualifier n, s ∈ p.conjuncts) ∨
    ∃ j ∈ p.joins, Reading.ofText j.table = ⟨t.name, qualifier⟩ ∧ ∃ texts,
      j.on = " AND ".intercalate texts ∧ ∀ s ∈ userTexts t qualifier n, s ∈ texts

def generalNames : List String :=
  ["start_date", "end_date", "account_id", "series_start", "series_end"]

def Call.people (c : Call) : Fields := c.params.filter fun p => p.1 ∉ generalNames

/-- A call that is narrowed to the reps and setters of a request, as far as a table knows them. -/
structure Call.NarrowedTo (f : Filters) (t : Table) (c : Call) : Prop where
  query : c.query.NarrowedTo t f.headcount
  people : c.people = userFields f t

theorem general_of_take {n : String} (h : n ∈ generalNames) :
    n.toList.take 3 ≠ ['r', 'e', 'p'] ∧ n.toList.take 3 ≠ ['s', 'e', 't'] := by
  have hall : ∀ n ∈ generalNames,
      n.toList.take 3 ≠ ['r', 'e', 'p'] ∧ n.toList.take 3 ≠ ['s', 'e', 't'] := by decide
  exact hall n h

theorem notMem_generalNames {f : Filters} {t : Table} {p : String × Value}
    (hp : p ∈ userFields f t) : p.1 ∉ generalNames := by
  have hname : p.1 ∈ (userFields f t).names := List.mem_map_of_mem hp
  rw [names_userFields] at hname
  intro h
  rcases List.mem_append.mp hname with hn | hn
  · exact (general_of_take h).1 (take_of_mem_repNames hn)
  · exact (general_of_take h).2 (take_of_mem_setterNames hn)

theorem filter_userFields (f : Filters) (t : Table) :
    (userFields f t).filter (fun p => p.1 ∉ generalNames) = userFields f t := by
  rw [List.filter_eq_self]
  intro p hp
  rw [decide_eq_true_eq]
  exact notMem_generalNames hp

theorem filter_accountFields (f : Filters) (start finish : Date) :
    (accountFields f start finish).filter (fun p => p.1 ∉ generalNames) = [] := rfl

namespace Scope

theorem filter_people (f : Filters) (start finish : Date) (t : Table) :
    ((people t).fields f start finish).filter (fun p => p.1 ∉ generalNames) = userFields f t := by
  rw [fields, List.filter_append, filter_accountFields, filter_userFields]
  rfl

theorem filter_wide {s : Scope} (h : ∀ t, s ≠ .people t) (f : Filters) (start finish : Date) :
    (s.fields f start finish).filter (fun p => p.1 ∉ generalNames) = [] := by
  cases s with
  | account => rfl
  | days => rfl
  | people t => exact absurd rfl (h t)

end Scope

def Formula.credited : Formula → List Table
  | .speedToLead | .cashPerDial => [.dials]
  | .dataCompletionRate | .overdueItems | .overduePercentage => [.appointments, .discoveries]
  | .workTimeframe => []
  | _ => [.appointments]

/-- The names of queries that are about the whole account. -/
def accountWide : List String := ["spend", "total_appointments", "account"]

namespace Select

theorem self_mem_selects (q : Select) : q ∈ q.selects := by
  cases q
  rw [selects]
  exact List.mem_cons_self

theorem narrowedTo_of_mem {q : Select} {columns : List String} {source : String} {t : Table}
    {qualifier : Option String} {cs groups having order : List String} {n : Headcount}
    (hmem : .mk columns source [] (sqlConditions cs) groups having order [] ∈ q.selects)
    (hreading : Reading.ofText source = ⟨t.name, qualifier⟩)
    (hcs : ∀ s ∈ texts t qualifier true n, s ∈ cs) : q.NarrowedTo t n := by
  refine ⟨_, hmem, qualifier, .inl ⟨hreading, fun s hs => ?_⟩⟩
  rw [conjuncts_mk_sqlConditions]
  exact hcs s (List.mem_append_right _ hs)

theorem narrowedTo_flat {columns : List String} {source : String} {t : Table}
    {qualifier : Option String} {cs groups having order : List String} {n : Headcount}
    (hreading : Reading.ofText source = ⟨t.name, qualifier⟩)
    (hcs : ∀ s ∈ texts t qualifier true n, s ∈ cs) :
    (Select.mk columns source [] (sqlConditions cs) groups having order []).NarrowedTo t n :=
  narrowedTo_of_mem (self_mem_selects _) hreading hcs

theorem narrowedTo_joined {columns : List String} {source : String} {j : Join} {t : Table}
    {qualifier : Option String} {conditions : List Condition} {groups : List String}
    {n : Headcount} (on : List String) (hreading : Reading.ofText j.table = ⟨t.name, qualifier⟩)
    (hon : j.on = " AND ".intercalate on) (hmem : ∀ s ∈ userTexts t qualifier n, s ∈ on) :
    (Select.mk columns source [j] conditions groups [] [] []).NarrowedTo t n :=
  ⟨_, self_mem_selects _, qualifier, .inr ⟨j, List.mem_singleton_self j, hreading, on, hon, hmem⟩⟩

end Select

open Select

namespace Plan

theorem narrowed_plainDraft {m : Metric} {t : Table} (ht : t ∈ Table.all)
    (hname : t.name = m.table) (b : Breakdown) (n : Headcount) :
    (plainDraft m t b n).query.NarrowedTo t n := by
  have hreading : Reading.ofText m.table = ⟨t.name, none⟩ := hname ▸ ofText_name ht
  rw [plainDraft, shape, List.append_assoc]
  split
  · exact narrowedTo_flat hreading fun s hs => List.mem_append_left _ hs
  · exact narrowedTo_flat hreading fun s hs => List.mem_append_left _ hs

theorem narrowed_chartDraft {m : Metric} {t : Table} (ht : t ∈ Table.all)
    (hname : t.name = m.table) (g : Granularity) (n : Headcount) :
    (chartDraft m t g n).query.NarrowedTo t n := by
  have hreading : Reading.ofText m.table = ⟨t.name, none⟩ := hname ▸ ofText_name ht
  have hmem : countedQuery m t g (sqlConditions (texts t none true n ++ m.conditions ++
      ownerConditions m.attribution none)) ∈ (chartDraft m t g n).query.selects := by
    rw [chartDraft, chartQuery, selects, selectsOfCtes, selectsOfCtes, selectsOfCtes, Cte.selects,
      Cte.selects, CteBody.selects, CteBody.selects, countedQuery, selects_flat]
    simp
  refine narrowedTo_of_mem hmem hreading fun s hs => ?_
  rw [List.append_assoc]
  exact List.mem_append_left _ hs

theorem narrowed_recordsDraft (columns more : List String) (value : String)
    (conditions : List String) (n : Headcount) : ∀ t ∈ [Table.appointments, .discoveries],
      (recordsDraft columns more value conditions n).query.NarrowedTo t n := by
  have harm : ∀ t ∈ [Table.appointments, .discoveries], assignedSelect t columns more
      (texts t none true n) ∈ (recordsDraft columns more value conditions n).query.selects := by
    rw [recordsDraft, selects, recordsCte, selectsOfCtes, selectsOfCtes, Cte.selects,
      CteBody.selects, selectsOfSelects, selectsOfSelects, selectsOfSelects]
    simp [self_mem_selects]
  intro t ht
  have hreading : Reading.ofText t.name = ⟨t.name, none⟩ := by
    simp only [List.mem_cons, List.not_mem_nil, or_false] at ht
    rcases ht with rfl | rfl <;> exact ofText_name (by decide)
  refine narrowedTo_of_mem (harm t ht) hreading fun s hs => ?_
  rw [List.append_assoc]
  exact List.mem_append_left _ hs

theorem narrowed_pairsSelect (leads : List String) (n : Headcount) :
    (pairsSelect leads (userTexts .dials (some "d") n)).NarrowedTo .dials n := by
  refine narrowedTo_joined (["d.contact_id = c.id", "d.account_id = c.account_id",
    "d.date_called >= c.ghl_created_at"] ++ userTexts .dials (some "d") n) ofText_dials rfl ?_
  exact fun s hs => List.mem_append_right _ hs

theorem narrowed_conversionSelect (leads : List String) (n : Headcount) :
    (conversionSelect leads (userTexts .appointments (some "a") n)).NarrowedTo .appointments n := by
  refine narrowedTo_joined (["a.contact_id = c.id", "a.account_id = c.account_id"] ++
    userTexts .appointments (some "a") n) ofText_owners rfl ?_
  exact fun s hs => List.mem_append_right _ hs

/-- The cash of dials is narrowed where the dials are looked up. -/
theorem narrowed_cashDraft (n : Headcount) :
    (cashSelect (texts .dials (some "d") true n)).NarrowedTo .dials n := by
  have hmem : bookedSelect (texts .dials (some "d") true n) ∈
      (cashSelect (texts .dials (some "d") true n)).selects := by
    rw [cashSelect, Select.simple, selects, selectsOfCtes, selectsOfConditions,
      selectsOfConditions, selectsOfConditions, Condition.selects, Condition.selects]
    simp [self_mem_selects]
  exact narrowedTo_of_mem hmem ofText_dials fun s hs => List.mem_append_left _ hs

/-- What holds of a query of a formula: it is bound, and it is narrowed to people just if it is not
about the whole account. -/
structure Credits (formula : Formula) (n : Headcount) (p : String × Draft) : Prop where
  bound : p.2.Bound n
  wide : p.1 ∈ accountWide → ∀ t, p.2.scope ≠ .people t
  query : p.1 ∉ accountWide → ∀ t ∈ formula.credited, p.2.query.NarrowedTo t n
  people : p.1 ∉ accountWide → ∀ t ∈ formula.credited, ∃ u, p.2.scope = .people u ∧
    ∀ f, userFields f u = userFields f t

theorem credits_wide {formula : Formula} {n : Headcount} {name : String} {d : Draft}
    (hname : name ∈ accountWide) (hbound : d.Bound n) (hscope : ∀ t, d.scope ≠ .people t) :
    Credits formula n (name, d) :=
  ⟨hbound, fun _ => hscope, fun h => absurd hname h, fun h => absurd hname h⟩

theorem credits_people {formula : Formula} {n : Headcount} {name : String} {q : Select} {u : Table}
    (hname : name ∉ accountWide) (hbound : (Draft.mk q (.people u)).Bound n)
    (hquery : ∀ t ∈ formula.credited, q.NarrowedTo t n)
    (hsame : ∀ t ∈ formula.credited, ∀ f, userFields f u = userFields f t) :
    Credits formula n (name, ⟨q, .people u⟩) :=
  ⟨hbound, fun h => absurd h hname, fun _ => hquery, fun _ t ht => ⟨u, rfl, hsame t ht⟩⟩

theorem credits_one {formula : Formula} {n : Headcount} {name : String} {q : Select} {u : Table}
    (hname : name ∉ accountWide) (hcredited : formula.credited = [u])
    (hbound : (Draft.mk q (.people u)).Bound n) (hquery : q.NarrowedTo u n) :
    Credits formula n (name, ⟨q, .people u⟩) := by
  refine credits_people hname hbound ?_ ?_
  · intro t ht
    rw [hcredited] at ht
    rw [List.mem_singleton.mp ht]
    exact hquery
  · intro t ht f
    rw [hcredited] at ht
    rw [List.mem_singleton.mp ht]

theorem credits_records {formula : Formula} {n : Headcount} {name : String}
    (hname : name ∉ accountWide) (hcredited : formula.credited = [.appointments, .discoveries])
    {columns more conditions : List String} {value : String}
    (hbound : (recordsDraft columns more value conditions n).Bound n) :
    Credits formula n (name, recordsDraft columns more value conditions n) := by
  refine credits_people hname hbound ?_ ?_
  · rw [hcredited]
    exact narrowed_recordsDraft columns more value conditions n
  · intro t ht f
    rw [hcredited] at ht
    simp only [List.mem_cons, List.not_mem_nil, or_false] at ht
    rcases ht with rfl | rfl <;> rfl

theorem credits_spend (formula : Formula) (n : Headcount) :
    Credits formula n ("spend", spendDraft) :=
  credits_wide (by decide)
    (bound_wideDraft (by decide) (plain_ofList (by decide)) _ n) nofun

theorem credits_total (formula : Formula) (n : Headcount) :
    Credits formula n ("total_appointments", totalAppointmentsDraft) :=
  credits_wide (by decide)
    (bound_wideDraft (by decide) (plain_ofList (by decide)) _ n) nofun

theorem credits_drafts (formula : Formula) (b : Breakdown) (n : Headcount) :
    ∀ p ∈ drafts formula b n, Credits formula n p := by
  have hcash : Plain "COALESCE(SUM(cash_collected), 0)" := plain_ofList (by decide)
  have happointments : ∀ {q : Select}, q.MadeOf (texts .appointments none true n) →
      (Draft.mk q (.people .appointments)).Bound n :=
    bound_of_madeOf (by decide) plain_unqualified
  have hflat : ∀ {columns cs groups order : List String},
      (∀ s ∈ texts .appointments none true n, s ∈ cs) →
      (Select.mk columns "appointments" [] (sqlConditions cs) groups [] order []).NarrowedTo
        .appointments n := narrowedTo_flat ofText_appointments
  cases formula with
  | roi =>
    simp only [drafts, List.forall_mem_cons]
    exact ⟨credits_one (by decide) rfl (bound_sumDraft (by decide) hcash n)
      (hflat fun s hs => hs), credits_spend _ n, List.forall_mem_nil _⟩
  | repRoi =>
    simp only [drafts, List.forall_mem_cons]
    exact ⟨credits_one (by decide) rfl (happointments (madeOf_repStatsSelect _))
      (hflat fun s hs => List.mem_append_left _ hs), credits_total _ n, credits_spend _ n,
      List.forall_mem_nil _⟩
  | costPerBookedCall =>
    simp only [drafts, List.forall_mem_append, List.forall_mem_cons]
    refine ⟨⟨credits_total _ n, credits_spend _ n, List.forall_mem_nil _⟩, ?_⟩
    split
    · exact List.forall_mem_nil _
    · intro p hp
      rw [List.mem_singleton.mp hp]
      exact credits_one (by decide) rfl
        (happointments (madeOf_entitiesSelect ((Table.plainTexts_of_mem (by decide)).keys b) _))
        (hflat fun s hs => List.mem_append_left _ hs)
  | speedToLead =>
    simp only [drafts, List.forall_mem_cons]
    exact ⟨credits_one (by decide) rfl (bound_pairsDraft n) (narrowed_pairsSelect _ n),
      credits_wide (by decide) (bound_accountDraft n) (fun t => by simp [accountDraft]),
      List.forall_mem_nil _⟩
  | leadToAppointment =>
    simp only [drafts, List.forall_mem_cons]
    exact ⟨credits_one (by decide) rfl (bound_conversionDraft n)
      (narrowed_conversionSelect _ n), List.forall_mem_nil _⟩
  | dataCompletionRate =>
    simp only [drafts, List.forall_mem_cons]
    refine ⟨credits_records (by decide) rfl
      (bound_recordsDraft ?_ ?_ (plain_ofList (by decide)) ?_ n), List.forall_mem_nil _⟩
    · simp only [List.forall_mem_cons]
      exact ⟨plain_ofList (by decide), List.forall_mem_nil _⟩
    · simp only [List.forall_mem_cons]
      exact ⟨plain_ofList (by decide), List.forall_mem_nil _⟩
    · exact List.forall_mem_nil _
  | overdueItems =>
    simp only [drafts, List.forall_mem_cons]
    exact ⟨credits_records (by decide) rfl (bound_overdueDraft _ n), List.forall_mem_nil _⟩
  | overduePercentage =>
    simp only [drafts, List.forall_mem_cons]
    exact ⟨credits_records (by decide) rfl (bound_overdueDraft _ n), List.forall_mem_nil _⟩
  | cashPerDial =>
    simp only [drafts, List.forall_mem_cons]
    exact ⟨credits_one (by decide) rfl
        (bound_of_madeOf (by decide) plain_dialers (madeOf_dialsSelect _))
        (narrowedTo_flat ofText_dials fun s hs => hs),
      credits_one (by decide) rfl (bound_cashDraft n) (narrowed_cashDraft n),
      List.forall_mem_nil _⟩
  | bookingLeadTime =>
    simp only [drafts, List.forall_mem_cons]
    exact ⟨credits_one (by decide) rfl (happointments (madeOf_leadTimesSelect _))
      (hflat fun s hs => List.mem_append_left _ hs), List.forall_mem_nil _⟩
  | workTimeframe => exact List.forall_mem_nil _

theorem Credits.exact {formula : Formula} {f : Filters} {p : String × Draft}
    (h : Credits formula f.headcount p) (start finish : Date) :
    (p.2.call f start finish).Exact start finish := h.bound.exact start finish

theorem Credits.narrowed {formula : Formula} {f : Filters} {p : String × Draft}
    (h : Credits formula f.headcount p) (start finish : Date) :
    if p.1 ∈ accountWide then (p.2.call f start finish).people = []
    else ∀ t ∈ formula.credited, (p.2.call f start finish).NarrowedTo f t := by
  split
  · rename_i hname
    exact Scope.filter_wide (h.wide hname) f start finish
  · rename_i hname
    intro t ht
    obtain ⟨u, hscope, hsame⟩ := h.people hname t ht
    refine ⟨h.query hname t ht, ?_⟩
    rw [Call.people, Draft.call, hscope, Scope.filter_people, hsame]

variable {m : Metric} {t : Table} {f : Filters} {start finish : Date}

theorem exact_of_generic (hm : m.PlainTexts) (ht : m.tableSpec = .ok t)
    (hdays : f.days = .ok (start, finish)) (b : Breakdown) :
    ∃ q, generic m f b = .ok q ∧ q.toCall.Exact start finish ∧ q.toCall.NarrowedTo f t := by
  obtain ⟨hmem, hname⟩ := Table.mem_of_named ht
  have hplain := Table.plainTexts_of_mem hmem
  have hbound : (plainDraft m t b f.headcount).Bound f.headcount :=
    bound_of_madeOf hmem plain_unqualified (madeOf_plainDraft hm hplain hname b f.headcount)
  refine ⟨_, generic_eq ht hdays b, hbound.exact start finish, ?_, ?_⟩
  · exact narrowed_plainDraft hmem hname b f.headcount
  · exact Scope.filter_people f start finish t

theorem exists_chart (ht : m.tableSpec = .ok t) (hdays : f.days = .ok (start, finish))
    (hle : start ≤ finish) {g : Option Granularity}
    (hg : Followed (bucketStart finish (g.getD (.select start finish)))
      (g.getD (.select start finish))) :
    ∃ q series, chart m f g = .ok (q, series) := by
  obtain ⟨series, last, hseries, hfirst, hlast⟩ := exists_bucketSeries hle hg
  exact ⟨_, series, chart_eq ht hdays hseries hfirst hlast⟩

theorem exact_of_chart (hm : m.PlainTexts) (ht : m.tableSpec = .ok t)
    (hdays : f.days = .ok (start, finish)) {g : Option Granularity} {q : BoundQuery}
    {series : List Date} (h : chart m f g = .ok (q, series)) :
    q.toCall.Exact start finish ∧ q.toCall.NarrowedTo f t := by
  obtain ⟨hmem, hname⟩ := Table.mem_of_named ht
  obtain ⟨u, s, e, first, last, hu, hse, hseries, hfirst, hlast⟩ := of_chart h
  obtain rfl : t = u := Except.ok.inj (ht.symm.trans hu)
  obtain ⟨rfl, rfl⟩ := Prod.mk.inj (Except.ok.inj (hdays.symm.trans hse))
  rw [chart_eq ht hdays hseries hfirst hlast] at h
  cases h
  have hnames : ((Scope.people t).fields f start finish ++ seriesFields first last).names =
      (Scope.people t).names f.headcount ++ ["series_start", "series_end"] := by
    rw [Named.names_append, Scope.names_fields]
    rfl
  have hgeneral : (seriesFields first last).filter (fun p => p.1 ∉ generalNames) = [] := rfl
  refine ⟨⟨?_, ?_, ?_, ?_⟩, narrowed_chartDraft hmem hname _ _, ?_⟩
  · intro n
    rw [hnames]
    exact mem_names_chartDraft hm hmem hname _ _ n
  · exact nodup_names_series t f start finish first last
  · simp [Scope.fields, accountFields, Named.find?_cons]
  · simp [Scope.fields, accountFields, Named.find?_cons]
  · rw [Call.people, List.filter_append, Scope.filter_people, hgeneral, List.append_nil]

theorem exact_of_formula {fm : Formula} (hm : m.formula = some fm) (hfm : fm ≠ .workTimeframe)
    (hdays : f.days = .ok (start, finish)) (settings : Fields) (b : Breakdown) :
    ∃ plan, formula m f settings b = .ok plan ∧ ∀ p ∈ plan.queries,
      p.2.toCall.Exact start finish ∧ if p.1 ∈ accountWide then p.2.toCall.people = []
        else ∀ t ∈ fm.credited, p.2.toCall.NarrowedTo f t := by
  have hcalls := formula_eq hm hfm hdays settings b
  cases hplan : formula m f settings b with
  | error e =>
    rw [hplan] at hcalls
    cases hcalls
  | ok plan =>
    rw [hplan, Except.map, Except.ok.injEq] at hcalls
    refine ⟨plan, rfl, fun p hp => ?_⟩
    have hmem : (p.1, p.2.toCall) ∈ plan.calls := List.mem_map_of_mem hp
    rw [hcalls] at hmem
    obtain ⟨⟨name, d⟩, hd, heq⟩ := List.mem_map.mp hmem
    obtain ⟨hname, hcall⟩ := Prod.mk.inj heq
    have hcredits := credits_drafts fm b f.headcount _ hd
    rw [← hname, ← hcall]
    exact ⟨hcredits.exact start finish, hcredits.narrowed start finish⟩

end Plan

/-- Every planned query is exactly bound. For checked filters a metric has a plain query in every
breakdown, a plan if it is a formula over queries, and a chart if the bucket after that of the last
day is in the calendar. What the query asks for is what it binds, the days are those of the filters
in their order, and the people are those of the filters that its table knows; only what is about the
whole account binds nobody. -/
theorem exactly_bound {name : String} {m : Metric} (hm : Registry.find? name = some m)
    {f : Filters} (hf : f.reasons = []) : ∃ t start finish, m.tableSpec = .ok t ∧
    f.days = .ok (start, finish) ∧ start ≤ finish ∧
    (∀ b, ∃ q, Plan.generic m f b = .ok q ∧ q.toCall.Exact start finish ∧
      q.toCall.NarrowedTo f t) ∧
    (∀ fm settings b, m.formula = some fm → fm ≠ .workTimeframe →
      ∃ plan, Plan.formula m f settings b = .ok plan ∧ ∀ p ∈ plan.queries,
        p.2.toCall.Exact start finish ∧ if p.1 ∈ accountWide then p.2.toCall.people = []
          else ∀ t ∈ fm.credited, p.2.toCall.NarrowedTo f t) ∧
    (∀ g, Followed (bucketStart finish (g.getD (.select start finish)))
        (g.getD (.select start finish)) → ∃ q series, Plan.chart m f g = .ok (q, series)) ∧
    ∀ g q series, Plan.chart m f g = .ok (q, series) → q.toCall.Exact start finish ∧
      q.toCall.NarrowedTo f t := by
  have hplain := Registry.plainTexts_of_find? hm
  obtain ⟨t, ht⟩ := Registry.exists_table hm
  obtain ⟨start, finish, hc⟩ := Filters.checked_of_reasons hf
  refine ⟨t, start, finish, ht, hc.days, hc.ordered, ?_, ?_, ?_, ?_⟩
  · exact fun b => Plan.exact_of_generic hplain ht hc.days b
  · exact fun fm settings b hfm hne => Plan.exact_of_formula hfm hne hc.days settings b
  · exact fun g hg => Plan.exists_chart ht hc.days hc.ordered hg
  · exact fun g q series h => Plan.exact_of_chart hplain ht hc.days h

/-- The dials of an account, narrowed to two setters. -/
theorem exactly_bound_cashPerDial :
    ∃ m, Registry.find? "cash_per_dial" = some m ∧ ∃ f : Filters, f.reasons = [] ∧
      (Identifier.kept f.setterIds).length = 2 ∧ ∃ plan, Plan.formula m f [] .total = .ok plan ∧
      ∀ p ∈ plan.queries, ∀ n, n ∈ Placeholder.names p.2.sql ↔ n ∈ p.2.params.names := by
  let f := Filters.between "north" "2024-01-01" "2024-01-31" []
    ["11111111-2222-3333-4444-555555555555", "66666666-7777-8888-9999-000000000000"]
  have hkey : Registry.specialMetrics[12].key = "cash_per_dial" := rfl
  have hmem : Registry.specialMetrics[12] ∈ Registry.specialMetrics := List.getElem_mem _
  have hm := Registry.find?_special hmem
  rw [hkey] at hm
  have hf : f.reasons = [] := by decide
  have hsetters : (Identifier.kept f.setterIds).length = 2 := by decide
  obtain ⟨t, start, finish, -, -, -, -, hformula, -, -⟩ := exactly_bound hm hf
  obtain ⟨plan, hplan, hqueries⟩ := hformula .cashPerDial [] .total rfl (by decide)
  exact ⟨_, hm, f, hf, hsetters, plan, hplan, fun p hp => (hqueries p hp).1.placeholders⟩

end Funnel
