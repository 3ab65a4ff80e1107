import Funnel.Plan.Options
import Funnel.Proofs.Catalog.Texts
import Funnel.Proofs.Filter.Checked
import Funnel.Proofs.Plan.People
import Funnel.Proofs.Store.Asks

/-!
# The form of a query

The form of a call is its text with the names of what it binds. It is the same for any two requests
that name as many reps and as many setters: no account, day, identifier or setting comes into it.
-/

set_option autoImplicit false

namespace Funnel

open Calendar Standard

/-- What is left of a call without its values: its text and the names that it binds. -/
def Call.form (c : Call) : String × List String := (c.sql, c.params.names)

def Plan.FormulaPlan.forms (p : FormulaPlan) : Named (String × List String) :=
  p.queries.map fun (n, q) => (n, q.toCall.form)

/-- The forms of what a session asks, given what has happened before. -/
def Session.formsAsked {α : Type} (x : Session α) (t : Trace) : List (String × List String) :=
  ((x.run t).2.calls.drop t.calls.length).map Call.form

def Draft.form (d : Draft) (n : Headcount) : String × List String :=
  (d.query.render, d.scope.names n)

theorem Draft.form_call (d : Draft) (f : Filters) (start finish : Date) :
    (d.call f start finish).form = d.form f.headcount := by
  rw [Call.form, Draft.form, call, Scope.names_fields]
  rfl

theorem Metric.exists_table {m : Metric} (h : (Table.find? m.table).isSome = true) :
    ∃ t, m.tableSpec = .ok t := by
  obtain ⟨t, ht⟩ := Option.isSome_iff_exists.mp h
  exact ⟨t, by rw [Metric.tableSpec, Table.named, ht]⟩

theorem Registry.exists_table {name : String} {m : Metric} (h : find? name = some m) :
    ∃ t, m.tableSpec = .ok t := by
  have hbase : ∀ m ∈ baseMetrics, (Table.find? m.table).isSome = true := by decide
  have hspecial : ∀ m ∈ specialMetrics, (Table.find? m.table).isSome = true := by decide
  rcases variant_or_special h with ⟨base, hmem, hvariant⟩ | hmem
  · exact Metric.exists_table (hvariant.table ▸ hbase base hmem)
  · exact Metric.exists_table (hspecial m hmem)

namespace Plan

def chartGranularity (f : Filters) (g : Option Granularity) : Except Fault Granularity :=
  f.days.map fun (start, finish) => g.getD (.select start finish)

variable {m : Metric} {f f' : Filters}

theorem form_of_generic {t : Table} {start finish : Date} (ht : m.tableSpec = .ok t)
    (hdays : f.days = .ok (start, finish)) (b : Breakdown) :
    (generic m f b).map (fun q => q.toCall.form) = .ok ((plainDraft m t b f.headcount).form
      f.headcount) := by
  rw [generic_eq ht hdays, Except.map, Draft.form_call]

theorem form_of_chart {t : Table} {start finish : Date} {g : Option Granularity} {q : BoundQuery}
    {series : List Date} (ht : m.tableSpec = .ok t) (hdays : f.days = .ok (start, finish))
    (h : chart m f g = .ok (q, series)) : q.toCall.form =
      ((chartDraft m t (g.getD (.select start finish)) f.headcount).query.render,
        (Scope.people t).names f.headcount ++ ["series_start", "series_end"]) := by
  obtain ⟨u, s, e, first, last, hu, hse, hseries, hfirst, hlast⟩ := of_chart h
  obtain rfl : t = u := Except.ok.inj (ht.symm.trans hu)
  obtain ⟨rfl, rfl⟩ := Prod.mk.inj (Except.ok.inj (hdays.symm.trans hse))
  rw [chart_eq ht hdays hseries hfirst hlast] at h
  cases h
  rw [Call.form, Named.names_append, Scope.names_fields]
  rfl

theorem forms_eq (p : FormulaPlan) : p.forms = p.calls.map fun (n, c) => (n, c.form) := by
  rw [FormulaPlan.forms, FormulaPlan.calls, List.map_map]
  rfl

theorem forms_of_formula {fm : Formula} {start finish : Date} (hm : m.formula = some fm)
    (hfm : fm ≠ .workTimeframe) (hdays : f.days = .ok (start, finish)) (settings : Fields)
    (b : Breakdown) : (formula m f settings b).map FormulaPlan.forms =
      .ok ((drafts fm b f.headcount).map fun (n, d) => (n, d.form f.headcount)) := by
  have hcalls := formula_eq hm hfm hdays settings b
  cases hplan : formula m f settings b with
  | error e =>
    rw [hplan] at hcalls
    cases hcalls
  | ok plan =>
    rw [hplan, Except.map, Except.ok.injEq] at hcalls
    rw [Except.map, forms_eq, hcalls, List.map_map]
    simp only [Function.comp_def, Draft.form_call]

theorem formula_eq_error (hm : ∀ fm, m.formula = some fm → fm = .workTimeframe) (f : Filters)
    (settings : Fields) (b : Breakdown) :
    formula m f settings b = .error (.noPlan (formulaName m.formula)) := by
  unfold formula
  cases h : m.formula with
  | none => rfl
  | some fm =>
    obtain rfl := hm fm h
    rfl

theorem forms_formula_eq {start finish start' finish' : Date} (hdays : f.days = .ok (start, finish))
    (hdays' : f'.days = .ok (start', finish')) (hcount : f.headcount = f'.headcount)
    (settings settings' : Fields) (b : Breakdown) :
    (formula m f settings b).map FormulaPlan.forms =
      (formula m f' settings' b).map FormulaPlan.forms := by
  by_cases hnone : ∀ fm, m.formula = some fm → fm = .workTimeframe
  · rw [formula_eq_error hnone, formula_eq_error hnone]
  · simp only [Classical.not_forall] at hnone
    obtain ⟨fm, hm, hfm⟩ := hnone
    rw [forms_of_formula hm hfm hdays, forms_of_formula hm hfm hdays', hcount]

end Plan

theorem selectStrategy_eq {o o' : Options} (m : Metric) (hviz : o.vizType = o'.vizType)
    (hbreakdown : o.breakdown = o'.breakdown) : selectStrategy m o = selectStrategy m o' := by
  have hchart : o.wantsChart = o'.wantsChart := by
    rw [Options.wantsChart, Options.wantsChart, hviz, hbreakdown]
  unfold selectStrategy specialBreakdown plainBreakdown
  rw [hchart, hbreakdown]

theorem Work.form_of_dialsCall {f : Filters} {start finish : Date}
    (hdays : f.days = .ok (start, finish)) (callers : List String) :
    (dialsCall f callers).map Call.form =
      .ok ((dialsDraft ⟨0, (Identifier.kept callers).length⟩).form
        ⟨0, (Identifier.kept callers).length⟩) := by
  rw [dialsCall_eq hdays, Except.map, Draft.form_call]
  rfl

/-- What a session asks first is all that it asks if it asks nothing after that. -/
theorem Session.calls_bind {α β : Type} {x : Session α} {k : α → Session β}
    (hk : ∀ a, (k a).Asks fun _ => False) (t : Trace) :
    ((x >>= k).run t).2.calls = (x.run t).2.calls := by
  rw [run_bind]
  rcases x.run t with ⟨_ | a, u⟩
  · rfl
  · obtain ⟨new, hnew, hnone⟩ := hk a u
    rw [hnew, List.eq_nil_iff_forall_not_mem.mpr hnone, List.append_nil]

namespace Profile

theorem calls_load (e : Engine) (v : View) (tokens : List String) (t : Trace) :
    ((load e v tokens).run t).2.calls = t.calls ++
      if Identifier.kept tokens = [] then [] else [call v (Identifier.kept tokens)] := by
  unfold load
  split
  · rename_i hnone
    rw [if_pos hnone, List.append_nil]
    rfl
  · rename_i hsome
    rw [if_neg hsome, Session.calls_bind, Session.calls_orElse, Session.run_ask]
    · exact fun rows => Session.asks_bind (Session.asks_ofExcept _) fun _ => Session.asks_pure _

theorem form_call (v : View) (ids : List String) : (call v ids).form =
    ((query ids.length).render,
      "account_id" :: (List.range ids.length).map (numbered "user_id")) := by
  rw [Call.form, Call.sql, query_call, params_call, ← @List.length_map _ _ ids Value.text,
    ← names_numberedValues]
  rfl

theorem formsAsked_load (e : Engine) (v : View) (tokens : List String) (t : Trace) :
    (load e v tokens).formsAsked t = if (Identifier.kept tokens).length = 0 then [] else
      [((query (Identifier.kept tokens).length).render,
        "account_id" ::
          (List.range (Identifier.kept tokens).length).map (numbered "user_id"))] := by
  rw [Session.formsAsked, calls_load, List.drop_left, ← form_call v]
  simp only [List.length_eq_zero_iff]
  split <;> rfl

end Profile

/-- No value of a request comes into a text. Two checked requests for one metric that ask for the
same form of result and name as many reps and as many setters are answered by queries with the same
texts and the same names of parameters, whatever their accounts, days, identifiers and settings are.
So are the dials of as many callers and the profiles of as many people. -/
theorem texts_free_of_values {name : String} {m : Metric} (hm : Registry.find? name = some m)
    {f f' : Filters} (hf : f.reasons = []) (hf' : f'.reasons = [])
    (hreps : (Identifier.kept f.repIds).length = (Identifier.kept f'.repIds).length)
    (hsetters : (Identifier.kept f.setterIds).length = (Identifier.kept f'.setterIds).length)
    {o o' : Options} (hviz : o.vizType = o'.vizType) (hbreakdown : o.breakdown = o'.breakdown) :
    selectStrategy m o = selectStrategy m o' ∧
    (∀ b, ∃ form, (Plan.generic m f b).map (fun q => q.toCall.form) = .ok form ∧
      (Plan.generic m f' b).map (fun q => q.toCall.form) = .ok form) ∧
    (∀ g g' q q' series series', Plan.chart m f g = .ok (q, series) →
      Plan.chart m f' g' = .ok (q', series') →
      Plan.chartGranularity f g = Plan.chartGranularity f' g' → q.toCall.form = q'.toCall.form) ∧
    (∀ settings settings' b, (Plan.formula m f settings b).map Plan.FormulaPlan.forms =
      (Plan.formula m f' settings' b).map Plan.FormulaPlan.forms) ∧
    (∀ callers callers', (Identifier.kept callers).length = (Identifier.kept callers').length →
      ∃ form, (Work.dialsCall f callers).map Call.form = .ok form ∧
        (Work.dialsCall f' callers').map Call.form = .ok form) ∧
    ∀ (e e' : Engine) (v v' : View) (tokens tokens' : List String) (t t' : Trace),
      (Identifier.kept tokens).length = (Identifier.kept tokens').length →
      (Profile.load e v tokens).formsAsked t = (Profile.load e' v' tokens').formsAsked t' := by
  obtain ⟨t, ht⟩ := Registry.exists_table hm
  obtain ⟨start, finish, hc⟩ := Filters.checked_of_reasons hf
  obtain ⟨start', finish', hc'⟩ := Filters.checked_of_reasons hf'
  have hcount : f.headcount = f'.headcount := by
    rw [Filters.headcount, Filters.headcount, hreps, hsetters]
  refine ⟨selectStrategy_eq m hviz hbreakdown, ?_, ?_, ?_, ?_, ?_⟩
  · intro b
    refine ⟨_, Plan.form_of_generic ht hc.days b, ?_⟩
    rw [Plan.form_of_generic ht hc'.days, hcount]
  · intro g g' q q' series series' hq hq' hg
    rw [Plan.chartGranularity, Plan.chartGranularity, hc.days, hc'.days, Except.map, Except.map,
      Except.ok.injEq] at hg
    change g.getD (.select start finish) = g'.getD (.select start' finish') at hg
    rw [Plan.form_of_chart ht hc.days hq, Plan.form_of_chart ht hc'.days hq', hg, hcount]
  · intro settings settings' b
    exact Plan.forms_formula_eq hc.days hc'.days hcount settings settings' b
  · intro callers callers' hcallers
    refine ⟨_, Work.form_of_dialsCall hc.days callers, ?_⟩
    rw [Work.form_of_dialsCall hc'.days, hcallers]
  · intro e e' v v' tokens tokens' u u' htokens
    rw [Profile.formsAsked_load, Profile.formsAsked_load, htokens]

/-- Two accounts with other days, other identifiers and another setting. -/
theorem texts_free_of_values_cashPerDial :
    ∃ m, Registry.find? "cash_per_dial" = some m ∧ ∃ f f' : Filters, f ≠ f' ∧
      f.reasons = [] ∧ f'.reasons = [] ∧
      (Identifier.kept f.repIds).length = (Identifier.kept f'.repIds).length ∧
      (Identifier.kept f.setterIds).length = (Identifier.kept f'.setterIds).length ∧
      (Plan.formula m f [] .total).map Plan.FormulaPlan.forms =
        (Plan.formula m f' [("calculation", .text "median")] .total).map
          Plan.FormulaPlan.forms := by
  let f := Filters.between "north" "2024-01-01" "2024-01-31" []
    ["11111111-2222-3333-4444-555555555555", "66666666-7777-8888-9999-000000000000"]
  let f' := Filters.between "south" "2023-05-05" "2023-05-09" []
    [" aaaaaaaa-bbbb-cccc-dddd-eeeeeeeeeeee", "nobody",
      "ffffffff-0000-1111-2222-333333333333"]
  have hkey : Registry.specialMetrics[12].key = "cash_per_dial" := rfl
  have hmem : Registry.specialMetrics[12] ∈ Registry.specialMetrics := List.getElem_mem _
  have hm := Registry.find?_special hmem
  rw [hkey] at hm
  have hf : f.reasons = [] := by decide
  have hf' : f'.reasons = [] := by decide
  have hreps : (Identifier.kept f.repIds).length = (Identifier.kept f'.repIds).length := rfl
  have hsetters : (Identifier.kept f.setterIds).length = (Identifier.kept f'.setterIds).length := by
    decide
  have hne : f ≠ f' := by decide
  have hforms := @texts_free_of_values _ _ hm f f' hf hf' hreps hsetters .none .none rfl rfl
  exact ⟨_, hm, f, f', hne, hf, hf', hreps, hsetters, hforms.2.2.2.1 _ _ _⟩

end Funnel
