import Funnel.Proofs.Plan.Narrowing
import Funnel.Proofs.Plan.People
import Funnel.Proofs.Plan.Statements
import Funnel.Proofs.Series.Partition

/-!
# Queries that the guard lets through

The guard hands every query that is asked for on as it is: what is planned for a metric, and what is
asked for work days and for the profiles of people, whatever a request asks for and however many
people it names.
-/

set_option autoImplicit false

namespace Funnel

open Sql Standard Calendar

theorem Work.readable_dialsDraft (n : Headcount) : Readable .rows (dialsDraft n).query.render := by
  have hcolumns : ∀ c ∈ ["setter_user_id", "date_called", "booked"], c ∈ Sql.names := by decide
  have hcalled : Readable .value "date_called" := readable_column (by decide)
  have hset : Readable .condition ("date_called" ++ " IS NOT NULL") := readable_isNotNull hcalled
  refine readable_rows ⟨fun c hc => readable_output (readable_column (hcolumns c hc)),
    Table.readable_name (t := .dials) (by decide), List.forall_mem_nil _,
    readable_sqlConditions ?_, List.forall_mem_nil _, List.forall_mem_nil _, ?_⟩
  · simp only [List.forall_mem_append, List.forall_mem_cons]
    exact ⟨readable_texts (by decide) true n, hset, List.forall_mem_nil _⟩
  · exact List.forall_mem_singleton.mpr (.same .order hcalled)

theorem Profile.readable_query (count : Nat) : Sql.Readable .rows (query (count + 1)).render := by
  have huser : Placeholder.Nameable "user_id" :=
    ⟨'u', ['s', 'e', 'r', '_', 'i', 'd'], by decide, by decide⟩
  have hid : Sql.Readable .value ("p" ++ "." ++ "id") := readable_member (by decide) (by decide)
  have hfullName : Sql.Readable .value ("p" ++ "." ++ "full_name") :=
    readable_member (by decide) (by decide)
  have hrole : Sql.Readable .value ("aa" ++ "." ++ "role") :=
    readable_member (by decide) (by decide)
  have haccount : Sql.Readable .value ("aa" ++ "." ++ "account_id") :=
    readable_member (by decide) (by decide)
  have hon := readable_equals
    (readable_member (t := "aa") (n := "user_id") (by decide) (by decide)) hid
  have hsources : Sql.Readable .source ("profiles" ++ " " ++ "p") ∧
      Sql.Readable .source ("account_access" ++ " " ++ "aa") :=
    ⟨readable_renamed (by decide) (by decide), readable_renamed (by decide) (by decide)⟩
  have hjoin : Sql.Readable .join (Join.render ⟨"account_access aa", "aa.user_id = p.id", none⟩) :=
    readable_join (by decide) hsources.2 hon.conjunction
  refine readable_rows ⟨?_, hsources.1, List.forall_mem_singleton.mpr hjoin,
    readable_sqlConditions ?_, List.forall_mem_nil _, List.forall_mem_nil _,
    List.forall_mem_nil _⟩
  · simp only [List.forall_mem_cons]
    exact ⟨readable_aliased (n := "user_id") (.same .value hid) (.inl (by decide)),
      readable_aliased (n := "name") (.same .value hfullName) (.inr (by decide)),
      readable_aliased (n := "account_role") (.same .value hrole) (.inr (by decide)),
      List.forall_mem_nil _⟩
  · simp only [List.forall_mem_cons]
    exact ⟨readable_equality haccount isPlaceholder_account, readable_membership hid huser count,
      List.forall_mem_nil _⟩

def Call.Accepted (parse : Parser) (c : Call) : Prop := guard parse c.sql = .ok c.sql

section Accepted

variable {parse : Parser} (hparse : parse.ReadsQueries)

include hparse

theorem Call.accepted {c : Call} (h : Readable .statement c.query.render) : c.Accepted parse :=
  guard_of_derives hparse h

theorem Call.accepted_rows {c : Call} (h : Readable .rows c.query.render) : c.Accepted parse :=
  accepted hparse (.same .rows h)

namespace Plan

variable {m : Metric} {f : Filters}

theorem accepted_of_generic (hm : m.Legible) {b : Breakdown} {q : BoundQuery}
    (h : generic m f b = .ok q) : q.toCall.Accepted parse := by
  obtain ⟨t, start, finish, ht, -, hq⟩ := of_generic h
  obtain ⟨hmem, hname⟩ := Table.mem_of_named ht
  rw [hq]
  exact Call.accepted_rows hparse (readable_plainDraft hm hmem hname b f.headcount)

theorem accepted_of_chart (hm : m.Legible) {g : Option Granularity} {q : BoundQuery}
    {series : List Date} (h : chart m f g = .ok (q, series)) : q.toCall.Accepted parse := by
  obtain ⟨t, start, finish, first, last, ht, hdays, hseries, hfirst, hlast⟩ := of_chart h
  obtain ⟨hmem, hname⟩ := Table.mem_of_named ht
  rw [chart_eq ht hdays hseries hfirst hlast] at h
  cases h
  exact Call.accepted hparse (readable_chartQuery hm hmem hname _
    (readable_sqlConditions (readable_metricTexts hm hmem f.headcount)))

theorem accepted_of_formula {settings : Fields} {b : Breakdown} {plan : FormulaPlan}
    (h : formula m f settings b = .ok plan) : ∀ p ∈ plan.queries, p.2.toCall.Accepted parse :=
  forall_queries h fun fm _ _ _ _ p hp =>
    Call.accepted hparse (readable_drafts fm b f.headcount p hp)

end Plan

namespace Work

theorem accepted_callersCall (f : Filters) : (callersCall f).Accepted parse := by
  have hcolumns : ∀ c ∈ ["user_id", "account_id", "role"], c ∈ Sql.names := by decide
  have hcolumn := fun c hc => readable_column (hcolumns c hc)
  have hrole : Placeholder.Nameable "role" := ⟨'r', ['o', 'l', 'e'], by decide, by decide⟩
  have hmember : Readable .condition (membership "role" "role" callerRoles.length) :=
    readable_membership (hcolumn "role" (by decide)) hrole 0
  have hsource : Readable .source "account_access" := readable_source (by decide)
  refine Call.accepted_rows hparse ?_
  rw [query_callersCall]
  refine readable_rows (phrased_simple ?_ hsource ?_)
  · exact List.forall_mem_singleton.mpr (readable_output (hcolumn "user_id" (by decide)))
  · simp only [List.forall_mem_cons]
    exact ⟨readable_equality (hcolumn "account_id" (by decide)) isPlaceholder_account, hmember,
      List.forall_mem_nil _⟩

theorem accepted_zoneCall (f : Filters) : (zoneCall f).Accepted parse :=
  Call.accepted_rows hparse readable_zoneQuery

theorem accepted_of_dialsCall {f : Filters} {callers : List String} {c : Call}
    (h : dialsCall f callers = .ok c) : c.Accepted parse := by
  obtain ⟨start, finish, -, rfl⟩ := of_dialsCall h
  exact Call.accepted_rows hparse (readable_dialsDraft _)

theorem accepted_derive (known : Zones) (store : Store) (f : Filters) :
    (derive known store f).Asks (Call.Accepted parse) :=
  asks_derive (accepted_callersCall hparse f) store (accepted_zoneCall hparse f)
    (fun _ _ => accepted_of_dialsCall hparse) known

end Work

namespace Profile

theorem accepted_call (v : View) {ids : List String} (h : ids ≠ []) :
    (call v ids).Accepted parse := by
  obtain ⟨id, more, rfl⟩ := List.exists_cons_of_ne_nil h
  refine Call.accepted_rows hparse ?_
  rw [query_call, List.length_cons]
  exact readable_query more.length

end Profile

/-- The guard hands on every query that is planned for a metric or asked for work days or profiles,
as it is: whatever a checked request asks for, and however many people it names. All that is asked
of the parser is that it takes the queries of the grammar. -/
theorem queries_handed_on {name : String} {m : Metric} (hm : Registry.find? name = some m)
    {f : Filters} (hf : f.reasons = []) : ∃ start finish, f.days = .ok (start, finish) ∧
    (∀ b, ∃ q, Plan.generic m f b = .ok q ∧ q.toCall.Accepted parse) ∧
    (∀ fm settings b, m.formula = some fm → fm ≠ .workTimeframe →
      ∃ plan, Plan.formula m f settings b = .ok plan ∧
        ∀ p ∈ plan.queries, p.2.toCall.Accepted parse) ∧
    (∀ g, bucketEnd finish (g.getD (.select start finish)) ≤ lastDay →
      ∃ q series, Plan.chart m f g = .ok (q, series)) ∧
    (∀ g q series, Plan.chart m f g = .ok (q, series) → q.toCall.Accepted parse) ∧
    (∀ callers, ∃ c, Work.dialsCall f callers = .ok c ∧ c.Accepted parse) ∧
    (∀ known store, (Work.derive known store f).Asks (Call.Accepted parse)) ∧
    ∀ (e : Engine) (v : View) tokens, (Profile.load e v tokens).Asks (Call.Accepted parse) := by
  have hlegible := Registry.legible_of_find? hm
  obtain ⟨t, ht⟩ := Registry.exists_table hm
  obtain ⟨start, finish, hc⟩ := Filters.checked_of_reasons hf
  refine ⟨start, finish, hc.days, fun b => ?_, fun fm settings b hfm hne => ?_, fun g hend => ?_,
    fun g q series h => Plan.accepted_of_chart hparse hlegible h, fun callers => ?_,
    fun known store => Work.accepted_derive hparse known store f,
    fun e v tokens => Profile.asks_load (fun ids => Profile.accepted_call hparse v) e tokens⟩
  · have hplan := Plan.generic_eq ht hc.days b
    exact ⟨_, hplan, Plan.accepted_of_generic hparse hlegible hplan⟩
  · obtain ⟨plan, hplan, -⟩ := Plan.exact_of_formula hfm hne hc.days settings b
    exact ⟨plan, hplan, Plan.accepted_of_formula hparse hplan⟩
  · rw [← bucketEnd_bucketStart, ← followed_iff (bucketStart_bucketStart finish _)] at hend
    exact Plan.exists_chart ht hc.days hc.ordered hend
  · have hcall := Work.dialsCall_eq hc.days callers
    exact ⟨_, hcall, Work.accepted_of_dialsCall hparse hcall⟩

end Accepted

/-- The dials of an account and their cash, narrowed to two setters, with a parser that goes by what
a text starts with. -/
theorem queries_handed_on_cashPerDial :
    ∃ m, Registry.find? "cash_per_dial" = some m ∧ ∃ f : Filters, f.reasons = [] ∧
      (Identifier.kept f.setterIds).length = 2 ∧ ∃ plan, Plan.formula m f [] .total = .ok plan ∧
      plan.queries.length = 2 ∧
        ∀ p ∈ plan.queries, guard byOpening p.2.toCall.sql = .ok p.2.toCall.sql := by
  let f := Filters.between "north" "2024-01-01" "2024-01-31" []
    ["11111111-2222-3333-4444-555555555555", "66666666-7777-8888-9999-000000000000"]
  have hm := Registry.find?_cashPerDial
  have hf : f.reasons = [] := by decide
  have hsetters : (Identifier.kept f.setterIds).length = 2 := by decide
  obtain ⟨start, finish, hdays, -, hformula, -⟩ := queries_handed_on readsQueries_byOpening hm hf
  obtain ⟨plan, hplan, hqueries⟩ := hformula .cashPerDial [] .total rfl (by decide)
  have hlength : plan.calls.length = 2 := by
    have hcalls := Plan.formula_eq (m := Registry.specialMetrics[12]) rfl (by decide) hdays [] .total
    rw [hplan] at hcalls
    rw [Except.ok.inj hcalls]
    rfl
  rw [Plan.FormulaPlan.calls, List.length_map] at hlength
  exact ⟨_, hm, f, hf, hsetters, plan, hplan, hlength, hqueries⟩

end Funnel
