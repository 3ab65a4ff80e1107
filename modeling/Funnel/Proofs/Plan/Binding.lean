import Funnel.Proofs.Filter.Bound
import Funnel.Proofs.Plan.Isolation

/-!
# Planned queries are exactly bound

The placeholders of every planned query are the names that it binds: nothing is missing and nothing
is bound in vain.
-/

set_option autoImplicit false

namespace Funnel

open Calendar Fragment Standard

/-- What the texts of a draft ask for is what its scope binds. -/
def Draft.Bound (d : Draft) (n : Headcount) : Prop :=
  ∀ x, x ∈ Placeholder.names d.query.render ↔ x ∈ d.scope.names n

/-- A call that binds what its query asks for, each name once, and the two days as they are
written. -/
structure Call.Exact (start finish : Date) (c : Call) : Prop where
  placeholders : ∀ n, n ∈ Placeholder.names c.sql ↔ n ∈ c.params.names
  once : c.params.names.Nodup
  first : ∀ v ∈ c.params.find? "start_date", v = .text start.iso
  last : ∀ v ∈ c.params.find? "end_date", v = .text finish.iso

namespace Scope

theorem mem_names_people {t : Table} {n : Headcount} {x : String} :
    x ∈ (people t).names n ↔ x ∈ ["start_date", "end_date", "account_id"] ∨
      x ∈ repNames t n.reps ++ setterNames t n.setters := List.mem_append

theorem find?_day (s : Scope) (f : Filters) (start finish : Date) :
    ∀ day ∈ [("start_date", start), ("end_date", finish)],
      ∀ v ∈ (s.fields f start finish).find? day.1, v = .text day.2.iso := by
  intro day hday v hv
  rcases List.mem_pair.mp hday with rfl | rfl <;>
    cases s <;> simp_all [fields, accountFields, Named.find?_cons, Named.find?_nil]

end Scope

theorem Draft.Bound.exact {d : Draft} {f : Filters} (h : d.Bound f.headcount)
    (start finish : Date) : (d.call f start finish).Exact start finish where
  placeholders := by
    intro n
    rw [call, Scope.names_fields]
    exact h n
  once := d.scope.nodup_names_fields f start finish
  first := d.scope.find?_day f start finish _ List.mem_cons_self
  last := d.scope.find?_day f start finish _ (List.mem_cons_of_mem _ List.mem_cons_self)

namespace Plan

theorem mem_names_query {q : Select} {texts : List String} (h : q.MadeOf texts) (x : String) :
    x ∈ Placeholder.names q.render ↔ x ∈ texts.flatMap Placeholder.names := by
  rw [h.mem_names_iff, List.mem_flatMap]

theorem mem_names_narrowed {t : Table} (ht : t ∈ Table.all) {qualifier : Option String}
    (hq : ∀ a ∈ qualifier, Plain a) (n : Headcount) (x : String) :
    x ∈ (texts t qualifier true n).flatMap Placeholder.names ↔ x ∈ (Scope.people t).names n := by
  rw [mem_names_texts (Table.plainTexts_of_mem ht) hq, Scope.mem_names_people]
  simp only [true_and]

theorem mem_names_wide {t : Table} (ht : t ∈ Table.all) {qualifier : Option String}
    (hq : ∀ a ∈ qualifier, Plain a) (n : Headcount) (x : String) :
    x ∈ (texts t qualifier false n).flatMap Placeholder.names ↔ x ∈ Scope.days.names n := by
  rw [mem_names_texts (Table.plainTexts_of_mem ht) hq, Scope.names]
  simp only [Bool.false_eq_true, false_and, or_false]

theorem bound_of_madeOf {q : Select} {t : Table} {qualifier : Option String} {n : Headcount}
    (ht : t ∈ Table.all) (hq : ∀ a ∈ qualifier, Plain a)
    (h : q.MadeOf (texts t qualifier true n)) : (Draft.mk q (.people t)).Bound n := by
  intro x
  rw [mem_names_query h, mem_names_narrowed ht hq]

theorem bound_sumDraft {t : Table} (ht : t ∈ Table.all) {expression : String}
    (h : Plain expression) (n : Headcount) : (sumDraft t expression true n).Bound n :=
  bound_of_madeOf ht plain_unqualified (madeOf_sumSelect (Table.plainTexts_of_mem ht) h _)

/-- A query about the whole account asks for no people, however many there are. -/
theorem bound_wideDraft {t : Table} (ht : t ∈ Table.all) {expression : String}
    (h : Plain expression) (n n' : Headcount) : (sumDraft t expression false n).Bound n' := by
  intro x
  rw [sumDraft, mem_names_query (madeOf_sumSelect (Table.plainTexts_of_mem ht) h _),
    mem_names_wide ht plain_unqualified]
  rfl

theorem bound_accountDraft (n : Headcount) : accountDraft.Bound n := by
  intro x
  have hname : Placeholder.names (equality "id" "account_id") = ["account_id"] :=
    names_equality (plain_ofList (by decide)) param_account.nameable
  have hid : "id = $account_id" = equality "id" "account_id" := rfl
  rw [mem_names_query madeOf_accountDraft, List.flatMap_singleton, hid, hname]
  rfl

theorem bound_recordsDraft {columns more conditions : List String} {value : String}
    (hcolumns : ∀ s ∈ columns, Plain s) (hmore : ∀ s ∈ more, Plain s) (hvalue : Plain value)
    (hconditions : ∀ s ∈ conditions, Plain s) (n : Headcount) :
    (recordsDraft columns more value conditions n).Bound n := by
  intro x
  have hleft := mem_names_narrowed (t := .appointments) (by decide) plain_unqualified n x
  have hright := mem_names_narrowed (t := .discoveries) (by decide) plain_unqualified n x
  have hsame : (Scope.people .discoveries).names n = (Scope.people .appointments).names n := rfl
  rw [recordsDraft, mem_names_query (madeOf_recordsSelect hcolumns hmore hvalue hconditions _ _),
    List.flatMap_append, List.mem_append, hleft, hright, hsame, or_self]

theorem bound_overdueDraft (formula : Formula) (n : Headcount) :
    (overdueDraft formula n).Bound n := by
  refine bound_recordsDraft ?_ ?_ (plain_overdueValue formula) ?_ n
  · simp only [List.forall_mem_cons]
    exact ⟨plain_ofList (by decide), plain_ofList (by decide), List.forall_mem_nil _⟩
  · exact List.forall_mem_nil _
  · simp only [List.forall_mem_cons]
    exact ⟨plain_ofList (by decide), List.forall_mem_nil _⟩

/-- Leads ask for days and account, and what is joined to them for the people. -/
theorem bound_leads {q : Select} {t : Table} {short : String} {fixed : List String} {n : Headcount}
    (ht : t ∈ Table.all) (hshort : ∀ a ∈ some short, Plain a) (hfixed : ∀ s ∈ fixed, Plain s)
    (h : q.MadeOf (texts .contacts (some "c") true n ++
      [" AND ".intercalate (fixed ++ userTexts t (some short) n)])) :
    (Draft.mk q (.people t)).Bound n := by
  intro x
  have hnone : fixed.flatMap Placeholder.names = [] := by
    rw [List.flatMap_eq_nil_iff]
    exact fun s hs => (hfixed s hs).names_eq_nil
  have hleads := mem_names_narrowed (t := .contacts) (by decide) plain_leads n x
  have hstrangers : (Scope.people .contacts).names n =
      ["start_date", "end_date", "account_id"] := rfl
  rw [mem_names_query h, List.flatMap_append, List.mem_append, hleads, hstrangers,
    List.flatMap_singleton, Placeholder.splits_names.intercalate (by decide), List.flatMap_append,
    hnone, List.nil_append, flatMap_names_userTexts (Table.plainTexts_of_mem ht) hshort,
    Scope.mem_names_people]

theorem bound_pairsDraft (n : Headcount) :
    (Draft.mk (pairsSelect (texts .contacts (some "c") true n) (userTexts .dials (some "d") n))
      (.people .dials)).Bound n := by
  refine bound_leads (by decide) plain_dialers ?_ (madeOf_pairsSelect _ _)
  simp only [List.forall_mem_cons]
  exact ⟨plain_ofList (by decide), plain_ofList (by decide), plain_ofList (by decide),
    List.forall_mem_nil _⟩

theorem bound_conversionDraft (n : Headcount) :
    (Draft.mk (conversionSelect (texts .contacts (some "c") true n)
      (userTexts .appointments (some "a") n)) (.people .appointments)).Bound n := by
  refine bound_leads (by decide) plain_owners ?_ (madeOf_conversionSelect _ _)
  simp only [List.forall_mem_cons]
  exact ⟨plain_ofList (by decide), plain_ofList (by decide), List.forall_mem_nil _⟩

/-- The cash of dials asks for the account twice. -/
theorem bound_cashDraft (n : Headcount) :
    (Draft.mk (cashSelect (texts .dials (some "d") true n)) (.people .dials)).Bound n := by
  intro x
  have haccount : Placeholder.names (equality "a.account_id" "account_id") = ["account_id"] :=
    names_equality (plain_ofList (by decide)) param_account.nameable
  have hequality : "a.account_id = $account_id" = equality "a.account_id" "account_id" := rfl
  have hmem : "account_id" ∈ (Scope.people .dials).names n := by simp [Scope.names]
  rw [mem_names_query (madeOf_cashSelect _), List.flatMap_cons, List.mem_append, hequality,
    haccount, mem_names_narrowed (by decide) plain_dialers, List.mem_singleton]
  constructor
  · rintro (rfl | h)
    · exact hmem
    · exact h
  · exact .inr

theorem names_seriesColumn (g : Granularity) :
    Placeholder.names (seriesColumn g) = ["series_start", "series_end"] := by
  have hstart : Param "series_start" := param_ofList (by decide) (by decide) (by decide)
  have hend : Param "series_end" := param_ofList (by decide) (by decide) (by decide)
  have hsplit : seriesColumn g = "generate_series(" ++ ("$" ++ "series_start") ++ "::date, " ++
      ("" ++ ("$" ++ "series_end") ++ "::date, ") ++ g.interval ++ ")::date AS bucket" := rfl
  have hfirst : Placeholder.names ("generate_series(" ++ ("$" ++ "series_start") ++ "::date, ") =
      ["series_start"] :=
    Placeholder.names_between (noDollar_ofList (by decide)) hstart.nameable
      (noDollar_ofList (by decide)) (startsApart_ofList (by decide))
  have hlast : Placeholder.names ("" ++ ("$" ++ "series_end") ++ "::date, ") = ["series_end"] :=
    Placeholder.names_between (noDollar_ofList (by decide)) hend.nameable
      (noDollar_ofList (by decide)) (startsApart_ofList (by decide))
  have hinterval : '$' ∉ g.interval.toList := by
    simp only [Granularity.interval, String.toList_append, List.mem_append, not_or]
    exact ⟨⟨noDollar_ofList (by decide), (plain_granularity g).noDollar⟩,
      noDollar_ofList (by decide)⟩
  rw [hsplit, Placeholder.names_append_of_startsApart _ (startsApart_ofList (by decide)),
    Placeholder.names_append_of_endsApart, Placeholder.names_append_of_endsApart, hfirst, hlast,
    Placeholder.names_of_no_dollar hinterval,
    Placeholder.names_of_no_dollar (noDollar_ofList (by decide))]
  · rfl
  · exact endsApart_append _ (endsApart_ofList (by decide))
  · exact endsApart_append _ (endsApart_append _ (endsApart_ofList (by decide)))

theorem names_bucketExpression {t : Table} (ht : t.PlainTexts) (g : Granularity) :
    ∀ x ∈ Placeholder.names (bucketExpression t g), x = "account_id" := by
  intro x hx
  unfold bucketExpression at hx
  split at hx
  · rw [(plain_localColumn g).names_eq_nil] at hx
    cases hx
  · have htrunc : '$' ∉ ("date_trunc('" ++ g.text ++ "', ").toList := by
      simp only [String.toList_append, List.mem_append, not_or]
      exact ⟨⟨noDollar_ofList (by decide), (plain_granularity g).noDollar⟩,
        noDollar_ofList (by decide)⟩
    rw [Placeholder.names_append_of_startsApart _ (startsApart_ofList (by decide)),
      Placeholder.names_append_of_endsApart (endsApart_append _ (endsApart_ofList (by decide))),
      Placeholder.names_of_no_dollar htrunc,
      Placeholder.names_of_no_dollar (noDollar_ofList (by decide)), List.nil_append,
      List.append_nil] at hx
    exact names_dayExpression ht plain_unqualified x hx

theorem mem_names_chartDraft {m : Metric} {t : Table} (hm : m.PlainTexts) (ht : t ∈ Table.all)
    (hname : t.name = m.table) (g : Granularity) (n : Headcount) (x : String) :
    x ∈ Placeholder.names (chartDraft m t g n).query.render ↔
      x ∈ (Scope.people t).names n ++ ["series_start", "series_end"] := by
  have hplain := Table.plainTexts_of_mem ht
  have hbucket := names_bucketExpression hplain g x
  have hseed : Placeholder.names seed = [] :=
    Placeholder.names_of_no_dollar (noDollar_ofList (by decide))
  have hnamed : Placeholder.names (bucketExpression t g ++ " AS bucket") =
      Placeholder.names (bucketExpression t g) := by
    rw [Placeholder.names_append_of_startsApart _ (startsApart_ofList (by decide)),
      Placeholder.names_of_no_dollar (noDollar_ofList (by decide)), List.append_nil]
  have haccount : "account_id" ∈ (Scope.people t).names n := by simp [Scope.names]
  rw [mem_names_query (madeOf_chartDraft hm hplain hname g n), List.flatMap_append,
    List.mem_append, mem_names_narrowed ht plain_unqualified, List.mem_append]
  simp only [chartTexts, List.flatMap_cons, List.flatMap_nil, names_seriesColumn, hseed, hnamed,
    List.append_nil, List.nil_append, List.mem_append]
  constructor
  · rintro ((h | h | h) | h)
    · exact .inr h
    · exact .inl (hbucket h ▸ haccount)
    · exact .inl (hbucket h ▸ haccount)
    · exact .inl h
  · rintro (h | h)
    · exact .inr h
    · exact .inl (.inl h)

end Plan

end Funnel
