import Funnel.Proofs.Catalog.Phrases
import Funnel.Proofs.Filter.Phrases
import Funnel.Proofs.Plan.Draft

/-!
# Plans as phrases

The query of a plain metric and a chart with its buckets are statements of the grammar, since their
fragments are what they are meant to be.
-/

set_option autoImplicit false

namespace Funnel

open Sql Standard

theorem Table.readable_name {t : Table} (ht : t ∈ all) : Readable .source t.name := by
  have hnames : ∀ t ∈ all, t.name ∈ Sql.names := by decide
  exact readable_source (hnames t ht)

theorem readable_sqlConditions {texts : List String} (h : ∀ s ∈ texts, Readable .condition s) :
    ∀ c ∈ sqlConditions texts, Readable .condition c.render := by
  intro c hc
  obtain ⟨s, hs, rfl⟩ := List.mem_map.mp hc
  exact h s hs

theorem phrased_simple {columns texts : List String} {source : String}
    (hcolumns : ∀ s ∈ columns, Readable .column s) (hsource : Readable .source source)
    (htexts : ∀ s ∈ texts, Readable .condition s) :
    Phrased columns source [] (sqlConditions texts) [] [] [] :=
  ⟨hcolumns, hsource, List.forall_mem_nil _, readable_sqlConditions htexts, List.forall_mem_nil _,
    List.forall_mem_nil _, List.forall_mem_nil _⟩

theorem readable_texts {t : Table} (ht : t ∈ Table.all) (narrowed : Bool) (n : Headcount) :
    ∀ s ∈ texts t none narrowed n, Readable .condition s :=
  readable_of_mem_texts (Table.legible_plain ht) narrowed n

/-- The columns of some keys under their names, and the keys as what rows are grouped by. -/
theorem readable_keys {keys : List (String × String)} (h : keys ⊆ Registry.personKeys) :
    (∀ s ∈ keys.map fun (c, n) => c ++ " AS " ++ n, Readable .column s) ∧
      ∀ s ∈ keys.map Prod.fst, Readable .value s := by
  constructor
  · intro s hs
    obtain ⟨p, hp, rfl⟩ := List.mem_map.mp hs
    exact (Registry.readable_parts.keyed _ (h hp)).2
  · intro s hs
    obtain ⟨p, hp, rfl⟩ := List.mem_map.mp hs
    exact (Registry.readable_parts.keyed _ (h hp)).1

namespace Plan

theorem readable_metricTexts {m : Metric} (hm : m.Legible) {t : Table} (ht : t ∈ Table.all)
    (n : Headcount) : ∀ s ∈ texts t none true n ++ m.conditions ++
      ownerConditions m.attribution none, Readable .condition s := by
  simp only [List.forall_mem_append]
  exact ⟨⟨readable_texts ht true n, hm.conditions⟩, readable_ownerConditions m.attribution⟩

theorem readable_plainDraft {m : Metric} (hm : m.Legible) {t : Table} (ht : t ∈ Table.all)
    (hname : t.name = m.table) (b : Breakdown) (n : Headcount) :
    Readable .rows (plainDraft m t b n).query.render := by
  have hconditions := readable_sqlConditions (readable_metricTexts hm ht n)
  have hsource : Readable .source m.table := hname ▸ Table.readable_name ht
  have hkeys := readable_keys (Table.keys_subset ht b)
  rw [plainDraft, shape]
  split
  · exact readable_rows ⟨hm.columns, hsource, List.forall_mem_nil _, hconditions, hm.groups,
      hm.having, hm.order⟩
  · refine readable_rows ⟨?_, hsource, List.forall_mem_nil _, hconditions, hkeys.2,
      List.forall_mem_nil _, ?_⟩
    · simp only [List.forall_mem_append, List.forall_mem_cons]
      exact ⟨hkeys.1, readable_valued hm.value, List.forall_mem_nil _⟩
    · split
      · exact List.forall_mem_nil _
      · simpa using Registry.readable_parts.byValue

theorem readable_truncated {s : String} (h : Readable .value s) (g : Granularity) :
    Readable .value ("date_trunc('" ++ g.text ++ "', " ++ s ++ ")::date") := by
  have hcall : Readable .value ("date_trunc('" ++ g.text ++ "', " ++ s ++ ")") := by
    cases g with
    | day => exact readable_call (show ("date_trunc('day', ", ")") ∈ calls by decide) h
    | week => exact readable_call (show ("date_trunc('week', ", ")") ∈ calls by decide) h
    | month => exact readable_call (show ("date_trunc('month', ", ")") ∈ calls by decide) h
  have hdate : Readable .value _ := .followed .date hcall
  rwa [String.append_assoc] at hdate

theorem readable_bucketExpression {t : Table} (ht : t ∈ Table.all) (g : Granularity) :
    Readable .value (bucketExpression t g) := by
  have hlocal : Readable .value g.localColumn := by
    cases g with
    | day => exact readable_column (n := "local_date") (by decide)
    | week => exact readable_column (n := "local_week") (by decide)
    | month => exact readable_column (n := "local_month") (by decide)
  unfold bucketExpression
  split
  · exact hlocal
  · exact readable_truncated (readable_dayExpression (Table.legible_plain ht)) g

theorem readable_series (g : Granularity) : Readable .column
    ("generate_series($series_start::date, $series_end::date, " ++ g.interval ++
      ")::date AS bucket") := by
  have hstart : Readable .value (("$" ++ "series_start") ++ "::date") :=
    .followed .date (readable_unknown (isPlaceholder_ofList (by decide)))
  have hend : Readable .value (("$" ++ "series_end") ++ "::date") :=
    .followed .date (readable_unknown (isPlaceholder_ofList (by decide)))
  have hinterval : Readable .duration g.interval := by
    cases g with
    | day => exact .fixed (.duration (s := "interval '1 day'") (by decide))
    | week => exact .fixed (.duration (s := "interval '1 week'") (by decide))
    | month => exact .fixed (.duration (s := "interval '1 month'") (by decide))
  have hsteps : Readable .steps _ := .between .steps (.between .ends hstart hend) hinterval
  have hseries : Readable .value _ := .followed .date (.around .series hsteps)
  have hcolumn := readable_aliased (n := "bucket") (.same .value hseries) (.inl (by decide))
  have htexts : "generate_series($series_start::date, $series_end::date, " =
      "generate_series(" ++ ("$" ++ "series_start" ++ "::date" ++ ", " ++
        ("$" ++ "series_end" ++ "::date") ++ ", ") ∧
      ")::date AS bucket" = ")" ++ "::date" ++ " AS " ++ "bucket" := by decide
  rw [htexts.1, htexts.2]
  simpa only [String.append_assoc] using hcolumn

theorem readable_bucketsQuery (g : Granularity) : Readable .rows (bucketsQuery g).render := by
  have hone : Readable .columns "1" := by
    have hlist : (.columns, .column, ", ") ∈ lists := by decide
    exact .same (.first hlist) (readable_output (.fixed (.constant (by decide))))
  have hseed : Readable .source ("(" ++ ("SELECT " ++ "1") ++ ")" ++ " AS " ++ "seed") :=
    .between .derived (.around .subquery (.same .sourceless (.led .select hone)))
      (readable_name (by decide))
  have hcolumns : ∀ s ∈ ["generate_series($series_start::date, $series_end::date, " ++
      g.interval ++ ")::date AS bucket"], Readable .column s := by
    simpa using readable_series g
  have hsource : Readable .source "(SELECT 1) AS seed" := hseed
  exact readable_rows (phrased_simple hcolumns hsource (List.forall_mem_nil _))

theorem readable_countedQuery {m : Metric} (hm : m.Legible) {t : Table} (ht : t ∈ Table.all)
    (hname : t.name = m.table) (g : Granularity) {conditions : List Condition}
    (hconditions : ∀ c ∈ conditions, Readable .condition c.render) :
    Readable .rows (countedQuery m t g conditions).render := by
  have hsource : Readable .source m.table := hname ▸ Table.readable_name ht
  have hbucket := readable_bucketExpression ht g
  have haliased := readable_aliased (n := "bucket") (.same .value hbucket) (.inl (by decide))
  rw [String.append_assoc] at haliased
  refine readable_rows ⟨?_, hsource, List.forall_mem_nil _, hconditions, ?_,
    List.forall_mem_nil _, List.forall_mem_nil _⟩
  · simp only [List.forall_mem_cons]
    exact ⟨haliased, readable_valued hm.value, List.forall_mem_nil _⟩
  · simpa using hbucket

theorem readable_shownDay : Readable .column "to_char(b.bucket, 'YYYY-MM-DD') AS date" := by
  have hbucket : Readable .value ("b" ++ "." ++ "bucket") :=
    readable_member (by decide) (by decide)
  have hshown : Readable .value ("to_char(" ++ ("b" ++ "." ++ "bucket") ++ ", 'YYYY-MM-DD')") :=
    readable_call (by decide) hbucket
  exact readable_aliased (n := "date") (.same .value hshown) (.inr (by decide))

theorem readable_chartQuery {m : Metric} (hm : m.Legible) {t : Table} (ht : t ∈ Table.all)
    (hname : t.name = m.table) (g : Granularity) {conditions : List Condition}
    (hconditions : ∀ c ∈ conditions, Readable .condition c.render) :
    Readable .statement (chartQuery m t g conditions).render := by
  have hvalue : Readable .value ("agg" ++ "." ++ "value") :=
    readable_member (by decide) (by decide)
  have hbucket : Readable .value ("b" ++ "." ++ "bucket") :=
    readable_member (by decide) (by decide)
  have hcounted : Readable .value ("agg" ++ "." ++ "bucket") :=
    readable_member (by decide) (by decide)
  have hon : Readable .condition (("agg" ++ "." ++ "bucket") ++ " = " ++ ("b" ++ "." ++ "bucket")) :=
    readable_equals hcounted hbucket
  have hshown : Readable .column ((if m.gapWhenEmpty then "agg.value" else
      "COALESCE(agg.value, 0)") ++ " AS value") := by
    split
    · exact readable_valued hvalue
    · exact readable_valued (Registry.readable_orZero hvalue)
  have hjoin : Readable .join (Join.render ⟨"agg", "agg.bucket = b.bucket", some "LEFT"⟩) :=
    readable_join (by decide) (readable_source (by decide)) hon.conjunction
  have hsource : Readable .source ("buckets" ++ " " ++ "b") :=
    readable_renamed (by decide) (by decide)
  refine readable_statement ⟨?_, hsource, ?_, List.forall_mem_nil _,
    List.forall_mem_nil _, List.forall_mem_nil _, ?_⟩ ?_
  · simp only [List.forall_mem_cons]
    exact ⟨readable_shownDay, hshown, List.forall_mem_nil _⟩
  · exact List.forall_mem_singleton.mpr hjoin
  · exact List.forall_mem_singleton.mpr (.same .order hbucket)
  · simp only [List.forall_mem_cons]
    refine ⟨?_, ?_, List.forall_mem_nil _⟩
    · exact readable_cte (by decide) (readable_bucketsQuery g)
    · exact readable_cte (by decide) (readable_countedQuery hm ht hname g hconditions)

end Plan

end Funnel
