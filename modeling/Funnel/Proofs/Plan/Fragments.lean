import Funnel.Proofs.Catalog.Texts
import Funnel.Proofs.Plan.Draft
import Funnel.Proofs.Query.Tenancy

/-!
# The fragments of planned queries

Of every query that is planned it is told which of its fragments may hold parameters. All the others
are plain, so that nothing has to be known of a query but these few texts.
-/

set_option autoImplicit false

namespace Funnel

open Fragment Standard

/-- A query whose fragments are some texts, all of them, and otherwise plain. -/
structure Select.MadeOf (q : Select) (texts : List String) : Prop where
  only : ∀ s ∈ q.fragments, s ∈ texts ∨ Plain s
  all : ∀ s ∈ texts, s ∈ q.fragments

namespace Select

theorem mem_fragments {columns : List String} {source : String} {joins : List Join}
    {cs groups having order : List String} {ctes : List Cte} {s : String} :
    s ∈ (Select.mk columns source joins (sqlConditions cs) groups having order ctes).fragments ↔
      s ∈ cs ∨ s ∈ fragmentsOfCtes ctes ∨ s ∈ joins.flatMap Join.fragments ∨
        s ∈ columns ++ source :: (groups ++ having ++ order) := by
  rw [fragments, fragmentsOfConditions_sqlConditions]
  simp only [List.mem_append, List.mem_cons, List.not_mem_nil, or_false]
  grind

/-- The placeholders of a query are those of the texts it is made of. -/
theorem MadeOf.mem_names_iff {q : Select} {texts : List String} (h : q.MadeOf texts)
    {n : String} : n ∈ Placeholder.names q.render ↔ ∃ s ∈ texts, n ∈ Placeholder.names s := by
  rw [flatMap_fragments_select Placeholder.splits_names, List.mem_flatMap]
  constructor
  · rintro ⟨s, hs, hn⟩
    rcases h.only s hs with hs | hs
    · exact ⟨s, hs, hn⟩
    · simp [hs.names_eq_nil] at hn
  · rintro ⟨s, hs, hn⟩
    exact ⟨s, h.all s hs, hn⟩

/-- A query without joins and inner queries: among its conditions are some texts, and all else is
plain. -/
theorem madeOf_flat {columns : List String} {source : String} {texts more groups having order :
    List String} (hmore : ∀ s ∈ more, Plain s)
    (hplain : ∀ s ∈ columns ++ source :: (groups ++ having ++ order), Plain s) :
    (Select.mk columns source [] (sqlConditions (texts ++ more)) groups having order []).MadeOf
      texts where
  only := by
    intro s hs
    rcases mem_fragments.mp hs with hs | hs | hs | hs
    · exact (List.mem_append.mp hs).imp_right (hmore s)
    · cases hs
    · cases hs
    · exact .inr (hplain s hs)
  all := fun s hs => mem_fragments.mpr (.inl (List.mem_append_left more hs))

theorem madeOf_joined {columns : List String} {source : String} {j : Join}
    {texts groups : List String} (hplain : ∀ s ∈ columns ++ source :: (groups ++ [] ++ []), Plain s)
    (hjoin : ∀ s ∈ j.kind.toList ++ [j.table], Plain s) :
    (Select.mk columns source [j] (sqlConditions texts) groups [] [] []).MadeOf
      (texts ++ [j.on]) where
  only := by
    intro s hs
    rcases mem_fragments.mp hs with hs | hs | hs | hs
    · exact .inl (List.mem_append_left _ hs)
    · cases hs
    · rw [List.flatMap_singleton, Join.fragments] at hs
      rcases List.mem_append.mp hs with hs | hs
      · exact .inr (hjoin s (List.mem_append_left _ hs))
      · rcases List.mem_cons.mp hs with rfl | hs
        · exact .inr (hjoin _ (List.mem_append_right _ (List.mem_singleton_self _)))
        · exact .inl (List.mem_append_right _ hs)
    · exact .inr (hplain s hs)
  all := by
    intro s hs
    rcases List.mem_append.mp hs with hs | hs
    · exact mem_fragments.mpr (.inl hs)
    · refine mem_fragments.mpr (.inr (.inr (.inl ?_)))
      rw [List.flatMap_singleton, Join.fragments, List.mem_singleton.mp hs]
      simp

theorem madeOf_ctes {columns : List String} {source : String} {joins : List Join}
    {order : List String} {first second : String} {p q : Select} {texts more : List String}
    (hp : p.MadeOf texts) (hq : q.MadeOf more)
    (hplain : ∀ s ∈ joins.flatMap Join.fragments ++ (columns ++ source :: ([] ++ [] ++ order)),
      Plain s)
    (hnames : Plain first ∧ Plain second) :
    (Select.mk columns source joins [] [] [] order
      [.mk first (.one p), .mk second (.one q)]).MadeOf (texts ++ more) := by
  have hctes : ∀ s, s ∈ fragmentsOfCtes [.mk first (.one p), .mk second (.one q)] ↔
      s = first ∨ s ∈ p.fragments ∨ s = second ∨ s ∈ q.fragments := by
    intro s
    simp only [fragmentsOfCtes, Cte.fragments, CteBody.fragments, List.append_nil,
      List.cons_append, List.mem_append, List.mem_cons]
  have hmem : ∀ s, _ ↔ _ := fun s => @mem_fragments columns source joins [] [] [] order
    [.mk first (.one p), .mk second (.one q)] s
  constructor
  · intro s hs
    rcases (hmem s).mp hs with hs | hs | hs | hs
    · cases hs
    · rcases (hctes s).mp hs with rfl | hs | rfl | hs
      · exact .inr hnames.1
      · exact (hp.only s hs).imp_left (List.mem_append_left _)
      · exact .inr hnames.2
      · exact (hq.only s hs).imp_left (List.mem_append_right _)
    · exact .inr (hplain s (List.mem_append_left _ hs))
    · exact .inr (hplain s (List.mem_append_right _ hs))
  · intro s hs
    refine (hmem s).mpr (.inr (.inl ((hctes s).mpr ?_)))
    rcases List.mem_append.mp hs with hs | hs
    · exact .inr (.inl (hp.all s hs))
    · exact .inr (.inr (.inr (hq.all s hs)))

end Select

open Select

namespace Plan

theorem plain_conditions {m : Metric} (hm : m.PlainTexts) :
    ∀ s ∈ m.conditions ++ ownerConditions m.attribution none, Plain s := by
  intro s hs
  rcases List.mem_append.mp hs with hs | hs
  · exact hm.conditions s hs
  · exact plain_ownerConditions m.attribution s hs

theorem madeOf_plainDraft {m : Metric} {t : Table} (hm : m.PlainTexts) (ht : t.PlainTexts)
    (hname : t.name = m.table) (b : Breakdown) (n : Headcount) :
    (plainDraft m t b n).query.MadeOf (texts t none true n) := by
  have hsource : Plain m.table := hname ▸ ht.name
  rw [plainDraft, shape, List.append_assoc]
  split
  · refine madeOf_flat (plain_conditions hm) ?_
    simp only [List.forall_mem_append, List.forall_mem_cons]
    exact ⟨hm.columns, hsource, ⟨hm.groups, hm.having⟩, hm.order⟩
  · have hkeys := ht.keys b
    have horder : ∀ s ∈ if (t.keys b).isEmpty then [] else ["value DESC"], Plain s := by
      split
      · exact List.forall_mem_nil _
      · simpa using Registry.plain_parts.byValue
    refine madeOf_flat (plain_conditions hm) ?_
    simp only [List.forall_mem_append, List.forall_mem_cons]
    refine ⟨⟨?_, ?_, List.forall_mem_nil _⟩, hsource, ⟨?_, List.forall_mem_nil _⟩, horder⟩
    · intro s hs
      obtain ⟨p, hp, rfl⟩ := List.mem_map.mp hs
      exact plain_named (hkeys p hp).1 (hkeys p hp).2
    · exact plain_valued hm.value
    · intro s hs
      obtain ⟨p, hp, rfl⟩ := List.mem_map.mp hs
      exact (hkeys p hp).1

def seriesColumn (g : Granularity) : String :=
  "generate_series($series_start::date, $series_end::date, " ++ g.interval ++ ")::date AS bucket"

/-- The texts of a chart that are its own: the buckets of the range and those of the rows. -/
def chartTexts (t : Table) (g : Granularity) : List String :=
  [seriesColumn g, seed, bucketExpression t g ++ " AS bucket", bucketExpression t g]

theorem madeOf_bucketsQuery (g : Granularity) : (bucketsQuery g).MadeOf [seriesColumn g, seed] :=
  ⟨fun _ hs => .inl hs, fun _ hs => hs⟩

theorem madeOf_countedQuery {m : Metric} {t : Table} (hm : m.PlainTexts) (hsource : Plain m.table)
    (g : Granularity) {texts more : List String} (hmore : ∀ s ∈ more, Plain s) :
    (countedQuery m t g (sqlConditions (texts ++ more))).MadeOf
      ([bucketExpression t g ++ " AS bucket", bucketExpression t g] ++ texts) := by
  constructor
  · intro s hs
    rcases mem_fragments.mp hs with hs | hs | hs | hs
    · exact (List.mem_append.mp hs).imp (List.mem_append_right _) (hmore s)
    · cases hs
    · cases hs
    · simp only [List.cons_append, List.nil_append, List.mem_cons, List.not_mem_nil,
        or_false] at hs
      rcases hs with rfl | rfl | rfl | rfl
      · exact .inl List.mem_cons_self
      · exact .inr (plain_valued hm.value)
      · exact .inr hsource
      · exact .inl (List.mem_cons_of_mem _ List.mem_cons_self)
  · intro s hs
    rcases List.mem_append.mp hs with hs | hs
    · simp only [List.mem_cons, List.not_mem_nil, or_false] at hs
      refine mem_fragments.mpr (.inr (.inr (.inr ?_)))
      rcases hs with rfl | rfl
      · exact List.mem_append_left _ List.mem_cons_self
      · simp
    · exact mem_fragments.mpr (.inl (List.mem_append_left _ hs))

theorem madeOf_chartDraft {m : Metric} {t : Table} (hm : m.PlainTexts) (ht : t.PlainTexts)
    (hname : t.name = m.table) (g : Granularity) (n : Headcount) :
    (chartDraft m t g n).query.MadeOf (chartTexts t g ++ texts t none true n) := by
  have hvalue : Plain (if m.gapWhenEmpty then "agg.value" else "COALESCE(agg.value, 0)") := by
    split
    · exact plain_ofList (by decide)
    · exact plain_ofList (by decide)
  have hcounted : (countedQuery m t g (sqlConditions (texts t none true n ++
      (m.conditions ++ ownerConditions m.attribution none)))).MadeOf _ :=
    madeOf_countedQuery hm (hname ▸ ht.name) g (plain_conditions hm)
  rw [← List.append_assoc] at hcounted
  change (chartDraft m t g n).query.MadeOf ([seriesColumn g, seed] ++
    ([bucketExpression t g ++ " AS bucket", bucketExpression t g] ++ texts t none true n))
  refine madeOf_ctes (madeOf_bucketsQuery g) hcounted ?_
    ⟨plain_ofList (by decide), plain_ofList (by decide)⟩
  simp only [List.flatMap_cons, List.flatMap_nil, Join.fragments, Option.toList_some,
    List.append_nil, List.nil_append, List.cons_append, List.forall_mem_cons]
  exact ⟨plain_ofList (by decide), plain_ofList (by decide), plain_ofList (by decide),
    plain_ofList (by decide), plain_valued hvalue, plain_ofList (by decide),
    plain_ofList (by decide), List.forall_mem_nil _⟩

theorem madeOf_sumSelect {t : Table} (ht : t.PlainTexts) {expression : String}
    (h : Plain expression) (texts : List String) :
    (sumSelect t expression texts).MadeOf texts := by
  have := @madeOf_flat [expression ++ " AS value"] t.name texts [] [] [] [] (List.forall_mem_nil _)
    (by simpa using ⟨plain_valued h, ht.name⟩)
  rwa [List.append_nil] at this

theorem plain_appointments : Plain "appointments" := plain_ofList (by decide)

theorem madeOf_repStatsSelect (texts : List String) :
    (repStatsSelect texts).MadeOf texts := by
  refine madeOf_flat ?_ ?_
  · simpa using plain_ofList (by decide)
  · simp only [List.cons_append, List.nil_append, List.forall_mem_cons]
    exact ⟨plain_ofList (by decide), plain_ofList (by decide), plain_ofList (by decide),
      plain_appointments, plain_repColumn, List.forall_mem_nil _⟩

theorem plain_isNotNull {c : String} (h : Plain c) : Plain (c ++ " IS NOT NULL") :=
  plain_append_of_startsApart h (plain_ofList (by decide)) (startsApart_ofList (by decide))

theorem madeOf_entitiesSelect {keys : List (String × String)}
    (hkeys : ∀ p ∈ keys, Plain p.1 ∧ Plain p.2) (texts : List String) :
    (entitiesSelect keys texts).MadeOf texts := by
  refine madeOf_flat ?_ ?_
  · intro s hs
    obtain ⟨p, hp, rfl⟩ := List.mem_map.mp hs
    exact plain_isNotNull (hkeys p hp).1
  · simp only [List.forall_mem_append, List.forall_mem_cons]
    refine ⟨⟨?_, plain_ofList (by decide), List.forall_mem_nil _⟩, plain_appointments,
      ⟨?_, List.forall_mem_nil _⟩, plain_ofList (by decide), List.forall_mem_nil _⟩
    · intro s hs
      obtain ⟨p, hp, rfl⟩ := List.mem_map.mp hs
      exact plain_named (hkeys p hp).1 (hkeys p hp).2
    · intro s hs
      obtain ⟨p, hp, rfl⟩ := List.mem_map.mp hs
      exact (hkeys p hp).1

def pairsOn (dialers : List String) : String :=
  " AND ".intercalate
    (["d.contact_id = c.id", "d.account_id = c.account_id", "d.date_called >= c.ghl_created_at"] ++
      dialers)

theorem madeOf_pairsSelect (leads dialers : List String) :
    (pairsSelect leads dialers).MadeOf (leads ++ [pairsOn dialers]) := by
  refine madeOf_joined ?_ ?_
  · simp only [List.append_nil, List.cons_append, List.nil_append, List.forall_mem_cons]
    exact ⟨plain_ofList (by decide), plain_ofList (by decide), plain_ofList (by decide),
      plain_ofList (by decide), plain_ofList (by decide), plain_ofList (by decide),
      plain_ofList (by decide), plain_ofList (by decide), List.forall_mem_nil _⟩
  · simp only [Option.toList_some, List.cons_append, List.nil_append, List.forall_mem_cons]
    exact ⟨plain_ofList (by decide), plain_ofList (by decide), List.forall_mem_nil _⟩

def conversionOn (owners : List String) : String :=
  " AND ".intercalate (["a.contact_id = c.id", "a.account_id = c.account_id"] ++ owners)

theorem madeOf_conversionSelect (leads owners : List String) :
    (conversionSelect leads owners).MadeOf (leads ++ [conversionOn owners]) := by
  have hshare : Plain
      "COALESCE(COUNT(DISTINCT a.contact_id)::numeric / NULLIF(COUNT(DISTINCT c.id), 0), 0) " :=
    plain_ofList (by decide)
  have hvalue := plain_append_of_endsApart (b := "AS value") hshare (plain_ofList (by decide))
    (endsApart_ofList (by decide))
  refine madeOf_joined ?_ ?_
  · simp only [List.append_nil, List.cons_append, List.nil_append, List.forall_mem_cons]
    exact ⟨hvalue, plain_ofList (by decide), List.forall_mem_nil _⟩
  · simp only [Option.toList_some, List.cons_append, List.nil_append, List.forall_mem_cons]
    exact ⟨plain_ofList (by decide), plain_ofList (by decide), List.forall_mem_nil _⟩

theorem madeOf_assignedSelect {t : Table} (ht : t.PlainTexts) {columns more : List String}
    (hcolumns : ∀ s ∈ columns, Plain s) (hmore : ∀ s ∈ more, Plain s) (texts : List String) :
    (assignedSelect t columns more texts).MadeOf texts := by
  rw [assignedSelect, Select.simple, List.append_assoc]
  refine madeOf_flat ?_ ?_
  · simp only [List.forall_mem_append, List.forall_mem_cons]
    exact ⟨⟨plain_isNotNull plain_repColumn, List.forall_mem_nil _⟩, hmore⟩
  · simp only [List.forall_mem_append, List.forall_mem_cons]
    exact ⟨hcolumns, ht.name, ⟨List.forall_mem_nil _, List.forall_mem_nil _⟩, List.forall_mem_nil _⟩

/-- The records that a figure is made of are taken from both tables. -/
theorem madeOf_recordsSelect {columns more conditions : List String} {value : String}
    (hcolumns : ∀ s ∈ columns, Plain s) (hmore : ∀ s ∈ more, Plain s) (hvalue : Plain value)
    (hconditions : ∀ s ∈ conditions, Plain s) (appointments discoveries : List String) :
    (Select.mk [value ++ " AS value"] "records" [] (sqlConditions conditions) [] [] []
      [recordsCte columns more appointments discoveries]).MadeOf (appointments ++ discoveries) := by
  have hleft := madeOf_assignedSelect (Table.plainTexts_of_mem (t := .appointments) (by decide))
    hcolumns hmore appointments
  have hright := madeOf_assignedSelect (Table.plainTexts_of_mem (t := .discoveries) (by decide))
    hcolumns hmore discoveries
  have hrecords : Plain "records" := plain_ofList (by decide)
  have hctes : ∀ s, s ∈ fragmentsOfCtes [recordsCte columns more appointments discoveries] ↔
      s = "records" ∨ s ∈ (assignedSelect .appointments columns more appointments).fragments ∨
        s ∈ (assignedSelect .discoveries columns more discoveries).fragments := by
    intro s
    simp only [recordsCte, fragmentsOfCtes, Cte.fragments, CteBody.fragments, fragmentsOfSelects,
      List.append_nil, List.mem_append, List.mem_cons]
  constructor
  · intro s hs
    rcases mem_fragments.mp hs with hs | hs | hs | hs
    · exact .inr (hconditions s hs)
    · rcases (hctes s).mp hs with rfl | hs | hs
      · exact .inr hrecords
      · exact (hleft.only s hs).imp_left (List.mem_append_left _)
      · exact (hright.only s hs).imp_left (List.mem_append_right _)
    · cases hs
    · simp only [List.cons_append, List.nil_append, List.mem_cons, List.not_mem_nil,
        or_false] at hs
      rcases hs with rfl | rfl
      · exact .inr (plain_valued hvalue)
      · exact .inr hrecords
  · intro s hs
    refine mem_fragments.mpr (.inr (.inl ((hctes s).mpr (.inr ?_))))
    rcases List.mem_append.mp hs with hs | hs
    · exact .inl (hleft.all s hs)
    · exact .inr (hright.all s hs)

theorem plain_overdueValue (formula : Formula) : Plain (overdueValue formula) := by
  have hcount : Plain ("COUNT(*) FILTER (WHERE " ++ overdue ++ ")") :=
    plain_insert (quiet_ofList (by decide)) (plain_ofList (by decide)) (quiet_ofList (by decide))
      (endsApart_ofList (by decide)) (startsApart_ofList (by decide)) (by rfl)
      ⟨noDollar_ofList (by decide), noDollar_ofList (by decide)⟩
  unfold overdueValue
  split
  · exact plain_insert (quiet_ofList (by decide)) hcount (quiet_ofList (by decide))
      (endsApart_ofList (by decide)) (startsApart_ofList (by decide)) (by rfl)
      ⟨noDollar_ofList (by decide), noDollar_ofList (by decide)⟩
  · exact hcount

theorem madeOf_dialsSelect (texts : List String) : (dialsSelect texts).MadeOf texts := by
  have := @madeOf_flat ["COUNT(*) AS value"] "dials d" texts [] [] [] [] (List.forall_mem_nil _) (by
    simp only [List.append_nil, List.cons_append, List.nil_append, List.forall_mem_cons]
    exact ⟨plain_ofList (by decide), plain_ofList (by decide), List.forall_mem_nil _⟩)
  rwa [List.append_nil] at this

theorem madeOf_bookedSelect (texts : List String) : (bookedSelect texts).MadeOf texts := by
  refine madeOf_flat ?_ ?_
  · simpa using plain_ofList (by decide)
  · simp only [List.append_nil, List.cons_append, List.nil_append, List.forall_mem_cons]
    exact ⟨plain_ofList (by decide), plain_ofList (by decide), List.forall_mem_nil _⟩

theorem madeOf_cashSelect (texts : List String) :
    (cashSelect texts).MadeOf ("a.account_id = $account_id" :: texts) := by
  have hinner := madeOf_bookedSelect texts
  have hmem : ∀ s, s ∈ (cashSelect texts).fragments ↔
      s = "COALESCE(SUM(a.cash_collected), 0) AS value" ∨ s = "appointments a" ∨
        s = "a.account_id = $account_id" ∨ s = "a.id" ∨ s ∈ (bookedSelect texts).fragments := by
    intro s
    simp only [cashSelect, Select.simple, fragments, fragmentsOfCtes, fragmentsOfConditions,
      Condition.fragments, List.flatMap_nil, List.append_nil, List.nil_append, List.cons_append,
      List.mem_cons]
  constructor
  · intro s hs
    rcases (hmem s).mp hs with rfl | rfl | rfl | rfl | hs
    · exact .inr (plain_ofList (by decide))
    · exact .inr (plain_ofList (by decide))
    · exact .inl List.mem_cons_self
    · exact .inr (plain_ofList (by decide))
    · exact (hinner.only s hs).imp_left (List.mem_cons_of_mem _)
  · intro s hs
    rcases List.mem_cons.mp hs with rfl | hs
    · exact (hmem _).mpr (.inr (.inr (.inl rfl)))
    · exact (hmem s).mpr (.inr (.inr (.inr (.inr (hinner.all s hs)))))

theorem madeOf_leadTimesSelect (texts : List String) :
    (leadTimesSelect texts).MadeOf texts := by
  refine madeOf_flat ?_ ?_
  · simp only [List.forall_mem_cons]
    exact ⟨plain_ofList (by decide), plain_ofList (by decide), List.forall_mem_nil _⟩
  · simp only [List.append_nil, List.cons_append, List.nil_append, List.forall_mem_cons]
    exact ⟨plain_ofList (by decide), plain_appointments, List.forall_mem_nil _⟩

theorem madeOf_accountDraft : accountDraft.query.MadeOf ["id = $account_id"] := by
  refine @madeOf_flat ["business_timezone", "business_hours"] "accounts" ["id = $account_id"] []
    [] [] [] (List.forall_mem_nil _) ?_
  simp only [List.append_nil, List.cons_append, List.nil_append, List.forall_mem_cons]
  exact ⟨plain_ofList (by decide), plain_ofList (by decide), plain_ofList (by decide),
    List.forall_mem_nil _⟩

end Plan

end Funnel
