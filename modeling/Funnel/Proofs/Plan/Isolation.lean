import Funnel.Proofs.Plan.Fragments

/-!
# Planned queries read one account only

Each query that is planned, for whatever metric, breakdown and people, holds every table of the
catalog that it reads to the account of the request.
-/

set_option autoImplicit false

namespace Funnel

open Fragment Standard

namespace Select

theorem selects_flat (columns : List String) (source : String) (joins : List Join)
    (texts groups having order : List String) :
    (Select.mk columns source joins (sqlConditions texts) groups having order []).selects =
      [.mk columns source joins (sqlConditions texts) groups having order []] := by
  rw [selects, selectsOfCtes, selectsOfConditions_sqlConditions]
  rfl

theorem isolated_of_madeOf {q : Select} {texts : List String} (h : q.MadeOf texts)
    (htexts : ∀ s ∈ texts, s = seed ∨ Modest s)
    (hselects : ∀ p ∈ q.selects, p.Restricted (q.ctes.map Cte.name)) : q.Isolated where
  selects := hselects
  fragments := by
    intro s hs
    rcases h.only s hs with hs | hs
    · exact htexts s hs
    · exact .inr hs.modest

/-- One table of the catalog, held to the account by a conjunct. -/
theorem restricted_flat {columns : List String} {source : String} {r : Reading}
    {texts groups having order : List String} (hr : Reading.ofText source = r)
    (ht : r.table ∈ tenantTables)
    (haccount : equality (qualify "account_id" r.qualifier) "account_id" ∈ texts)
    (htexts : ∀ s ∈ texts, Conjunct s) (names : List String) :
    (Select.mk columns source [] (sqlConditions texts) groups having order []).Restricted
      names := by
  subst hr
  have hconjuncts : ∀ s ∈ (Select.mk columns source [] (sqlConditions texts) groups having order
      []).conjuncts, Conjunct s := by
    rw [conjuncts_mk_sqlConditions]
    exact htexts
  have hholds : (Select.mk columns source [] (sqlConditions texts) groups having order []).Holds
      (Reading.ofText source) "account_id" := by
    rw [Holds, conjuncts_mk_sqlConditions]
    exact haccount
  exact restricted_of_holds rfl hconjuncts ht hholds names

theorem isolated_flat {columns : List String} {source : String} {r : Reading}
    {texts cs groups having order : List String} (hr : Reading.ofText source = r)
    (ht : r.table ∈ tenantTables)
    (haccount : equality (qualify "account_id" r.qualifier) "account_id" ∈ cs)
    (hcs : ∀ s ∈ cs, Conjunct s) (htexts : ∀ s ∈ texts, Modest s)
    (hmade : (Select.mk columns source [] (sqlConditions cs) groups having order []).MadeOf
      texts) :
    (Select.mk columns source [] (sqlConditions cs) groups having order []).Isolated := by
  refine isolated_of_madeOf hmade (fun s hs => .inr (htexts s hs)) ?_
  rw [selects_flat]
  intro p hp
  rw [List.mem_singleton.mp hp]
  exact restricted_flat hr ht haccount hcs _

/-- Two tables of the catalog, the first held to the account by a conjunct and the second joined on
the account of the first. -/
theorem restricted_joined {columns : List String} {source : String} {j : Join} {r u : Reading}
    {texts on groups : List String} (hr : Reading.ofText source = r)
    (hu : Reading.ofText j.table = u) (ht : r.table ∈ tenantTables ∧ u.table ∈ tenantTables)
    (hapart : r.qualifier ≠ u.qualifier)
    (haccount : equality (qualify "account_id" r.qualifier) "account_id" ∈ texts)
    (htexts : ∀ s ∈ texts, Conjunct s) (hkind : j.kind ∈ [none, some "INNER", some "LEFT"])
    (hon : j.on = " AND ".intercalate on) (hons : ∀ s ∈ on, Conjunct s)
    (hsame : qualify "account_id" u.qualifier ++ " = " ++ qualify "account_id" r.qualifier ∈ on)
    (names : List String) :
    (Select.mk columns source [j] (sqlConditions texts) groups [] [] []).Restricted names := by
  subst hr hu
  have hholds : (Select.mk columns source [j] (sqlConditions texts) groups [] [] []).Holds
      (Reading.ofText source) "account_id" := by
    rw [Holds, conjuncts_mk_sqlConditions]
    exact haccount
  constructor
  · rw [conjuncts_mk_sqlConditions]
    exact htexts
  · simpa [readings, Select.source, Select.joins] using hapart
  · exact .of_tenant ht.1 (.inl hholds)
  · intro k hk
    rw [List.mem_singleton.mp hk]
    exact .of_tenant ht.2 (.inr ⟨hkind, _, List.mem_cons_self, hholds, on, hon, hons, hsame⟩)
  · intro s hs
    simp only [Select.source, Select.joins, List.map_cons, List.map_nil, List.mem_cons,
      List.not_mem_nil, or_false] at hs
    rcases hs with rfl | rfl
    · exact .inr (List.mem_append_left _ (List.mem_append_left _ ht.1))
    · exact .inr (List.mem_append_left _ (List.mem_append_left _ ht.2))

end Select

open Select

namespace Standard

theorem plain_qualifier {a : String} (h : Plain a) : ∀ b ∈ some a, Plain b := by simpa using h

theorem plain_leads : ∀ a ∈ some "c", Plain a := plain_qualifier (plain_ofList (by decide))

theorem plain_dialers : ∀ a ∈ some "d", Plain a := plain_qualifier (plain_ofList (by decide))

theorem plain_owners : ∀ a ∈ some "a", Plain a := plain_qualifier (plain_ofList (by decide))

theorem conjunct_of_mem {texts more : List String} (htexts : ∀ s ∈ texts, Narrows s)
    (hmore : ∀ s ∈ more, Plain s) : ∀ s ∈ texts ++ more, Conjunct s := by
  intro s hs
  rcases List.mem_append.mp hs with hs | hs
  · exact (htexts s hs).1
  · exact (hmore s hs).conjunct

end Standard

namespace Plan

theorem isolated_plainDraft {m : Metric} {t : Table} (hm : m.PlainTexts) (ht : t ∈ Table.all)
    (hname : t.name = m.table) (b : Breakdown) (n : Headcount) :
    (plainDraft m t b n).query.Isolated := by
  have hplain := Table.plainTexts_of_mem ht
  have hnarrow := narrows_of_mem_texts hplain plain_unqualified true n
  have hmade := madeOf_plainDraft hm hplain hname b n
  have hreading : Reading.ofText m.table = ⟨t.name, none⟩ := hname ▸ ofText_name ht
  have hconjuncts := conjunct_of_mem hnarrow (plain_conditions hm)
  have haccount := List.mem_append_left (m.conditions ++ ownerConditions m.attribution none)
    (account_mem_texts t none true n)
  rw [plainDraft, shape, List.append_assoc] at hmade ⊢
  split at hmade
  · rename_i hb
    rw [if_pos hb]
    exact isolated_flat hreading (name_mem_tenantTables ht) haccount hconjuncts
      (fun s hs => (hnarrow s hs).2) hmade
  · rename_i hb
    rw [if_neg hb]
    exact isolated_flat hreading (name_mem_tenantTables ht) haccount hconjuncts
      (fun s hs => (hnarrow s hs).2) hmade

theorem plain_granularity (g : Granularity) : Plain g.text := by
  cases g <;> exact plain_ofList (by decide)

theorem plain_localColumn (g : Granularity) : Plain g.localColumn := by
  cases g <;> exact plain_ofList (by decide)

theorem quiet_interval (g : Granularity) : Quiet g.interval :=
  quiet_insert (quiet_ofList (by decide)) (plain_granularity g).toQuiet (quiet_ofList (by decide))
    (endsApart_ofList (by decide)) (startsApart_ofList (by decide))

theorem modest_bucketExpression {t : Table} (ht : t.PlainTexts) (g : Granularity) :
    Modest (bucketExpression t g) := by
  have hday := narrows_dayExpression ht plain_unqualified
  have htrunc : Quiet ("date_trunc('" ++ g.text ++ "', ") :=
    quiet_insert (quiet_ofList (by decide)) (plain_granularity g).toQuiet
      (quiet_ofList (by decide)) (endsApart_ofList (by decide)) (startsApart_ofList (by decide))
  unfold bucketExpression
  split
  · exact (plain_localColumn g).modest
  · refine modest_append (append_modest htrunc.noSelect ?_ hday.2)
      (lacksSelect_ofList (by decide)) ?_
    · exact endsApart_append _ (endsApart_ofList (by decide))
    · exact startsApart_ofList (by decide)

theorem modest_chartTexts {t : Table} (ht : t.PlainTexts) (g : Granularity) :
    ∀ s ∈ chartTexts t g, s = seed ∨ Modest s := by
  have hbucket := modest_bucketExpression ht g
  have hseries : Quiet (seriesColumn g) :=
    quiet_insert (quiet_ofList (by decide)) (quiet_interval g) (quiet_ofList (by decide))
      (endsApart_ofList (by decide)) (startsApart_ofList (by decide))
  have hnamed : Modest (bucketExpression t g ++ " AS bucket") :=
    modest_append hbucket (lacksSelect_ofList (by decide)) (startsApart_ofList (by decide))
  intro s hs
  simp only [chartTexts, List.mem_cons, List.not_mem_nil, or_false] at hs
  rcases hs with rfl | rfl | rfl | rfl
  · exact .inr (.inl hseries.noSelect)
  · exact .inl rfl
  · exact .inr hnamed
  · exact .inr hbucket

/-- The buckets are made from nothing, whatever they can be read by. -/
theorem restricted_bucketsQuery (g : Granularity) (names : List String) :
    (bucketsQuery g).Restricted names := by
  have hseed : Reading.ofText seed = ⟨"(SELECT", some "1) AS seed"⟩ := ofText_ofList _
  have hsource : (bucketsQuery g).source = seed := rfl
  refine restricted_of_guards rfl (List.forall_mem_nil _) ?_ (.inl rfl)
  rw [hsource, hseed]
  exact .of_other (by decide) _

theorem restricted_chartQuery (m : Metric) (t : Table) (g : Granularity)
    (conditions : List Condition) :
    (chartQuery m t g conditions).Restricted ["buckets", "agg"] := by
  have hbuckets : Reading.ofText "buckets b" = ⟨"buckets", some "b"⟩ := ofText_ofList _
  have hagg : Reading.ofText "agg" = ⟨"agg", none⟩ := ofText_ofList _
  have hsource : (chartQuery m t g conditions).source = "buckets b" := rfl
  have hjoins : (chartQuery m t g conditions).joins =
      [⟨"agg", "agg.bucket = b.bucket", some "LEFT"⟩] := rfl
  constructor
  · exact List.forall_mem_nil _
  · simp [readings, hsource, hjoins, hbuckets, hagg]
  · rw [hsource, hbuckets]
    exact .of_other (by decide) _
  · rw [hjoins]
    intro j hj
    rw [List.mem_singleton.mp hj, hagg]
    exact .of_other (by decide) _
  · rw [hsource, hjoins]
    intro s hs
    simp only [List.map_cons, List.map_nil, List.mem_cons, List.not_mem_nil, or_false] at hs
    rcases hs with rfl | rfl
    · rw [hbuckets]
      exact .inr (List.mem_append_right _ List.mem_cons_self)
    · rw [hagg]
      exact .inr (List.mem_append_right _ (List.mem_cons_of_mem _ List.mem_cons_self))

theorem isolated_chartDraft {m : Metric} {t : Table} (hm : m.PlainTexts) (ht : t ∈ Table.all)
    (hname : t.name = m.table) (g : Granularity) (n : Headcount) :
    (chartDraft m t g n).query.Isolated := by
  have hplain := Table.plainTexts_of_mem ht
  have hnarrow := narrows_of_mem_texts hplain plain_unqualified true n
  have hreading : Reading.ofText m.table = ⟨t.name, none⟩ := hname ▸ ofText_name ht
  have hconjuncts := conjunct_of_mem hnarrow (plain_conditions hm)
  have haccount := List.mem_append_left (m.conditions ++ ownerConditions m.attribution none)
    (account_mem_texts t none true n)
  have hmodest : ∀ s ∈ chartTexts t g ++ texts t none true n, s = seed ∨ Modest s := by
    intro s hs
    rcases List.mem_append.mp hs with hs | hs
    · exact modest_chartTexts hplain g s hs
    · exact .inr (hnarrow s hs).2
  refine isolated_of_madeOf (madeOf_chartDraft hm hplain hname g n) hmodest ?_
  intro p hp
  rw [chartDraft, chartQuery, selects, selectsOfCtes, selectsOfCtes, selectsOfCtes, Cte.selects,
    Cte.selects, CteBody.selects, CteBody.selects, countedQuery, selects_flat, selectsOfConditions,
    List.append_nil, List.append_nil] at hp
  rcases List.mem_cons.mp hp with rfl | hp
  · exact restricted_chartQuery m t g _
  · rcases List.mem_append.mp hp with hp | hp
    · rw [List.mem_singleton.mp hp]
      exact restricted_bucketsQuery g _
    · rw [List.mem_singleton.mp hp, List.append_assoc]
      exact restricted_flat hreading (name_mem_tenantTables ht) haccount hconjuncts _

theorem isolated_sumDraft {t : Table} (ht : t ∈ Table.all) {expression : String}
    (h : Plain expression) (narrowed : Bool) (n : Headcount) :
    (sumDraft t expression narrowed n).query.Isolated := by
  have hplain := Table.plainTexts_of_mem ht
  have hnarrow := narrows_of_mem_texts hplain plain_unqualified narrowed n
  exact isolated_flat (ofText_name ht) (name_mem_tenantTables ht)
    (account_mem_texts t none narrowed n) (fun s hs => (hnarrow s hs).1)
    (fun s hs => (hnarrow s hs).2) (madeOf_sumSelect hplain h _)

theorem isolated_spendDraft : spendDraft.query.Isolated :=
  isolated_sumDraft (by decide) (plain_ofList (by decide)) _ _

theorem isolated_totalAppointmentsDraft : totalAppointmentsDraft.query.Isolated :=
  isolated_sumDraft (by decide) (plain_ofList (by decide)) _ _

theorem mem_tenantTables_appointments : "appointments" ∈ tenantTables :=
  name_mem_tenantTables (t := .appointments) (by decide)

theorem ofText_appointments : Reading.ofText "appointments" = ⟨"appointments", none⟩ :=
  ofText_ofList _

theorem narrows_appointments (n : Headcount) : ∀ s ∈ texts .appointments none true n, Narrows s :=
  narrows_of_mem_texts (Table.plainTexts_of_mem (by decide)) plain_unqualified true n

theorem isolated_repStatsSelect (n : Headcount) :
    (repStatsSelect (texts .appointments none true n)).Isolated := by
  have hnarrow := narrows_appointments n
  refine isolated_flat ofText_appointments mem_tenantTables_appointments
    (List.mem_append_left _ (account_mem_texts _ none true n)) ?_ (fun s hs => (hnarrow s hs).2)
    (madeOf_repStatsSelect _)
  refine conjunct_of_mem hnarrow fun s hs => ?_
  rw [List.mem_singleton.mp hs]
  exact plain_isNotNull plain_repColumn

theorem isolated_entitiesSelect {keys : List (String × String)}
    (hkeys : ∀ p ∈ keys, Plain p.1 ∧ Plain p.2) (n : Headcount) :
    (entitiesSelect keys (texts .appointments none true n)).Isolated := by
  have hnarrow := narrows_appointments n
  refine isolated_flat ofText_appointments mem_tenantTables_appointments
    (List.mem_append_left _ (account_mem_texts _ none true n)) ?_ (fun s hs => (hnarrow s hs).2)
    (madeOf_entitiesSelect hkeys _)
  refine conjunct_of_mem hnarrow ?_
  intro s hs
  obtain ⟨p, hp, rfl⟩ := List.mem_map.mp hs
  exact plain_isNotNull (hkeys p hp).1

theorem isolated_leadTimesSelect (n : Headcount) :
    (leadTimesSelect (texts .appointments none true n)).Isolated := by
  have hnarrow := narrows_appointments n
  refine isolated_flat ofText_appointments mem_tenantTables_appointments
    (List.mem_append_left _ (account_mem_texts _ none true n)) ?_ (fun s hs => (hnarrow s hs).2)
    (madeOf_leadTimesSelect _)
  refine conjunct_of_mem hnarrow ?_
  simp only [List.forall_mem_cons]
  exact ⟨plain_ofList (by decide), plain_ofList (by decide), List.forall_mem_nil _⟩

theorem isolated_account {columns : List String} (hcolumns : ∀ s ∈ columns, Plain s) :
    (Select.simple columns "accounts" [.sql "id = $account_id"]).Isolated := by
  have hid : Bare (equality "id" "account_id") :=
    bare_equality (plain_ofList (by decide)) param_account
  have hmade : (Select.simple columns "accounts" [.sql "id = $account_id"]).MadeOf
      [equality "id" "account_id"] := by
    refine @madeOf_flat columns "accounts" ["id = $account_id"] [] [] [] []
      (List.forall_mem_nil _) ?_
    simp only [List.forall_mem_append, List.forall_mem_cons]
    exact ⟨hcolumns, plain_ofList (by decide), ⟨List.forall_mem_nil _, List.forall_mem_nil _⟩,
      List.forall_mem_nil _⟩
  have hreading : Reading.ofText "accounts" = ⟨"accounts", none⟩ := ofText_ofList _
  have hmodest : ∀ s ∈ [equality "id" "account_id"], s = seed ∨ Modest s := by
    intro s hs
    rw [List.mem_singleton.mp hs]
    exact .inr hid.modest
  have hselects : (Select.simple columns "accounts" [.sql "id = $account_id"]).selects =
      [.simple columns "accounts" [.sql "id = $account_id"]] :=
    selects_flat columns "accounts" [] ["id = $account_id"] [] [] []
  refine isolated_of_madeOf hmade hmodest ?_
  rw [hselects]
  intro p hp
  rw [List.mem_singleton.mp hp]
  have hsource : (Select.simple columns "accounts" [.sql "id = $account_id"]).source =
      "accounts" := rfl
  have hshared : "accounts" ∉ tenantTables := by decide
  refine restricted_of_guards rfl ?_ ?_ (.inr ?_)
  · intro s hs
    rw [List.mem_singleton.mp hs]
    exact hid.conjunct
  · rw [hsource, hreading]
    exact ⟨fun h => absurd h hshared, fun h => absurd h (by decide), fun _ =>
      List.mem_singleton_self _⟩
  · rw [hsource, hreading]
    exact List.mem_append_left _ (List.mem_append_right _ List.mem_cons_self)

theorem ofText_leads : Reading.ofText "contacts c" = ⟨"contacts", some "c"⟩ := ofText_ofList _

theorem ofText_dials : Reading.ofText "dials d" = ⟨"dials", some "d"⟩ := ofText_ofList _

theorem ofText_owners : Reading.ofText "appointments a" = ⟨"appointments", some "a"⟩ :=
  ofText_ofList _

theorem narrows_leads (n : Headcount) : ∀ s ∈ texts .contacts (some "c") true n, Narrows s :=
  narrows_of_mem_texts (Table.plainTexts_of_mem (by decide)) plain_leads true n

/-- Leads joined to a table on their contact and account, and on whatever else is bare. -/
theorem isolated_leads {columns : List String} {j : Join} {t : Table} {short : String}
    {groups : List String} {n : Headcount} (on : List String) (ht : t ∈ Table.all)
    (hreading : Reading.ofText j.table = ⟨t.name, some short⟩) (hapart : short ≠ "c")
    (hkind : j.kind ∈ [none, some "INNER", some "LEFT"])
    (hon : j.on = " AND ".intercalate on) (hons : ∀ s ∈ on, Bare s)
    (hsame : qualify "account_id" (some short) ++ " = " ++ qualify "account_id" (some "c") ∈ on)
    (hmade : (Select.mk columns "contacts c" [j]
      (sqlConditions (texts .contacts (some "c") true n)) groups [] [] []).MadeOf
        (texts .contacts (some "c") true n ++ [j.on])) :
    (Select.mk columns "contacts c" [j]
      (sqlConditions (texts .contacts (some "c") true n)) groups [] [] []).Isolated := by
  have hnarrow := narrows_leads n
  have hmodest : ∀ s ∈ texts .contacts (some "c") true n ++ [j.on], s = seed ∨ Modest s := by
    intro s hs
    rcases List.mem_append.mp hs with hs | hs
    · exact .inr (hnarrow s hs).2
    · rw [List.mem_singleton.mp hs, hon]
      exact .inr (.inl (quiet_intercalate (by decide) fun s hs => (hons s hs).toQuiet).noSelect)
  refine isolated_of_madeOf hmade hmodest ?_
  rw [selects_flat]
  intro p hp
  rw [List.mem_singleton.mp hp]
  refine restricted_joined ofText_leads hreading
    ⟨name_mem_tenantTables (t := .contacts) (by decide), name_mem_tenantTables ht⟩ ?_
    (account_mem_texts .contacts (some "c") true n) (fun s hs => (hnarrow s hs).1) hkind hon
    (fun s hs => (hons s hs).conjunct) hsame _
  simpa using hapart.symm

theorem isolated_pairsSelect (n : Headcount) : (pairsSelect (texts .contacts (some "c") true n)
    (userTexts .dials (some "d") n)).Isolated := by
  have hdials := bare_of_mem_userTexts (t := .dials) (Table.plainTexts_of_mem (by decide))
    plain_dialers n
  refine isolated_leads (t := .dials)
    (["d.contact_id = c.id", "d.account_id = c.account_id", "d.date_called >= c.ghl_created_at"] ++
      userTexts .dials (some "d") n) (by decide) ofText_dials (by decide) (by simp) rfl ?_ ?_
    (madeOf_pairsSelect _ _)
  · simp only [List.cons_append, List.nil_append, List.forall_mem_cons]
    exact ⟨(plain_ofList (by decide)).toBare, (plain_ofList (by decide)).toBare,
      (plain_ofList (by decide)).toBare, hdials⟩
  · exact List.mem_append_left _ (List.mem_cons_of_mem _ List.mem_cons_self)

theorem isolated_conversionSelect (n : Headcount) :
    (conversionSelect (texts .contacts (some "c") true n)
      (userTexts .appointments (some "a") n)).Isolated := by
  have howners := bare_of_mem_userTexts (t := .appointments) (Table.plainTexts_of_mem (by decide))
    plain_owners n
  refine isolated_leads (t := .appointments)
    (["a.contact_id = c.id", "a.account_id = c.account_id"] ++
      userTexts .appointments (some "a") n) (by decide) ofText_owners (by decide) (by simp)
    rfl ?_ ?_ (madeOf_conversionSelect _ _)
  · simp only [List.cons_append, List.nil_append, List.forall_mem_cons]
    exact ⟨(plain_ofList (by decide)).toBare, (plain_ofList (by decide)).toBare, howners⟩
  · exact List.mem_append_left _ (List.mem_cons_of_mem _ List.mem_cons_self)

theorem restricted_assignedSelect {t : Table} (ht : t ∈ Table.all) {columns more : List String}
    (hmore : ∀ s ∈ more, Plain s) (n : Headcount) (names : List String) :
    (assignedSelect t columns more (texts t none true n)).Restricted names := by
  have hnarrow := narrows_of_mem_texts (Table.plainTexts_of_mem ht) plain_unqualified true n
  have hplain : ∀ s ∈ ["sales_rep_user_id IS NOT NULL"] ++ more, Plain s := by
    intro s hs
    rcases List.mem_cons.mp hs with rfl | hs
    · exact plain_ofList (by decide)
    · exact hmore s hs
  rw [assignedSelect, Select.simple, List.append_assoc]
  exact restricted_flat (ofText_name ht) (name_mem_tenantTables ht)
    (List.mem_append_left _ (account_mem_texts t none true n))
    (conjunct_of_mem hnarrow hplain) names

theorem isolated_recordsDraft {columns more conditions : List String} {value : String}
    (hcolumns : ∀ s ∈ columns, Plain s) (hmore : ∀ s ∈ more, Plain s) (hvalue : Plain value)
    (hconditions : ∀ s ∈ conditions, Plain s) (n : Headcount) :
    (recordsDraft columns more value conditions n).query.Isolated := by
  have hleft := narrows_appointments n
  have hright := narrows_of_mem_texts (Table.plainTexts_of_mem (t := .discoveries) (by decide))
    plain_unqualified true n
  have hmodest : ∀ s ∈ texts .appointments none true n ++ texts .discoveries none true n,
      s = seed ∨ Modest s := by
    intro s hs
    rcases List.mem_append.mp hs with hs | hs
    · exact .inr (hleft s hs).2
    · exact .inr (hright s hs).2
  refine isolated_of_madeOf (madeOf_recordsSelect hcolumns hmore hvalue hconditions _ _)
    hmodest ?_
  intro p hp
  rw [recordsDraft, selects, recordsCte, selectsOfCtes, selectsOfCtes, Cte.selects,
    CteBody.selects, selectsOfSelects, selectsOfSelects, selectsOfSelects,
    selectsOfConditions_sqlConditions, List.append_nil, List.append_nil, List.append_nil] at hp
  rcases List.mem_cons.mp hp with rfl | hp
  · have hreading : Reading.ofText "records" = ⟨"records", none⟩ := ofText_ofList _
    refine restricted_of_guards rfl ?_ ?_ (.inr ?_)
    · rw [conjuncts_mk_sqlConditions]
      exact fun s hs => (hconditions s hs).conjunct
    · rw [Select.source, hreading]
      exact .of_other (by decide) _
    · rw [Select.source, hreading]
      exact List.mem_append_right _ (List.mem_singleton_self _)
  · rw [assignedSelect, assignedSelect, Select.simple, Select.simple, selects_flat,
      selects_flat] at hp
    rcases List.mem_append.mp hp with hp | hp
    · rw [List.mem_singleton.mp hp]
      exact restricted_assignedSelect (t := .appointments) (by decide) hmore n _
    · rw [List.mem_singleton.mp hp]
      exact restricted_assignedSelect (t := .discoveries) (by decide) hmore n _

theorem isolated_overdueDraft (formula : Formula) (n : Headcount) :
    (overdueDraft formula n).query.Isolated := by
  refine isolated_recordsDraft ?_ ?_ (plain_overdueValue formula) ?_ n
  · simp only [List.forall_mem_cons]
    exact ⟨plain_ofList (by decide), plain_ofList (by decide), List.forall_mem_nil _⟩
  · exact List.forall_mem_nil _
  · simp only [List.forall_mem_cons]
    exact ⟨plain_ofList (by decide), List.forall_mem_nil _⟩

theorem narrows_dials (n : Headcount) : ∀ s ∈ texts .dials (some "d") true n, Narrows s :=
  narrows_of_mem_texts (Table.plainTexts_of_mem (by decide)) plain_dialers true n

theorem mem_tenantTables_dials : "dials" ∈ tenantTables :=
  name_mem_tenantTables (t := .dials) (by decide)

theorem isolated_dialsSelect (n : Headcount) :
    (dialsSelect (texts .dials (some "d") true n)).Isolated := by
  have hnarrow := narrows_dials n
  exact isolated_flat ofText_dials mem_tenantTables_dials
    (account_mem_texts .dials (some "d") true n) (fun s hs => (hnarrow s hs).1)
    (fun s hs => (hnarrow s hs).2) (madeOf_dialsSelect _)

theorem balanced_clause {keyword separator : String} {items : List String}
    (hk : Balanced (keyword ++ " ")) (hs : Balanced separator) (h : ∀ s ∈ items, Balanced s) :
    ∀ s ∈ clause keyword separator items, Balanced s := by
  intro s hmem
  cases items with
  | nil => simp [clause] at hmem
  | cons x xs =>
    simp only [clause, List.mem_singleton] at hmem
    rw [hmem]
    exact balanced_append hk (balanced_intercalate hs h)

theorem balanced_render {columns : List String} {source : String} {texts : List String}
    (hcolumns : ∀ s ∈ columns, Balanced s) (hsource : Balanced source)
    (htexts : ∀ s ∈ texts, Balanced s) :
    Balanced (Select.simple columns source (sqlConditions texts)).render := by
  have hrendered : renderConditions (sqlConditions texts) = texts := by
    rw [renderConditions_eq_map, sqlConditions, List.map_map]
    exact List.map_id _
  rw [Select.simple, Select.render, hrendered]
  refine balanced_intercalate (by rfl) ?_
  simp only [renderCtes, clause, List.map_nil, List.append_nil, List.nil_append,
    List.forall_mem_append, List.forall_mem_cons]
  refine ⟨⟨balanced_append (by rfl) (balanced_intercalate (by rfl) hcolumns),
    balanced_append (by rfl) hsource, List.forall_mem_nil _⟩, ?_⟩
  exact balanced_clause (by rfl) (by rfl) htexts

theorem narrows_booked (n : Headcount) : ∀ s ∈ texts .dials (some "d") true n ++
    ["d.booked_appointment_id IS NOT NULL"], Narrows s := by
  intro s hs
  rcases List.mem_append.mp hs with hs | hs
  · exact narrows_dials n s hs
  · rw [List.mem_singleton.mp hs]
    exact (plain_ofList (by decide)).narrows

theorem conjunct_within_booked (n : Headcount) : Conjunct (Condition.within "a.id"
    (bookedSelect (texts .dials (some "d") true n))).render := by
  have hfield : Plain "a.id" := plain_ofList (by decide)
  have hcolumn : Plain "d.booked_appointment_id" := plain_ofList (by decide)
  have hsource : Plain "dials d" := plain_ofList (by decide)
  have hor : Lacks "OR" (bookedSelect (texts .dials (some "d") true n)).render := by
    rw [Lacks, flatMap_fragments_select splits_or, List.flatMap_eq_nil_iff]
    intro s hs
    rcases (madeOf_bookedSelect _).only s hs with hs | hs
    · exact (narrows_dials n s hs).1.1
    · exact hs.noOr
  have hbalanced : Balanced (bookedSelect (texts .dials (some "d") true n)).render := by
    refine balanced_render ?_ hsource.balanced fun s hs => (narrows_booked n s hs).1.2
    intro s hs
    rw [List.mem_singleton.mp hs]
    exact hcolumn.balanced
  have hempty : Balanced ("a.id" ++ " IN (" ++ ")") := by rfl
  refine ⟨?_, balanced_insert hempty hbalanced⟩
  rw [Lacks, Condition.render, splits_or.parenthesized _ _ (by decide), hfield.noOr, hor]
  rfl

theorem isolated_cashSelect (n : Headcount) :
    (cashSelect (texts .dials (some "d") true n)).Isolated := by
  have hnarrow := narrows_dials n
  have haccount : Bare (equality "a.account_id" "account_id") :=
    bare_equality (plain_ofList (by decide)) param_account
  have hmodest : ∀ s ∈ "a.account_id = $account_id" :: texts .dials (some "d") true n,
      s = seed ∨ Modest s := by
    intro s hs
    rcases List.mem_cons.mp hs with rfl | hs
    · exact .inr haccount.modest
    · exact .inr (hnarrow s hs).2
  refine isolated_of_madeOf (madeOf_cashSelect _) hmodest ?_
  intro p hp
  rw [cashSelect, Select.simple, selects, selectsOfCtes, selectsOfConditions, selectsOfConditions,
    selectsOfConditions, Condition.selects, Condition.selects, List.append_nil, bookedSelect,
    Select.simple, selects_flat] at hp
  rcases List.mem_cons.mp hp with rfl | hp
  · have hconjuncts : ∀ s ∈ (cashSelect (texts .dials (some "d") true n)).conjuncts,
        Conjunct s := by
      intro s hs
      rcases List.mem_cons.mp hs with rfl | hs
      · exact haccount.conjunct
      · rw [List.mem_singleton.mp hs]
        exact conjunct_within_booked n
    have hreading : Reading.ofText (cashSelect (texts .dials (some "d") true n)).source =
        ⟨"appointments", some "a"⟩ := ofText_owners
    refine restricted_of_holds rfl hconjuncts ?_ ?_ _
    · rw [hreading]
      exact mem_tenantTables_appointments
    · rw [hreading]
      exact List.mem_cons_self
  · have hp := List.mem_singleton.mp hp
    rw [hp]
    exact restricted_flat ofText_dials mem_tenantTables_dials
      (List.mem_append_left _ (account_mem_texts .dials (some "d") true n))
      (fun s hs => (narrows_booked n s hs).1) _

theorem isolated_drafts (formula : Formula) (b : Breakdown) (n : Headcount) :
    ∀ p ∈ drafts formula b n, p.2.query.Isolated := by
  have hcash : Plain "COALESCE(SUM(cash_collected), 0)" := plain_ofList (by decide)
  have hspend := isolated_spendDraft
  have htotal := isolated_totalAppointmentsDraft
  have haccount : accountDraft.query.Isolated := by
    refine isolated_account ?_
    simp only [List.forall_mem_cons]
    exact ⟨plain_ofList (by decide), plain_ofList (by decide), List.forall_mem_nil _⟩
  cases formula with
  | roi =>
    simp only [drafts, List.forall_mem_cons]
    exact ⟨isolated_sumDraft (by decide) hcash true n, hspend, List.forall_mem_nil _⟩
  | repRoi =>
    simp only [drafts, List.forall_mem_cons]
    exact ⟨isolated_repStatsSelect n, htotal, hspend, List.forall_mem_nil _⟩
  | costPerBookedCall =>
    simp only [drafts, List.forall_mem_append, List.forall_mem_cons]
    refine ⟨⟨htotal, hspend, List.forall_mem_nil _⟩, ?_⟩
    split
    · exact List.forall_mem_nil _
    · intro p hp
      rw [List.mem_singleton.mp hp]
      exact isolated_entitiesSelect ((Table.plainTexts_of_mem (by decide)).keys b) n
  | speedToLead =>
    simp only [drafts, List.forall_mem_cons]
    exact ⟨isolated_pairsSelect n, haccount, List.forall_mem_nil _⟩
  | leadToAppointment =>
    simp only [drafts, List.forall_mem_cons]
    exact ⟨isolated_conversionSelect n, List.forall_mem_nil _⟩
  | dataCompletionRate =>
    simp only [drafts, List.forall_mem_cons]
    refine ⟨isolated_recordsDraft ?_ ?_ (plain_ofList (by decide)) ?_ n, List.forall_mem_nil _⟩
    · intro s hs
      rw [List.mem_singleton.mp hs]
      exact plain_ofList (by decide)
    · intro s hs
      rw [List.mem_singleton.mp hs]
      exact plain_ofList (by decide)
    · exact List.forall_mem_nil _
  | overdueItems =>
    simp only [drafts, List.forall_mem_cons]
    exact ⟨isolated_overdueDraft _ n, List.forall_mem_nil _⟩
  | overduePercentage =>
    simp only [drafts, List.forall_mem_cons]
    exact ⟨isolated_overdueDraft _ n, List.forall_mem_nil _⟩
  | cashPerDial =>
    simp only [drafts, List.forall_mem_cons]
    exact ⟨isolated_dialsSelect n, isolated_cashSelect n, List.forall_mem_nil _⟩
  | bookingLeadTime =>
    simp only [drafts, List.forall_mem_cons]
    exact ⟨isolated_leadTimesSelect n, List.forall_mem_nil _⟩
  | workTimeframe => exact List.forall_mem_nil _

end Plan

theorem Scope.find?_account (s : Scope) (f : Filters) (start finish : Calendar.Date) :
    (s.fields f start finish).find? "account_id" = some (accountValue f) := by
  cases s <;> simp [fields, accountFields, Named.find?_cons]

theorem Draft.isolated_call {d : Draft} (h : d.query.Isolated) (f : Filters)
    (start finish : Calendar.Date) : (d.call f start finish).Isolated (accountValue f) :=
  ⟨h, d.scope.find?_account f start finish⟩

namespace Plan

theorem isolated_of_generic {m : Metric} {f : Filters} {b : Breakdown} {q : BoundQuery}
    (hm : m.PlainTexts) (h : generic m f b = .ok q) : q.toCall.Isolated (accountValue f) := by
  obtain ⟨t, start, finish, ht, -, hq⟩ := of_generic h
  obtain ⟨hmem, hname⟩ := Table.mem_of_named ht
  rw [hq]
  exact Draft.isolated_call (isolated_plainDraft hm hmem hname b _) f start finish

theorem isolated_of_chart {m : Metric} {f : Filters} {g : Option Granularity} {q : BoundQuery}
    {series : List Calendar.Date} (hm : m.PlainTexts) (h : chart m f g = .ok (q, series)) :
    q.toCall.Isolated (accountValue f) := by
  obtain ⟨t, start, finish, first, last, ht, hdays, hseries, hfirst, hlast⟩ := of_chart h
  obtain ⟨hmem, hname⟩ := Table.mem_of_named ht
  rw [chart_eq ht hdays hseries hfirst hlast] at h
  cases h
  refine ⟨isolated_chartDraft hm hmem hname _ _, ?_⟩
  simp [Scope.fields, accountFields, Named.find?_cons]

theorem isolated_of_formula {m : Metric} {f : Filters} {settings : Fields} {b : Breakdown}
    {plan : FormulaPlan} (h : formula m f settings b = .ok plan) :
    ∀ p ∈ plan.queries, p.2.toCall.Isolated (accountValue f) :=
  forall_queries h fun fm start finish _ _ p hp =>
    Draft.isolated_call (isolated_drafts fm b _ p hp) f start finish

end Plan

namespace Work

theorem isolated_dialsDraft (n : Headcount) : (dialsDraft n).query.Isolated := by
  have hnarrow := narrows_of_mem_texts (Table.plainTexts_of_mem (t := .dials) (by decide))
    plain_unqualified true n
  have hmore : ∀ s ∈ ["date_called IS NOT NULL"], Plain s := by
    intro s hs
    rw [List.mem_singleton.mp hs]
    exact plain_ofList (by decide)
  have hmade : (dialsDraft n).query.MadeOf (texts .dials none true n) := by
    refine madeOf_flat hmore ?_
    simp only [List.append_nil, List.nil_append, List.cons_append, List.forall_mem_cons]
    exact ⟨plain_ofList (by decide), plain_ofList (by decide), plain_ofList (by decide),
      plain_ofList (by decide), plain_ofList (by decide), List.forall_mem_nil _⟩
  exact isolated_flat (ofText_name (t := .dials) (by decide))
    (name_mem_tenantTables (t := .dials) (by decide))
    (List.mem_append_left _ (account_mem_texts .dials none true n)) (conjunct_of_mem hnarrow hmore)
    (fun s hs => (hnarrow s hs).2) hmade

theorem isolated_zoneCall (f : Filters) : (zoneCall f).Isolated (accountValue f) := by
  refine ⟨Plan.isolated_account ?_, rfl⟩
  intro s hs
  rw [List.mem_singleton.mp hs]
  exact plain_ofList (by decide)

theorem isolated_of_dialsCall {f : Filters} {callers : List String} {c : Call}
    (h : dialsCall f callers = .ok c) : c.Isolated (accountValue f) := by
  obtain ⟨start, finish, -, rfl⟩ := of_dialsCall h
  exact Draft.isolated_call (isolated_dialsDraft _) (callersOnly f callers) start finish

end Work

end Funnel
