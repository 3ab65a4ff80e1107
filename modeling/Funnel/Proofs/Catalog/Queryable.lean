import Funnel.Proofs.Catalog.Families
import Funnel.Proofs.Catalog.Texts
import Funnel.Proofs.Filter.Checked
import Funnel.Proofs.Plan.Draft
import Funnel.Proofs.Query.Keywords
import Funnel.Plan.Options
import Funnel.Result

/-!
# Metrics that can be queried

A plain metric that the audit accepts has one value, and its table has the columns of every
breakdown that a request can choose. In another breakdown than its own it is queried for the keys of
that breakdown. In its own one it is queried as it is defined, and whether the definition has the
keys is nothing that the audit looks at: a metric without them is accepted, and all rows that the
store finds for it are dropped.
-/

set_option autoImplicit false

namespace Funnel

/-- The characters before a final `AS name`, case ignored, without the blanks between. -/
def aliased? (name : String) (cs : List Char) : Option (List Char) := do
  let r ← Text.dropWord? name.toList.reverse (Text.trimChars cs).reverse
  let gap := r.dropWhile Text.isBlank
  if gap.length = r.length then none
  else do
    let r ← Text.dropWord? "sa".toList gap
    let gap := r.dropWhile Text.isBlank
    if gap.length = r.length ∨ gap = [] then none else some gap.reverse

/-- Whether a column is shown under a name, as its alias or because it is that name itself. -/
def shows (name column : String) : Bool :=
  (aliased? name column.toList).isSome ||
    Text.dropWord? name.toList (Text.trimChars column.toList) == some []

/-- The names under which the keys of a breakdown's rows are looked up. -/
def Breakdown.keyNames : Breakdown → List String
  | .total => []
  | .rep => ["rep_id"]
  | .setter => ["setter_id"]
  | .link => ["setter_id", "rep_id"]
  | .time => ["date"]

/-- Columns that show every key of a breakdown. -/
def ShowKeys (columns : List String) (b : Breakdown) : Prop :=
  ∀ k ∈ b.keyNames, ∃ c ∈ columns, shows k c = true

instance (columns : List String) (b : Breakdown) : Decidable (ShowKeys columns b) :=
  inferInstanceAs (Decidable (∀ k ∈ b.keyNames, ∃ c ∈ columns, _))

def Select.values (q : Select) : List String := q.columns.filterMap Metric.valueOf?

/-- What is named as a value starts and ends with characters that are no blanks. -/
theorem tight_of_valueOf? {column v : String} (h : Metric.valueOf? column = some v) : Tight v := by
  obtain ⟨cs, hcs, rfl⟩ := Option.map_eq_some_iff.mp h
  unfold Metric.aliasedAsValue? at hcs
  simp only [Option.bind_eq_bind, Option.bind_eq_some_iff] at hcs
  obtain ⟨r, hname, hcs⟩ := hcs
  obtain ⟨-, hcs⟩ := Option.ite_none_left_eq_some.mp hcs
  obtain ⟨s, has, hcs⟩ := Option.bind_eq_some_iff.mp hcs
  obtain ⟨hgap, hcs⟩ := Option.ite_none_left_eq_some.mp hcs
  cases hcs
  have hsuffix : s.dropWhile Text.isBlank <:+ (column.toList.dropWhile Text.isBlank).reverse := by
    have htrim : (Text.trimChars column.toList).reverse <:+
        (column.toList.dropWhile Text.isBlank).reverse := by
      rw [Text.trimChars, List.reverse_reverse]
      exact List.dropWhile_suffix _
    exact (List.dropWhile_suffix _).trans ((suffix_of_dropWord? has).trans
      ((List.dropWhile_suffix _).trans ((suffix_of_dropWord? hname).trans htrim)))
  obtain ⟨front, hfront⟩ := hsuffix
  have hlast : ∀ c ∈ (s.dropWhile Text.isBlank).head?, Text.isBlank c = false :=
    Text.head?_dropWhile
  have hhead : ∀ c ∈ (column.toList.dropWhile Text.isBlank).head?, Text.isBlank c = false :=
    Text.head?_dropWhile
  obtain ⟨d, ds, hgap⟩ := List.exists_cons_of_ne_nil (not_or.mp hgap).2
  obtain ⟨c, tail, htail⟩ := List.exists_cons_of_ne_nil (List.reverse_ne_nil_iff.mpr
    (List.cons_ne_nil d ds))
  have hcolumn : column.toList.dropWhile Text.isBlank = c :: (tail ++ front.reverse) := by
    have := congrArg List.reverse hfront
    rw [List.reverse_reverse, List.reverse_append, hgap, htail] at this
    exact this.symm
  refine ⟨⟨c, tail, ?_, hhead c (by rw [hcolumn]; rfl)⟩, d, ds.reverse, ?_,
    hlast d (by rw [hgap]; rfl)⟩
  · rw [String.toList_ofList, hgap, htail]
  · rw [String.toList_ofList, hgap, List.reverse_cons]

theorem filterMap_of_filter_length {α β : Type} {f : α → Option β} {xs : List α}
    (h : (xs.filter fun x => (f x).isSome).length = 1) : ∃ y, xs.filterMap f = [y] := by
  have hlength : (xs.filterMap f).length = 1 := by
    rw [List.length_filterMap_eq_countP, List.countP_eq_length_filter, h]
  exact List.length_eq_one_iff.mp hlength

namespace Catalog

theorem of_audit {registry : Named Metric} (h : audit registry = .ok ()) {p : String × Metric}
    (hp : p ∈ registry) (hplain : p.2.isSpecial = false) :
    ∃ t, p.2.tableSpec = .ok t ∧ t.supports p.2.breakdown = true ∧
      ∃ e, p.2.columns.filterMap Metric.valueOf? = [e] := by
  have hentry := problems_eq_nil_iff.mp (audit_eq_ok_iff.mp h) p hp
  unfold entryProblems at hentry
  obtain ⟨-, hentry⟩ := List.append_eq_nil_iff.mp hentry
  cases hfind : Table.find? p.2.table with
  | none =>
    rw [hfind] at hentry
    exact absurd hentry (List.cons_ne_nil _ _)
  | some t =>
    rw [hfind] at hentry
    have htable := (List.append_eq_nil_iff.mp hentry).2
    unfold tableProblems at htable
    rw [hplain] at htable
    simp only [List.append_eq_nil_iff, ite_eq_left_iff, List.cons_ne_nil, imp_false, not_not,
      Bool.false_eq_true, if_false] at htable
    refine ⟨t, ?_, htable.1, filterMap_of_filter_length htable.2.2⟩
    rw [Metric.tableSpec, Table.named, hfind]

end Catalog

theorem valueExpression?_of_values {m : Metric} {e : String}
    (h : m.columns.filterMap Metric.valueOf? = [e]) : m.valueExpression? = some e := by
  rw [Metric.valueExpression?, ← List.head?_filterMap, h]
  rfl

theorem tight_of_values {m : Metric} {e : String}
    (h : m.columns.filterMap Metric.valueOf? = [e]) : Tight e := by
  have hmem : e ∈ m.columns.filterMap Metric.valueOf? := h ▸ List.mem_singleton_self e
  obtain ⟨column, -, hcolumn⟩ := List.mem_filterMap.mp hmem
  exact tight_of_valueOf? hcolumn

/-- A breakdown that a request can choose is one that the table has the columns of. -/
theorem selectStrategy_of_plain {m : Metric} {t : Table} (ht : m.tableSpec = .ok t)
    (hplain : m.isSpecial = false) (hown : t.supports m.breakdown = true) (o : Options) :
    selectStrategy m o = .ok (.timeSeries, .time) ∨ ∃ b, selectStrategy m o = .ok (.generic, b) ∧
      t.supports b = true ∧ (b = m.breakdown ∨ b ≠ .time) := by
  unfold selectStrategy
  rw [hplain, if_neg Bool.false_ne_true]
  split
  · exact .inl rfl
  · next hchart =>
    right
    have hkept : ∃ b, plainBreakdown m o = .ok b ∧ t.supports b = true ∧
        (b = m.breakdown ∨ b ≠ .time) := by
      unfold plainBreakdown
      cases hb : o.breakdown with
      | none => exact ⟨m.breakdown, rfl, hown, .inl rfl⟩
      | some b =>
        have htime : b ≠ .time := by
          rintro rfl
          simp [Options.wantsChart, hb] at hchart
        dsimp only
        by_cases hsame : b = m.breakdown
        · exact ⟨b, if_pos hsame, hsame ▸ hown, .inl hsame⟩
        · rw [if_neg hsame, ht]
          by_cases hsupports : t.supports b = true
          · refine ⟨b, Fault.bind_eq_ok_iff.mpr ⟨t, rfl, ?_⟩, hsupports, .inr htime⟩
            rw [if_pos hsupports]
          · refine ⟨m.breakdown, Fault.bind_eq_ok_iff.mpr ⟨t, rfl, ?_⟩, hown, .inl rfl⟩
            rw [if_neg hsupports]
    obtain ⟨b, hb, hsupports, hchoice⟩ := hkept
    refine ⟨b, ?_, hsupports, hchoice⟩
    rw [hb]
    rfl

/-- The key columns that a table supplies go by the names that the rows are looked up under. -/
theorem Table.keyNames_of_supports {t : Table} (ht : t ∈ all) {b : Breakdown}
    (hb : t.supports b = true) (htime : b ≠ .time) : (t.keys b).map Prod.snd = b.keyNames := by
  have hall : ∀ t ∈ all, ∀ b ∈ Breakdown.all, t.supports b = true → b ≠ .time →
      (t.keys b).map Prod.snd = b.keyNames := by decide
  have hmem : b ∈ Breakdown.all := by cases b <;> decide
  exact hall t ht b hmem hb htime

theorem shows_personKeys : ∀ p ∈ Registry.personKeys, shows p.2 (p.1 ++ " AS " ++ p.2) = true := by
  decide

theorem valueOf?_personKeys {p : String × String} (hp : p ∈ Registry.personKeys) :
    Metric.valueOf? (p.1 ++ " AS " ++ p.2) = none :=
  valueOf?_of_namesOther (namesOther_append _ (Registry.namesOther_personKeys hp))

namespace Plan

variable {m : Metric} {t : Table} {b : Breakdown} {e : String}

theorem columns_shape_of_ne (hb : b ≠ m.breakdown) (conditions : List Condition) :
    (shape m t b conditions).columns =
      (t.keys b).map (fun p => p.1 ++ " AS " ++ p.2) ++ [valueText m ++ " AS value"] := by
  rw [shape, if_neg hb]
  rfl

theorem columns_shape_self (conditions : List Condition) :
    (shape m t m.breakdown conditions).columns = m.columns := by
  rw [shape, if_pos rfl]
  rfl

/-- Whatever a plain query is broken down by, its one value is that of the metric. -/
theorem values_shape (ht : t ∈ Table.all) (he : m.columns.filterMap Metric.valueOf? = [e])
    (b : Breakdown) (conditions : List Condition) :
    (shape m t b conditions).values = [e] := by
  by_cases hb : b = m.breakdown
  · subst hb
    rw [Select.values, columns_shape_self, he]
  · have htight : Tight e := tight_of_values he
    have hkeys : ((t.keys b).map fun p => p.1 ++ " AS " ++ p.2).filterMap Metric.valueOf? = [] := by
      rw [List.filterMap_eq_nil_iff]
      intro s hs
      obtain ⟨p, hp, rfl⟩ := List.mem_map.mp hs
      exact valueOf?_personKeys (Table.keys_subset ht b hp)
    have hvalue : valueText m = e := by
      rw [valueText, valueExpression?_of_values he]
      rfl
    rw [Select.values, columns_shape_of_ne hb, List.filterMap_append, hkeys, hvalue]
    simp [valueOf?_named htight]

/-- A query shows the keys of another breakdown than the metric's own; of its own one it shows
what the metric's columns show. -/
theorem showKeys_shape_iff (ht : t ∈ Table.all) (hsupports : t.supports b = true)
    (hb : b = m.breakdown ∨ b ≠ .time) (conditions : List Condition) :
    ShowKeys (shape m t b conditions).columns b ↔ b ≠ m.breakdown ∨ ShowKeys m.columns b := by
  by_cases hown : b = m.breakdown
  · subst hown
    rw [columns_shape_self]
    simp
  · refine iff_of_true ?_ (.inl hown)
    have htime := hb.resolve_left hown
    intro k hk
    rw [← Table.keyNames_of_supports ht hsupports htime] at hk
    obtain ⟨p, hp, rfl⟩ := List.mem_map.mp hk
    refine ⟨p.1 ++ " AS " ++ p.2, ?_, shows_personKeys p (Table.keys_subset ht b hp)⟩
    rw [columns_shape_of_ne hown]
    exact List.mem_append_left _ (List.mem_map_of_mem hp)

/-- A chart has one row for each day that it shows, and counts the metric's value in a query of its
own. -/
theorem chartQuery_serves (he : m.columns.filterMap Metric.valueOf? = [e]) (g : Granularity)
    (conditions : List Condition) :
    ShowKeys (chartQuery m t g conditions).columns .time ∧
    (∃ v ∈ ["agg.value", "COALESCE(agg.value, 0)"],
      (chartQuery m t g conditions).values = [v]) ∧
    ∃ counted, Cte.mk "agg" (.one counted) ∈ (chartQuery m t g conditions).ctes ∧
      counted.values = [e] := by
  have hdate : shows "date" "to_char(b.bucket, 'YYYY-MM-DD') AS date" = true ∧
      Metric.valueOf? "to_char(b.bucket, 'YYYY-MM-DD') AS date" = none := by decide
  have htight : Tight e := tight_of_values he
  refine ⟨?_, ?_, countedQuery m t g conditions, ?_, ?_⟩
  · intro k hk
    rw [List.mem_singleton.mp hk]
    exact ⟨_, List.mem_cons_self, hdate.1⟩
  · have hvalues : Metric.valueOf? "agg.value AS value" = some "agg.value" ∧
        Metric.valueOf? "COALESCE(agg.value, 0) AS value" = some "COALESCE(agg.value, 0)" := by
      decide
    cases hgap : m.gapWhenEmpty with
    | true =>
      refine ⟨"agg.value", List.mem_cons_self, ?_⟩
      simp [Select.values, Select.columns, chartQuery, hgap, hdate.2, hvalues]
    | false =>
      refine ⟨"COALESCE(agg.value, 0)", List.mem_cons_of_mem _ List.mem_cons_self, ?_⟩
      simp [Select.values, Select.columns, chartQuery, hgap, hdate.2, hvalues]
  · exact List.mem_cons_of_mem _ List.mem_cons_self
  · have hbucket : ∀ s : String, Metric.valueOf? (s ++ " AS bucket") = none := fun s =>
      valueOf?_of_namesOther (namesOther_append s (namesOther_ofList (by decide)))
    have hvalue : valueText m = e := by
      rw [valueText, valueExpression?_of_values he]
      rfl
    simp [Select.values, Select.columns, countedQuery, hbucket, hvalue, valueOf?_named htight]

theorem query_of_chart {f : Filters} {g : Option Granularity} {q : BoundQuery}
    {series : List Calendar.Date} (ht : m.tableSpec = .ok t) (h : chart m f g = .ok (q, series)) :
    ∃ g conditions, q.query = chartQuery m t g conditions := by
  obtain ⟨u, start, finish, first, last, hu, hdays, hseries, hfirst, hlast⟩ := of_chart h
  rw [ht, Except.ok.injEq] at hu
  subst hu
  rw [chart_eq ht hdays hseries hfirst hlast] at h
  cases h
  exact ⟨_, _, rfl⟩

end Plan

/-- Every plain metric of a registry that the audit accepts has a value, and whatever a request asks
for, the table has the columns of the breakdown that is chosen. A plain query is built for all
filters with days and has the metric's value as its only one. It shows all keys of the breakdown
unless that is the metric's own and the metric's columns do not show them. A chart shows its days
and one value, which is counted as the metric's value by the query that it joins. -/
theorem accepted_queryable {registry : Named Metric} (h : Catalog.audit registry = .ok ())
    {p : String × Metric} (hp : p ∈ registry) (hplain : p.2.isSpecial = false) (o : Options) :
    ∃ t e s b, p.2.tableSpec = .ok t ∧ p.2.valueExpression? = some e ∧
      selectStrategy p.2 o = .ok (s, b) ∧ t.supports b = true ∧
      (s = .generic ∧ (∀ f start finish, f.days = .ok (start, finish) →
          ∃ q, Plan.generic p.2 f b = .ok q ∧ q.query.values = [e] ∧
            (ShowKeys q.query.columns b ↔ b ≠ p.2.breakdown ∨ ShowKeys p.2.columns b)) ∨
        s = .timeSeries ∧ b = .time ∧ ∀ f g q series, Plan.chart p.2 f g = .ok (q, series) →
          ShowKeys q.query.columns b ∧
          (∃ v ∈ ["agg.value", "COALESCE(agg.value, 0)"], q.query.values = [v]) ∧
          ∃ counted, Cte.mk "agg" (.one counted) ∈ q.query.ctes ∧ counted.values = [e]) := by
  obtain ⟨t, ht, hown, e, he⟩ := Catalog.of_audit h hp hplain
  refine ⟨t, e, ?_⟩
  have hmem := (Table.mem_of_named ht).1
  rcases selectStrategy_of_plain ht hplain hown o with hchart | ⟨b, hgeneric, hsupports, hb⟩
  · refine ⟨.timeSeries, .time, ht, valueExpression?_of_values he, hchart, rfl, .inr ⟨rfl, rfl, ?_⟩⟩
    intro f g q series hq
    obtain ⟨g, conditions, hquery⟩ := Plan.query_of_chart ht hq
    rw [hquery]
    exact Plan.chartQuery_serves he g conditions
  · refine ⟨.generic, b, ht, valueExpression?_of_values he, hgeneric, hsupports, .inl ⟨rfl, ?_⟩⟩
    intro f start finish hdays
    refine ⟨_, Plan.generic_eq ht hdays b, Plan.values_shape hmem he b _, ?_⟩
    exact Plan.showKeys_shape_iff hmem hsupports hb _

/-- The discoveries of the registry, counted by setter. -/
theorem discoveries_queryable_by_setter :
    let registry := Registry.keyed Registry.discoveryMetrics
    let f := Filters.between "north" "2024-01-01" "2024-01-31" [] []
    let o : Options := ⟨none, some .setter, []⟩
    Catalog.audit registry = .ok () ∧ ∃ p ∈ registry, p.2.isSpecial = false ∧
      selectStrategy p.2 o = .ok (.generic, .setter) ∧ ∃ q, Plan.generic p.2 f .setter = .ok q ∧
        q.query.values = ["COUNT(*)"] ∧ ShowKeys q.query.columns .setter := by
  intro registry f o
  have haudit : Catalog.audit registry = .ok () := Catalog.audit_eq_ok_iff.mpr (by decide)
  have hp : registry[0] ∈ registry := List.getElem_mem _
  have hchosen : selectStrategy registry[0].2 o = .ok (.generic, .setter) := rfl
  obtain ⟨start, finish, hf⟩ := Filters.checked_of_reasons (f := f) (by decide)
  obtain ⟨t, e, s, b, -, he, hs, -, hqueries⟩ := accepted_queryable haudit hp rfl o
  rw [hchosen] at hs
  cases hs
  rcases hqueries with ⟨-, hplain⟩ | ⟨hnot, -⟩
  · obtain ⟨q, hq, hvalues, hkeys⟩ := hplain f start finish hf.days
    have hcount : registry[0].2.valueExpression? = some "COUNT(*)" := by decide
    rw [hcount, Option.some.injEq] at he
    exact ⟨haudit, _, hp, rfl, hchosen, q, hq, he ▸ hvalues, hkeys.mpr (.inl (by decide))⟩
  · cases hnot

namespace Result

theorem keyOf_of_find?_eq_none {row : Fields} {name : String} (h : Named.find? row name = none) :
    keyOf (.object row) name = .ok none := by
  rw [keyOf, Value.get, h]
  rfl

theorem exists_keyOf (row : Fields) (name : String) : ∃ k, keyOf (.object row) name = .ok k := by
  rw [keyOf, Value.get]
  refine Fault.exists_bind_eq_ok rfl ?_
  split
  · exact ⟨_, rfl⟩
  · exact ⟨_, rfl⟩
  · exact ⟨_, rfl⟩

theorem personRow?_of_keyless {Row : Type} {make : String → Option String → Float → Row}
    {idField nameField : String} {row : Fields} {k : String} (hk : k ∈ [idField])
    (h : Named.find? row k = none) :
    personRow? make idField nameField (.object row) = .ok none := by
  rw [List.mem_singleton.mp hk] at h
  rw [personRow?, keyOf_of_find?_eq_none h]
  rfl

theorem linkRow?_of_keyless {row : Fields} {k : String} (hk : k ∈ Breakdown.link.keyNames)
    (h : Named.find? row k = none) : linkRow? (.object row) = .ok none := by
  have hnone := keyOf_of_find?_eq_none h
  simp only [Breakdown.keyNames, List.mem_cons, List.not_mem_nil, or_false] at hk
  rcases hk with rfl | rfl
  · obtain ⟨rep, hrep⟩ := exists_keyOf row "rep_id"
    rw [linkRow?, hnone, hrep]
    rfl
  · obtain ⟨setter, hsetter⟩ := exists_keyOf row "setter_id"
    rw [linkRow?, hnone, hsetter]
    cases setter <;> rfl

theorem labelled?_of_keyless {row : Fields} {k : String} (hk : k ∈ Breakdown.time.keyNames)
    (h : Named.find? row k = none) : labelled? (.object row) = .ok none := by
  rw [List.mem_singleton.mp hk] at h
  rw [labelled?, Value.get, h]
  rfl

/-- Rows none of which has all its keys are no more than no rows at all. -/
theorem shape_of_keyless {b : Breakdown} {rows : List Fields}
    (h : ∀ row ∈ rows, ∃ k ∈ b.keyNames, Named.find? row k = none)
    (series : Option (List Calendar.Date)) (gap : Bool) :
    shape b (.list (rows.map .object)) series gap = shape b (.list []) series gap := by
  cases rows with
  | nil => rfl
  | cons first rest =>
    -- A reader that passes over rows without a key passes over all of these.
    have hskip : ∀ {β : Type} {f : Value → Except Fault (Option β)},
        (∀ {row k}, k ∈ b.keyNames → Named.find? row k = none → f (.object row) = .ok none) →
        ∃ ys, ((first :: rest).map Value.object).mapM f = .ok ys ∧ ys.filterMap id = [] := by
      intro β f hf
      refine ⟨((first :: rest).map Value.object).map fun _ => none, Fault.mapM_eq_ok ?_, by simp⟩
      intro v hv
      obtain ⟨row, hrow, rfl⟩ := List.mem_map.mp hv
      obtain ⟨k, hk, hmissing⟩ := h row hrow
      exact hf hk hmissing
    have hrows : rowsOf (.list ((first :: rest).map .object)) =
        .ok ((first :: rest).map .object) := rfl
    cases b with
    | total =>
      obtain ⟨k, hk, -⟩ := h first List.mem_cons_self
      cases hk
    | rep =>
      obtain ⟨ys, hys, hnil⟩ := hskip (f := repRow?) personRow?_of_keyless
      simp only [shape, hrows, Except.bind, bind, hys, hnil]
      rfl
    | setter =>
      obtain ⟨ys, hys, hnil⟩ := hskip (f := setterRow?) personRow?_of_keyless
      simp only [shape, hrows, Except.bind, bind, hys, hnil]
      rfl
    | link =>
      obtain ⟨ys, hys, hnil⟩ := hskip linkRow?_of_keyless
      simp only [shape, hrows, Except.bind, bind, hys, hnil]
      rfl
    | time =>
      obtain ⟨ys, hys, hnil⟩ := hskip labelled?_of_keyless
      simp only [shape, hrows, Except.bind, bind, hys, hnil]
      rfl

end Result

namespace Catalog

/-- Appointments counted by rep, without a column that tells of the rep. -/
def keyless : Metric :=
  ⟨"m", "m", "", .rep, .count, "appointments", ["COUNT(*) AS value"], [], [], [], [], none, none,
    [], false⟩

theorem keyless_accepted_unqueryable : audit [("m", keyless)] = .ok () ∧
    keyless.isSpecial = false ∧ selectStrategy keyless .none = .ok (.generic, .rep) ∧
    (∃ q, Plan.generic keyless (.between "north" "2024-01-01" "2024-01-31" [] []) .rep = .ok q ∧
      q.query.columns = ["COUNT(*) AS value"] ∧ ¬ ShowKeys q.query.columns .rep) ∧
    ∀ (counts : List Value) (series : Option (List Calendar.Date)) (gap : Bool),
      Result.shape .rep (.list ((counts.map fun v => [("value", v)]).map .object)) series gap =
        .ok (.rep []) := by
  have haudit : audit [("m", keyless)] = .ok () := audit_eq_ok_iff.mpr (by decide)
  obtain ⟨start, finish, hf⟩ := Filters.checked_of_reasons
    (f := .between "north" "2024-01-01" "2024-01-31" [] []) (by decide)
  have hkeys : ¬ ShowKeys ["COUNT(*) AS value"] .rep := by decide
  refine ⟨haudit, rfl, rfl, ⟨_, Plan.generic_eq rfl hf.days .rep, rfl, hkeys⟩, ?_⟩
  intro counts series gap
  refine Result.shape_of_keyless ?_ series gap
  intro row hrow
  obtain ⟨v, -, rfl⟩ := List.mem_map.mp hrow
  exact ⟨"rep_id", List.mem_cons_self, rfl⟩

end Catalog

end Funnel
