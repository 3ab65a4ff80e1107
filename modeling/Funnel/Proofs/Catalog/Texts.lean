import Funnel.Catalog.Registry
import Funnel.Plan.Generic
import Funnel.Proofs.Named
import Funnel.Proofs.Query.Plain

/-!
# The texts of the catalog

Every text that a table or a metric puts into a query is plain, also the value that a chart or
another breakdown takes out of its column. What is shown of base metrics holds of their families.
-/

set_option autoImplicit false

namespace Funnel

open Fragment

structure Table.PlainTexts (t : Table) : Prop where
  name : Plain t.name
  dateColumn : Plain t.dateColumn
  repColumn : ∀ c ∈ t.repColumn, Plain c
  setterColumn : ∀ c ∈ t.setterColumn, Plain c

theorem plain_repColumn : Plain "sales_rep_user_id" := plain_ofList (by decide)

theorem plain_setterColumn : Plain "setter_user_id" := plain_ofList (by decide)

theorem Table.plainTexts_of_mem {t : Table} (h : t ∈ Table.all) : t.PlainTexts := by
  have hnone : ∀ c ∈ (none : Option String), Plain c := by simp
  have hrep : ∀ c ∈ some "sales_rep_user_id", Plain c := by simpa using plain_repColumn
  have hsetter : ∀ c ∈ some "setter_user_id", Plain c := by simpa using plain_setterColumn
  simp only [Table.all, List.mem_cons, List.not_mem_nil, or_false] at h
  rcases h with rfl | rfl | rfl | rfl | rfl | rfl
  · exact ⟨plain_ofList (by decide), plain_ofList (by decide), hrep, hsetter⟩
  · exact ⟨plain_ofList (by decide), plain_ofList (by decide), hrep, hsetter⟩
  · exact ⟨plain_ofList (by decide), plain_ofList (by decide), hnone, hsetter⟩
  · exact ⟨plain_ofList (by decide), plain_ofList (by decide), hnone, hnone⟩
  · exact ⟨plain_ofList (by decide), plain_ofList (by decide), hnone, hnone⟩
  · exact ⟨plain_ofList (by decide), plain_ofList (by decide), hnone, hsetter⟩

theorem Table.mem_of_named {name : String} {t : Table} (h : Table.named name = .ok t) :
    t ∈ Table.all ∧ t.name = name := by
  unfold Table.named Table.find? at h
  split at h
  · rename_i u hu
    simp only [Except.ok.injEq] at h
    rw [← h]
    exact ⟨List.mem_of_find?_eq_some hu, by simpa using List.find?_some hu⟩
  · simp at h

theorem Table.PlainTexts.keyColumns {t : Table} (h : t.PlainTexts) (b : Breakdown) :
    ∀ c ∈ t.keyColumns b, Plain c := by
  intro c hc
  cases b with
  | total => simp [Table.keyColumns] at hc
  | time => simp [Table.keyColumns] at hc
  | rep => exact h.repColumn c (Option.mem_toList.mp hc)
  | setter => exact h.setterColumn c (Option.mem_toList.mp hc)
  | link =>
    have hsetter := h.setterColumn
    have hrep := h.repColumn
    simp only [Table.keyColumns] at hc
    split at hc
    · rename_i s r hs hr
      rw [hs] at hsetter
      rw [hr] at hrep
      simp only [List.mem_cons, List.not_mem_nil, or_false] at hc
      rcases hc with rfl | rfl
      · exact hsetter c rfl
      · exact hrep c rfl
    · simp at hc

theorem plain_keyName (c : String) : Plain (Table.keyName c) := by
  unfold Table.keyName
  split
  · exact plain_ofList (by decide)
  · exact plain_ofList (by decide)

theorem plain_named {c n : String} (hc : Plain c) (hn : Plain n) : Plain (c ++ " AS " ++ n) := by
  have has : Plain " AS " := plain_ofList (by decide)
  refine plain_append_of_endsApart (plain_append_of_startsApart hc has ?_) hn ?_
  · exact startsApart_ofList (by decide)
  · exact endsApart_append c (endsApart_ofList (by decide))

theorem Table.PlainTexts.keys {t : Table} (h : t.PlainTexts) (b : Breakdown) :
    ∀ p ∈ t.keys b, Plain p.1 ∧ Plain p.2 := by
  intro p hp
  obtain ⟨c, hc, rfl⟩ := List.mem_map.mp hp
  exact ⟨h.keyColumns b c hc, plain_keyName c⟩

theorem plain_valued {v : String} (h : Plain v) : Plain (v ++ " AS value") :=
  plain_append_of_startsApart h (plain_ofList (by decide)) (startsApart_ofList (by decide))

/-- A text with no blank at either end. -/
structure Tight (s : String) : Prop where
  head : ∃ c cs, s.toList = c :: cs ∧ Text.isBlank c = false
  last : ∃ c cs, s.toList = cs ++ [c] ∧ Text.isBlank c = false

theorem tight_ofList {cs : List Char}
    (h : cs.head?.any (!Text.isBlank ·) = true ∧ cs.getLast?.any (!Text.isBlank ·) = true) :
    Tight (String.ofList cs) := by
  obtain ⟨c, hhead, hc⟩ := (Option.any_eq_true _ _).mp h.1
  obtain ⟨d, hlast, hd⟩ := (Option.any_eq_true _ _).mp h.2
  obtain ⟨tail, htail⟩ := List.head?_eq_some_iff.mp hhead
  obtain ⟨front, hfront⟩ := List.getLast?_eq_some_iff.mp hlast
  exact ⟨⟨c, tail, by rw [String.toList_ofList, htail], by simpa using hc⟩,
    d, front, by rw [String.toList_ofList, hfront], by simpa using hd⟩

theorem dropWhile_isBlank_cons {c : Char} (h : Text.isBlank c = false) (cs : List Char) :
    (c :: cs).dropWhile Text.isBlank = c :: cs := by
  rw [List.dropWhile_cons, h]
  rfl

/-- Read from behind, the name and the word before it are skipped and the value is left. -/
theorem aliasedAsValue?_of_reverse {cs r : List Char} {d : Char} (htrim : Text.trimChars cs = cs)
    (hreverse : cs.reverse = 'e' :: 'u' :: 'l' :: 'a' :: 'v' :: ' ' :: 'S' :: 'A' :: ' ' :: d :: r)
    (hd : Text.isBlank d = false) : Metric.aliasedAsValue? cs = some (d :: r).reverse := by
  have hvalue : "eulav".toList = ['e', 'u', 'l', 'a', 'v'] := String.toList_ofList
  have has : "sa".toList = ['s', 'a'] := String.toList_ofList
  have hfirst : ∀ x, Text.dropWord? ['e', 'u', 'l', 'a', 'v']
      ('e' :: 'u' :: 'l' :: 'a' :: 'v' :: x) = some x := fun _ => rfl
  have hsecond : ∀ x, Text.dropWord? ['s', 'a'] ('S' :: 'A' :: x) = some x := fun _ => rfl
  have hblank : ∀ x, (' ' :: x).dropWhile Text.isBlank = x.dropWhile Text.isBlank :=
    fun _ => rfl
  have hS : Text.isBlank 'S' = false := by decide
  rw [Metric.aliasedAsValue?, htrim, hreverse, hvalue, has, hfirst]
  simp only [Option.bind_eq_bind, Option.bind_some, hblank, dropWhile_isBlank_cons hS, hsecond,
    dropWhile_isBlank_cons hd, List.length_cons]
  simp

theorem tight_around {before after : String} (hbefore : Tight before) (hafter : Tight after)
    (x : String) : Tight (before ++ x ++ after) := by
  obtain ⟨c, cs, hc⟩ := hbefore.head
  obtain ⟨d, ds, hd⟩ := hafter.last
  exact ⟨⟨c, cs ++ x.toList ++ after.toList, by simp [hc.1], hc.2⟩,
    d, before.toList ++ x.toList ++ ds, by simp [hd.1], hd.2⟩

theorem valueOf?_named {v : String} (h : Tight v) :
    Metric.valueOf? (v ++ " AS value") = some v := by
  obtain ⟨⟨c, cs, hhead, hc⟩, d, ds, hlast, hd⟩ := h
  have hword : " AS value".toList = [' ', 'A', 'S', ' ', 'v', 'a', 'l', 'u', 'e'] :=
    String.toList_ofList
  have htrim : Text.trimChars (v ++ " AS value").toList = (v ++ " AS value").toList := by
    apply Text.trimChars_eq_self
    · intro x hx
      rw [String.toList_append, hhead] at hx
      cases hx
      exact hc
    · intro x hx
      rw [String.toList_append, hword] at hx
      simp only [List.getLast?_append, List.getLast?_cons_cons, List.getLast?_singleton,
        Option.some_or, Option.mem_def, Option.some.injEq] at hx
      rw [← hx]
      decide
  have hreverse : (v ++ " AS value").toList.reverse =
      'e' :: 'u' :: 'l' :: 'a' :: 'v' :: ' ' :: 'S' :: 'A' :: ' ' :: d :: ds.reverse := by
    rw [String.toList_append, hword, hlast]
    simp
  rw [Metric.valueOf?, aliasedAsValue?_of_reverse htrim hreverse hd, List.reverse_cons,
    List.reverse_reverse, ← hlast, Option.map_some, String.ofList_toList]

/-- A text whose last letter is not that of `value` names no value. -/
def NamesOther (s : String) : Prop :=
  ∃ cs c, s.toList = cs ++ [c] ∧ Text.isBlank c = false ∧ Text.foldChar c ≠ 'e'

theorem namesOther_ofList {cs : List Char}
    (h : cs.getLast?.any (fun c => !Text.isBlank c && Text.foldChar c != 'e') = true) :
    NamesOther (String.ofList cs) := by
  obtain ⟨c, hlast, hc⟩ := (Option.any_eq_true _ _).mp h
  obtain ⟨front, rfl⟩ := List.getLast?_eq_some_iff.mp hlast
  exact ⟨front, c, String.toList_ofList, by simpa using hc⟩

theorem namesOther_append (a : String) {b : String} (h : NamesOther b) : NamesOther (a ++ b) := by
  obtain ⟨cs, c, hb, hc⟩ := h
  exact ⟨a.toList ++ cs, c, by simp [hb], hc⟩

theorem valueOf?_of_namesOther {s : String} (h : NamesOther s) : Metric.valueOf? s = none := by
  obtain ⟨cs, c, hs, hblank, hfold⟩ := h
  have hvalue : "eulav".toList = ['e', 'u', 'l', 'a', 'v'] := String.toList_ofList
  have hkept : ∃ front, (cs ++ [c]).dropWhile Text.isBlank = front ++ [c] := by
    rw [List.dropWhile_append, dropWhile_isBlank_cons hblank]
    split
    · exact ⟨[], rfl⟩
    · exact ⟨_, rfl⟩
  obtain ⟨front, hfront⟩ := hkept
  have htrim : (Text.trimChars s.toList).reverse = c :: front.reverse := by
    rw [hs, Text.trimChars, hfront, List.reverse_reverse, List.reverse_concat,
      dropWhile_isBlank_cons hblank]
  have hnone : Metric.aliasedAsValue? s.toList = none := by
    rw [Metric.aliasedAsValue?, htrim, hvalue, Text.dropWord?, if_neg hfold]
    rfl
  rw [Metric.valueOf?, hnone, Option.map_none]

/-- Texts of a metric that have, part by part, the properties of their parts. -/
structure Metric.Texts (Column Value Condition Order : String → Prop) (m : Metric) : Prop where
  columns : ∀ s ∈ m.columns, Column s
  value : Value (valueText m)
  conditions : ∀ s ∈ m.conditions, Condition s
  groups : ∀ s ∈ m.groups, Value s
  having : ∀ s ∈ m.having, Condition s
  order : ∀ s ∈ m.order, Order s

abbrev Metric.PlainTexts (m : Metric) : Prop := m.Texts Plain Plain Plain Plain

/-- A plain text that can be taken out of a column again. -/
structure Figurable (v : String) : Prop extends Plain v, Tight v

theorem figurable_ofList {cs : List Char}
    (h : (QuietChars cs ∧ '$' ∉ cs ∧ depth? 0 cs = some 0) ∧
      cs.head?.any (!Text.isBlank ·) = true ∧ cs.getLast?.any (!Text.isBlank ·) = true) :
    Figurable (String.ofList cs) :=
  ⟨plain_ofList h.1, tight_ofList h.2⟩

namespace Registry

theorem figurable_rows : Figurable rows := figurable_ofList (by decide)

theorem figurable_ratio {numerator denominator : String} (hn : Plain numerator)
    (hd : Plain denominator) : Figurable (ratio numerator denominator) := by
  have hopen : EndsApart "COALESCE((" := endsApart_ofList (by decide)
  have hover : EndsApart ")::numeric / NULLIF(" := endsApart_ofList (by decide)
  have hquiet : Quiet (ratio numerator denominator) := by
    refine quiet_insert (quiet_insert ?_ hn.toQuiet ?_ hopen ?_) hd.toQuiet ?_ ?_ ?_
    · exact quiet_ofList (by decide)
    · exact quiet_ofList (by decide)
    · exact startsApart_ofList (by decide)
    · exact quiet_ofList (by decide)
    · exact endsApart_append _ hover
    · exact startsApart_ofList (by decide)
  have hdollar : '$' ∉ (ratio numerator denominator).toList := by
    simp only [ratio, String.toList_append, List.mem_append, not_or]
    exact ⟨⟨⟨⟨noDollar_ofList (by decide), hn.noDollar⟩, noDollar_ofList (by decide)⟩,
      hd.noDollar⟩, noDollar_ofList (by decide)⟩
  have hbalanced : Balanced (ratio numerator denominator) := by
    have hclosed : Balanced (("COALESCE((" ++ ")::numeric / NULLIF(") ++ ", 0), 0)") := by
      rw [Fragment.Balanced, String.toList_append, String.toList_append,
        String.toList_ofList, String.toList_ofList, String.toList_ofList]
      decide
    have hinner := balanced_insert hclosed hd.balanced
    rw [String.append_assoc, String.append_assoc] at hinner
    have houter := balanced_insert hinner hn.balanced
    simpa only [ratio, String.append_assoc] using houter
  have htight : Tight (ratio numerator denominator) := by
    have hends : Tight "COALESCE((" ∧ Tight ", 0), 0)" :=
      ⟨tight_ofList (by decide), tight_ofList (by decide)⟩
    have := tight_around hends.1 hends.2 (numerator ++ ")::numeric / NULLIF(" ++ denominator)
    simpa only [ratio, String.append_assoc] using this
  exact ⟨⟨⟨hquiet, hbalanced⟩, hdollar⟩, htight⟩

theorem valueText_total {key name description table value : String} {unit : MetricUnit}
    {gap : Bool} {conditions : List String} {options : Fields} (hv : Tight value) :
    valueText (total key name description unit table value gap conditions options) = value := by
  simp only [valueText, Metric.valueExpression?, total, List.findSome?_singleton,
    valueOf?_named hv, Option.getD_some]

theorem valueText_byRep {key name description value : String} {unit : MetricUnit} {gap : Bool}
    {conditions : List String} (hv : Tight value) :
    valueText (byRep key name description unit value gap conditions) = value := by
  have hrep : Metric.valueOf? "sales_rep_user_id AS rep_id" = none :=
    valueOf?_of_namesOther (namesOther_ofList (by decide))
  simp only [valueText, Metric.valueExpression?, byRep, List.findSome?_cons, hrep,
    valueOf?_named hv, Option.getD_some]

def personKeys : List (String × String) :=
  [("sales_rep_user_id", "rep_id"), ("setter_user_id", "setter_id")]

theorem namesOther_personKeys {p : String × String} (h : p ∈ personKeys) : NamesOther p.2 := by
  simp only [personKeys, List.mem_cons, List.not_mem_nil, or_false] at h
  rcases h with rfl | rfl
  · exact namesOther_ofList (by decide)
  · exact namesOther_ofList (by decide)

theorem valueText_countBy {key name description : String} {b : Breakdown}
    {keys : List (String × String)} (hkeys : keys ⊆ personKeys) :
    valueText (countBy key name description b keys) = rows := by
  have hnone : (keys.map fun p => p.1 ++ " AS " ++ p.2).findSome? Metric.valueOf? = none := by
    rw [List.findSome?_eq_none_iff]
    intro s hs
    obtain ⟨p, hp, rfl⟩ := List.mem_map.mp hs
    exact valueOf?_of_namesOther (namesOther_append _ (namesOther_personKeys (hkeys hp)))
  change (((keys.map fun p => p.1 ++ " AS " ++ p.2) ++ [rows ++ " AS value"]).findSome?
    Metric.valueOf?).getD "None" = rows
  rw [List.findSome?_append, hnone, Option.none_or]
  exact congrArg (·.getD "None") (valueOf?_named figurable_rows.toTight)

/-- Metrics that are built in one of three ways, from values that have one property and conditions
that have another. -/
inductive Built (P C : String → Prop) : Metric → Prop where
  | total {key name description table value : String} {unit : MetricUnit} {gap : Bool}
      {conditions : List String} {options : Fields} (hv : P value) (hc : ∀ s ∈ conditions, C s) :
      Built P C (Registry.total key name description unit table value gap conditions options)
  | byRep {key name description value : String} {unit : MetricUnit} {gap : Bool}
      {conditions : List String} (hv : P value) (hc : ∀ s ∈ conditions, C s) :
      Built P C (Registry.byRep key name description unit value gap conditions)
  | countBy {key name description : String} {b : Breakdown} {keys : List (String × String)}
      (hkeys : keys ⊆ personKeys) : Built P C (Registry.countBy key name description b keys)

structure Figures (P : String → Prop) : Prop where
  rows : P rows
  shows : P shows
  wins : P wins
  cash : P cash
  revenue : P revenue
  answered : P answered
  meaningful : P meaningful
  booked : P booked
  paid : P "COUNT(*) FILTER (WHERE show_outcome = 'won' AND pif IS TRUE)"
  quality : P "COALESCE(AVG(lead_quality), 0)"
  duration : P "COALESCE(AVG(duration), 0)"
  leads : P "COUNT(DISTINCT id)"
  spend : P "COALESCE(SUM(spend), 0)"
  ratio : ∀ n d, P n → P d → P (ratio n d)

def ownConditions : List String :=
  ["setter_user_id IS NOT NULL", "lead_quality IS NOT NULL", "LOWER(call_outcome) = 'show'",
    "meaningful_conversation IS TRUE", "answered IS TRUE", "duration > 0"]

section Built

variable {P C : String → Prop} (hP : Figures P) (hC : ∀ s ∈ ownConditions, C s)
include hP hC

theorem built_appointmentMetrics : ∀ m ∈ appointmentMetrics, Built P C m := by
  have hnone : ∀ s ∈ ([] : List String), C s := List.forall_mem_nil _
  have hown : ∀ cs ⊆ ownConditions, ∀ s ∈ cs, C s := fun cs hcs s hs => hC s (hcs hs)
  intro m hm
  simp only [appointmentMetrics, List.mem_cons, List.not_mem_nil, or_false] at hm
  rcases hm with rfl | rfl | rfl | rfl | rfl | rfl | rfl | rfl | rfl | rfl | rfl | rfl | rfl |
    rfl | rfl | rfl | rfl | rfl | rfl | rfl | rfl
  · exact .total hP.rows hnone
  · exact .total hP.shows hnone
  · exact .total hP.wins hnone
  · exact .total (hP.ratio _ _ hP.shows hP.rows) hnone
  · exact .total (hP.ratio _ _ hP.wins hP.rows) hnone
  · exact .total (hP.ratio _ _ hP.wins hP.shows) hnone
  · exact .total (hP.ratio _ _ hP.wins hP.rows) (hown _ (by decide))
  · exact .total hP.cash hnone
  · exact .total (hP.ratio _ _ hP.cash hP.wins) hnone
  · exact .total (hP.ratio _ _ hP.cash hP.rows) hnone
  · exact .total (hP.ratio _ _ hP.revenue hP.wins) hnone
  · exact .total hP.revenue hnone
  · exact .total (hP.ratio _ _ hP.paid hP.wins) hnone
  · exact .total (hP.ratio _ _ hP.cash hP.revenue) hnone
  · exact .total hP.quality (hown _ (by decide))
  · exact .countBy (by decide)
  · exact .countBy (by decide)
  · exact .countBy (by decide)
  · exact .byRep (hP.ratio _ _ hP.shows hP.rows) hnone
  · exact .byRep (hP.ratio _ _ hP.wins hP.rows) (hown _ (by decide))
  · exact .byRep hP.cash hnone

theorem built_discoveryMetrics : ∀ m ∈ discoveryMetrics, Built P C m := by
  have hnone : ∀ s ∈ ([] : List String), C s := List.forall_mem_nil _
  have hrated : ∀ s ∈ ["lead_quality IS NOT NULL"], C s := by
    simpa using hC _ (by decide)
  intro m hm
  simp only [discoveryMetrics, List.mem_cons, List.not_mem_nil, or_false] at hm
  rcases hm with rfl | rfl | rfl
  · exact .total hP.rows hnone
  · exact .total hP.shows hnone
  · exact .total hP.quality hrated

theorem built_dialMetrics : ∀ m ∈ dialMetrics, Built P C m := by
  have hnone : ∀ s ∈ ([] : List String), C s := List.forall_mem_nil _
  have hown : ∀ cs ⊆ ownConditions, ∀ s ∈ cs, C s := fun cs hcs s hs => hC s (hcs hs)
  intro m hm
  simp only [dialMetrics, List.mem_cons, List.not_mem_nil, or_false] at hm
  rcases hm with rfl | rfl | rfl | rfl | rfl | rfl | rfl | rfl | rfl | rfl
  · exact .total hP.rows hnone
  · exact .total hP.answered hnone
  · exact .total hP.meaningful hnone
  · exact .total hP.booked hnone
  · exact .total hP.duration (hown _ (by decide))
  · exact .total hP.duration (hown _ (by decide))
  · exact .total (hP.ratio _ _ hP.answered hP.rows) hnone
  · exact .total (hP.ratio _ _ hP.rows hP.booked) hnone
  · exact .total (hP.ratio _ _ hP.meaningful hP.answered) hnone
  · exact .total (hP.ratio _ _ hP.booked hP.meaningful) hnone

omit hC in
theorem built_leadMetrics : ∀ m ∈ leadMetrics, Built P C m := by
  intro m hm
  simp only [leadMetrics, List.mem_cons, List.not_mem_nil, or_false] at hm
  rcases hm with rfl | rfl
  · exact .total hP.leads (List.forall_mem_nil _)
  · exact .total hP.spend (List.forall_mem_nil _)

theorem built_baseMetrics : ∀ m ∈ baseMetrics, Built P C m := by
  intro m hm
  simp only [baseMetrics, List.mem_append] at hm
  rcases hm with ((hm | hm) | hm) | hm
  · exact built_appointmentMetrics hP hC m hm
  · exact built_discoveryMetrics hP hC m hm
  · exact built_dialMetrics hP hC m hm
  · exact built_leadMetrics hP m hm

end Built

theorem figures_figurable : Figures Figurable where
  rows := figurable_rows
  shows := figurable_ofList (by decide)
  wins := figurable_ofList (by decide)
  cash := figurable_ofList (by decide)
  revenue := figurable_ofList (by decide)
  answered := figurable_ofList (by decide)
  meaningful := figurable_ofList (by decide)
  booked := figurable_ofList (by decide)
  paid := figurable_ofList (by decide)
  quality := figurable_ofList (by decide)
  duration := figurable_ofList (by decide)
  leads := figurable_ofList (by decide)
  spend := figurable_ofList (by decide)
  ratio := fun _ _ hn hd => figurable_ratio hn.toPlain hd.toPlain

theorem plain_ownConditions : ∀ s ∈ ownConditions, Plain s := by
  simp only [ownConditions, List.forall_mem_cons]
  exact ⟨plain_ofList (by decide), plain_ofList (by decide), plain_ofList (by decide),
    plain_ofList (by decide), plain_ofList (by decide), plain_ofList (by decide),
    List.forall_mem_nil _⟩

theorem textless_specialMetrics : ∀ m ∈ specialMetrics, m.columns = [] ∧ m.conditions = [] ∧
    m.groups = [] ∧ m.having = [] ∧ m.order = [] := by decide

theorem valueText_of_columns {m : Metric} (h : m.columns = []) : valueText m = "None" := by
  rw [valueText, Metric.valueExpression?, h]
  rfl

/-- What every metric is built with, whatever its own values and conditions are. -/
structure Parts (Column Value Condition Order : String → Prop) : Prop where
  keyed : ∀ p ∈ personKeys, Value p.1 ∧ Column (p.1 ++ " AS " ++ p.2)
  valued : ∀ v, Value v → Column (v ++ " AS value")
  rows : Value rows
  nonempty : Condition "COUNT(*) > 0"
  byValue : Order "value DESC"
  none : Value "None"

theorem plain_parts : Parts Plain Plain Plain Plain where
  keyed := by
    intro p hp
    simp only [personKeys, List.mem_cons, List.not_mem_nil, or_false] at hp
    rcases hp with rfl | rfl
    · exact ⟨plain_repColumn, plain_named plain_repColumn (plain_ofList (by decide))⟩
    · exact ⟨plain_setterColumn, plain_named plain_setterColumn (plain_ofList (by decide))⟩
  valued := fun _ => plain_valued
  rows := figurable_rows.toPlain
  nonempty := plain_ofList (by decide)
  byValue := plain_ofList (by decide)
  none := plain_ofList (by decide)

section Texts

variable {Column Value Condition Order : String → Prop}
  (hparts : Parts Column Value Condition Order)
include hparts

theorem texts_of_built {P : String → Prop} (hP : ∀ s, P s → Tight s ∧ Value s) {m : Metric}
    (h : Built P Condition m) : m.Texts Column Value Condition Order := by
  cases h with
  | @total key name description table value unit gap conditions options hv hc =>
    obtain ⟨htight, hvalue⟩ := hP value hv
    refine ⟨?_, ?_, hc, List.forall_mem_nil _, List.forall_mem_nil _, List.forall_mem_nil _⟩
    · intro s hs
      rw [List.mem_singleton.mp hs]
      exact hparts.valued value hvalue
    · rwa [valueText_total htight]
  | @byRep key name description value unit gap conditions hv hc =>
    obtain ⟨htight, hvalue⟩ := hP value hv
    have hrep := hparts.keyed ("sales_rep_user_id", "rep_id") (by decide)
    refine ⟨?_, ?_, hc, ?_, ?_, ?_⟩
    · simpa [byRep] using ⟨hrep.2, hparts.valued value hvalue⟩
    · rwa [valueText_byRep htight]
    · simpa [byRep] using hrep.1
    · simpa [byRep] using hparts.nonempty
    · simpa [byRep] using hparts.byValue
  | @countBy key name description b keys hkeys =>
    refine ⟨?_, ?_, List.forall_mem_nil _, ?_, List.forall_mem_nil _, ?_⟩
    · intro s hs
      rcases List.mem_append.mp hs with hs | hs
      · obtain ⟨p, hp, rfl⟩ := List.mem_map.mp hs
        exact (hparts.keyed p (hkeys hp)).2
      · rw [List.mem_singleton.mp hs]
        exact hparts.valued _ hparts.rows
    · rw [valueText_countBy hkeys]
      exact hparts.rows
    · intro s hs
      obtain ⟨p, hp, rfl⟩ := List.mem_map.mp hs
      exact (hparts.keyed p (hkeys hp)).1
    · simpa [countBy] using hparts.byValue

theorem texts_specialMetrics : ∀ m ∈ specialMetrics,
    m.Texts Column Value Condition Order := by
  intro m hm
  obtain ⟨hcolumns, hconditions, hgroups, hhaving, horder⟩ := textless_specialMetrics m hm
  refine ⟨?_, valueText_of_columns hcolumns ▸ hparts.none, ?_, ?_, ?_, ?_⟩
  · exact hcolumns ▸ List.forall_mem_nil _
  · exact hconditions ▸ List.forall_mem_nil _
  · exact hgroups ▸ List.forall_mem_nil _
  · exact hhaving ▸ List.forall_mem_nil _
  · exact horder ▸ List.forall_mem_nil _

end Texts

end Registry

theorem Table.keys_subset {t : Table} (ht : t ∈ all) (b : Breakdown) :
    t.keys b ⊆ Registry.personKeys := by
  have hall : ∀ t ∈ all, ∀ b ∈ Breakdown.all, t.keys b ⊆ Registry.personKeys := by
    decide
  have hb : b ∈ Breakdown.all := by cases b <;> decide
  exact hall t ht b hb

theorem Metric.forall_family {Q : Metric → Prop} {m : Metric} {key : String}
    (hvariant : ∀ a ∈ Attribution.applicable m.table, Q (m.variant key a))
    (hown : Q (m.unattributed key)) : ∀ p ∈ m.family key, Q p.2 := by
  intro p hp
  rcases List.mem_append.mp hp with hp | hp
  · obtain ⟨a, ha, rfl⟩ := List.mem_map.mp hp
    exact hvariant a ha
  · rw [List.mem_singleton.mp hp]
    exact hown

theorem Metric.Texts.family {Column Value Condition Order : String → Prop} {m : Metric}
    (h : m.Texts Column Value Condition Order) (key : String) :
    ∀ p ∈ m.family key, p.2.Texts Column Value Condition Order :=
  Metric.forall_family
    (fun _ _ => ⟨h.columns, h.value, h.conditions, h.groups, h.having, h.order⟩)
    ⟨h.columns, h.value, h.conditions, h.groups, h.having, h.order⟩

/-- A member of a family is the base metric but for its names and its attribution. -/
structure Metric.Variant (m base : Metric) : Prop where
  breakdown : m.breakdown = base.breakdown
  unit : m.unit = base.unit
  table : m.table = base.table
  formula : m.formula = base.formula
  attribution : ∀ a, m.attribution = some a → a ∈ Attribution.applicable base.table

theorem Metric.variant_of_mem_family {m : Metric} {key : String} {p : String × Metric}
    (hp : p ∈ m.family key) : p.2.Variant m :=
  Metric.forall_family (Q := fun q => q.Variant m)
    (fun _ ha => ⟨rfl, rfl, rfl, rfl, fun _ h => Option.some.inj h ▸ ha⟩)
    ⟨rfl, rfl, rfl, rfl, nofun⟩ p hp

/-- What holds of the families of all base metrics holds of their catalog. -/
theorem Metric.forall_families {Q : Metric → Prop} {base : Named Metric}
    (h : ∀ p ∈ base, ∀ q ∈ p.2.family p.1, Q q.2) : ∀ q ∈ Metric.families base, Q q.2 := by
  unfold Metric.families
  have hnil : ∀ q ∈ ([] : Named Metric), Q q.2 := fun q hq => absurd hq List.not_mem_nil
  generalize ([] : Named Metric) = all at hnil
  induction base generalizing all with
  | nil => exact hnil
  | cons p rest ih =>
    rw [List.foldl_cons]
    exact ih (fun q hq => h q (List.mem_cons_of_mem p hq)) _
      (Named.forall_values_putAll hnil (h p List.mem_cons_self))

namespace Registry

/-- What holds of every family of a base metric and of every special metric holds of whatever the
registry holds. -/
theorem of_find? {Q : Metric → Prop} (hbase : ∀ m ∈ baseMetrics, ∀ p ∈ m.family m.key, Q p.2)
    (hspecial : ∀ m ∈ specialMetrics, Q m) {name : String} {m : Metric}
    (h : find? name = some m) : Q m := by
  have hkeyed : ∀ {ms : List Metric} {p : String × Metric}, p ∈ keyed ms →
      ∃ m ∈ ms, (m.key, m) = p := fun hp => List.mem_map.mp hp
  have hfamilies : ∀ q ∈ Metric.families (keyed baseMetrics), Q q.2 := by
    apply Metric.forall_families
    intro p hp
    obtain ⟨m, hm, rfl⟩ := hkeyed hp
    exact hbase m hm
  have hspecials : ∀ p ∈ keyed specialMetrics, Q p.2 := by
    intro p hp
    obtain ⟨m, hm, rfl⟩ := hkeyed hp
    exact hspecial m hm
  exact Named.forall_values_putAll hfamilies hspecials (name, m) (Named.mem_of_find? h)

theorem variant_or_special {name : String} {m : Metric} (h : find? name = some m) :
    (∃ base ∈ baseMetrics, m.Variant base) ∨ m ∈ specialMetrics :=
  of_find? (Q := fun m => (∃ base ∈ baseMetrics, m.Variant base) ∨ m ∈ specialMetrics)
    (fun base hbase _ hp => .inl ⟨base, hbase, Metric.variant_of_mem_family hp⟩)
    (fun _ hm => .inr hm) h

/-- Base metrics have no formula, and their variants have none. -/
theorem special_of_formula {name : String} {m : Metric} (h : find? name = some m) {fm : Formula}
    (hfm : m.formula = some fm) : m ∈ specialMetrics := by
  have hbase : ∀ m ∈ baseMetrics, m.formula = none := by decide
  rcases variant_or_special h with ⟨base, hmem, hvariant⟩ | hmem
  · rw [hvariant.formula, hbase base hmem] at hfm
    cases hfm
  · exact hmem

theorem nodup_specialKeys : (keyed specialMetrics).names.Nodup := by decide

theorem find?_special {m : Metric} (h : m ∈ specialMetrics) : find? m.key = some m :=
  Named.find?_putAll_of_mem nodup_specialKeys (List.mem_map.mpr ⟨m, h, rfl⟩)

theorem find?_cashPerDial : find? "cash_per_dial" = some specialMetrics[12] :=
  @find?_special specialMetrics[12] (List.getElem_mem _)

theorem texts_of_find? {P Column Value Condition Order : String → Prop}
    (hparts : Parts Column Value Condition Order) (hfigures : Figures P)
    (hP : ∀ s, P s → Tight s ∧ Value s) (hown : ∀ s ∈ ownConditions, Condition s)
    {name : String} {m : Metric} (h : find? name = some m) :
    m.Texts Column Value Condition Order := by
  refine of_find? (fun m hm => ?_) (texts_specialMetrics hparts) h
  exact (texts_of_built hparts hP (built_baseMetrics hfigures hown m hm)).family m.key

theorem plainTexts_of_find? {name : String} {m : Metric} (h : find? name = some m) :
    m.PlainTexts :=
  texts_of_find? plain_parts figures_figurable (fun _ hs => ⟨hs.toTight, hs.toPlain⟩)
    plain_ownConditions h

end Registry

theorem plain_ownerColumn (a : Attribution) : Plain a.ownerColumn := by
  cases a with
  | assigned => exact plain_repColumn
  | booked => exact plain_setterColumn
  | dialer => exact plain_setterColumn

theorem plain_ownerConditions (a : Option Attribution) : ∀ s ∈ ownerConditions a none, Plain s := by
  intro s hs
  cases a with
  | none => simp [ownerConditions] at hs
  | some a =>
    rw [List.mem_singleton.mp hs]
    exact plain_append_of_startsApart (plain_ownerColumn a) (plain_ofList (by decide))
      (startsApart_ofList (by decide))

end Funnel
