import Mathlib.Data.List.Sort
import Funnel.Proofs.Engine.Pointwise

/-!
# Rows laid along a series

A chart finds the rows of the store by their labels. Of the rows with one label the last counts, and
rows without a label are left out. Along a series every bucket has a row, whether the store has one
for it or not; without a series there is a row for each label. Rows with labels of their own can
therefore come in any order.
-/

set_option autoImplicit false

namespace Funnel.Result

open Calendar

/-- The label of a row: the first ten characters of its date as text, if a date is given. -/
def label? (row : Fields) : Option String :=
  let date := (row.find? "date").getD .null
  if date.isGiven then some (String.ofList (date.toText.toList.take 10)) else none

def amount (row : Fields) : Except Fault (Option Float) :=
  ((row.find? "value").getD .null).number?

def amount? (row : Fields) : Option Float := (amount row).toOption.join

/-- The number of the last row with a label; none without such a row, or where it is no number. -/
def lastAmount (rows : List Fields) (label : String) : Option Float :=
  ((rows.filter fun row => label? row = some label).getLast?).bind amount?

def labels (rows : List Fields) : Named (Option Float) :=
  rows.filterMap fun row => (label? row).map fun label => (label, amount? row)

variable {row : Fields} {rows others : List Fields} {label : String}

theorem labelled?_object (h : ∃ x, amount row = .ok x) :
    labelled? (.object row) = .ok ((label? row).map fun label => (label, amount? row)) := by
  obtain ⟨x, hx⟩ := h
  have hamount : amount? row = x := by rw [amount?, hx]; rfl
  rw [hamount]
  refine Fault.bind_eq_ok_iff.mpr ⟨_, rfl, ?_⟩
  unfold label?
  dsimp only
  split
  · exact Fault.bind_eq_ok_iff.mpr ⟨_, rfl, Fault.bind_eq_ok_iff.mpr ⟨x, hx, rfl⟩⟩
  · rfl

theorem shape_time_rows (h : ∀ row ∈ rows, ∃ x, amount row = .ok x) (series : Option (List Date))
    (gap : Bool) : shape .time (.list (rows.map .object)) series gap =
      .ok (.time (chart (byLabel (labels rows)) series gap)) := by
  refine Fault.bind_eq_ok_iff.mpr ⟨_, Engine.rowsOf_list _, ?_⟩
  have hread : (rows.map Value.object).mapM labelled? =
      .ok (rows.map fun row => (label? row).map fun label => (label, amount? row)) := by
    rw [List.mapM_map]
    exact Fault.mapM_eq_ok fun row hrow => labelled?_object (h row hrow)
  refine Fault.bind_eq_ok_iff.mpr ⟨_, hread, ?_⟩
  rw [List.filterMap_map]
  rfl

theorem find?_byLabel (rows : List Fields) (label : String) :
    ((byLabel (labels rows)).find? label).getD none = lastAmount rows label := by
  have hlast := Named.find?_putAll_keyed label? amount? rows label
  change (byLabel (labels rows)).find? label = _ at hlast
  rw [hlast, lastAmount]
  cases (rows.filter fun row => label? row = some label).getLast? <;> rfl

theorem length_filter_label (rows : List Fields) (label : String) :
    (rows.filter fun row => label? row = some label).length =
      (rows.filterMap label?).count label := by
  rw [← List.countP_eq_length_filter, List.count, List.countP_filterMap]
  refine List.countP_congr fun row _ => ?_
  cases label? row <;> simp

/-- Rows with labels of their own can be put in another order. -/
theorem lastAmount_perm (h : rows.Perm others) (hdistinct : (rows.filterMap label?).Nodup)
    (label : String) : lastAmount others label = lastAmount rows label := by
  have hfilter := h.filter fun row => decide (label? row = some label)
  have hfew : (rows.filter fun row => label? row = some label).length ≤ 1 := by
    rw [length_filter_label]
    exact List.nodup_iff_count_le_one.mp hdistinct label
  have hsame : (others.filter fun row => label? row = some label) =
      rows.filter fun row => label? row = some label := by
    cases hrows : rows.filter fun row => label? row = some label with
    | nil =>
      rw [hrows] at hfilter
      exact hfilter.nil_eq.symm
    | cons row more =>
      rw [hrows, List.length_cons] at hfew
      obtain rfl : more = [] := List.length_eq_zero_iff.mp (by omega)
      rw [hrows] at hfilter
      exact List.perm_singleton.mp hfilter.symm
  rw [lastAmount, hsame, lastAmount]

def sortedLabels (rows : List Fields) : List String :=
  Named.names ((byLabel (labels rows)).mergeSort fun a b => decide (a.1 ≤ b.1))

theorem mem_sortedLabels : label ∈ sortedLabels rows ↔ ∃ row ∈ rows, label? row = some label := by
  rw [sortedLabels, Named.names, ((List.mergeSort_perm _ _).map Prod.fst).mem_iff, ← Named.names,
    byLabel, Named.names_putAll_nil, List.mem_eraseDups]
  change label ∈ (Named.keyed label? amount? rows).names ↔ _
  rw [Named.names_keyed, List.mem_filterMap]

theorem nodup_names_byLabel (rows : List Fields) : (byLabel (labels rows)).names.Nodup :=
  @Named.nodup_names_putAll _ [] List.nodup_nil _

theorem pairwise_sortedLabels (rows : List Fields) : (sortedLabels rows).Pairwise (· < ·) := by
  have hsorted : (sortedLabels rows).Pairwise (· ≤ ·) := by
    have htrans : ∀ a b c : String × Option Float, decide (a.1 ≤ b.1) = true →
        decide (b.1 ≤ c.1) = true → decide (a.1 ≤ c.1) = true := by
      simp only [decide_eq_true_eq]
      exact fun _ _ _ => String.le_trans
    have htotal : ∀ a b : String × Option Float,
        (decide (a.1 ≤ b.1) || decide (b.1 ≤ a.1)) = true := by
      simp only [Bool.or_eq_true, decide_eq_true_eq]
      exact fun a b => String.le_total a.1 b.1
    have hpairs := List.pairwise_mergeSort htrans htotal (byLabel (labels rows))
    simp only [decide_eq_true_eq] at hpairs
    exact List.pairwise_map.mpr hpairs
  have hdistinct : (sortedLabels rows).Nodup :=
    ((List.mergeSort_perm _ _).map Prod.fst).nodup_iff.mpr (nodup_names_byLabel rows)
  refine (hsorted.and hdistinct).imp ?_
  intro a b ⟨hle, hne⟩
  exact String.not_le.mp fun hge => hne (String.le_antisymm hle hge)

theorem chart_none (rows : List Fields) (gap : Bool) : chart (byLabel (labels rows)) none gap =
    (sortedLabels rows).map fun label => ⟨label, (lastAmount rows label).or (missing gap)⟩ := by
  rw [sortedLabels, Named.names, List.map_map]
  refine List.map_congr_left fun p hp => ?_
  have hfind : (byLabel (labels rows)).find? p.1 = some p.2 :=
    Named.find?_of_mem (nodup_names_byLabel rows) (List.mem_mergeSort.mp hp)
  have hlast := find?_byLabel rows p.1
  rw [hfind, Option.getD_some] at hlast
  rw [Function.comp_apply, ← hlast]

theorem chart_some (rows : List Fields) (series : List Date) (gap : Bool) :
    chart (byLabel (labels rows)) (some series) gap =
      series.map fun d => ⟨d.iso, (lastAmount rows d.iso).or (missing gap)⟩ := by
  refine List.map_congr_left fun d _ => ?_
  rw [find?_byLabel]

theorem sortedLabels_perm (h : rows.Perm others) : sortedLabels others = sortedLabels rows := by
  refine (pairwise_sortedLabels others).eq_of_mem_iff (pairwise_sortedLabels rows) fun label => ?_
  rw [mem_sortedLabels, mem_sortedLabels]
  exact exists_congr fun row => and_congr_left' h.symm.mem_iff

/-- Rows whose values can be read make a chart. Along a series it has exactly one row for each day,
in the order of the series, with the number of the last row that is labelled with the day, and with
a zero or a gap where there is no such row or where its value is no number. Without a series its
rows are those of the labels, in strictly increasing order, and of several rows with one label the
last counts too. If no two rows have the same label, their order does not matter. -/
theorem rows_aligned (h : ∀ row ∈ rows, ∃ x, amount row = .ok x) (gap : Bool) :
    (∀ series, shape .time (.list (rows.map .object)) (some series) gap =
      .ok (.time (series.map fun d => ⟨d.iso, (lastAmount rows d.iso).or (missing gap)⟩))) ∧
    (∃ shown : List String, shown.Pairwise (· < ·) ∧
      (∀ label, label ∈ shown ↔ ∃ row ∈ rows, label? row = some label) ∧
      shape .time (.list (rows.map .object)) none gap = .ok (.time
        (shown.map fun label => ⟨label, (lastAmount rows label).or (missing gap)⟩))) ∧
    ∀ others, rows.Perm others → (rows.filterMap label?).Nodup → ∀ series,
      shape .time (.list (others.map .object)) series gap =
        shape .time (.list (rows.map .object)) series gap := by
  refine ⟨fun series => ?_, ⟨sortedLabels rows, pairwise_sortedLabels rows,
    fun _ => mem_sortedLabels, ?_⟩, fun others hperm hdistinct series => ?_⟩
  · rw [shape_time_rows h, chart_some]
  · rw [shape_time_rows h, chart_none]
  · have hothers : ∀ row ∈ others, ∃ x, amount row = .ok x :=
      fun row hrow => h row (hperm.mem_iff.mpr hrow)
    have hlast : lastAmount others = lastAmount rows := funext (lastAmount_perm hperm hdistinct)
    rw [shape_time_rows h, shape_time_rows hothers]
    cases series with
    | none => rw [chart_none, chart_none, sortedLabels_perm hperm, hlast]
    | some series => rw [chart_some, chart_some, hlast]

/-- Two rows of one day of which the first has a time and the last no number, a row of the day
before, and one without a label. -/
def mixedRows : List Fields :=
  [[("date", .text "2024-03-02T08:00:00"), ("value", .double 5.0)],
    [("date", .text "2024-03-01"), ("value", .double 7.0)],
    [("date", .null), ("value", .double 9.0)],
    [("date", .text "2024-03-02"), ("value", .text "n/a")]]

theorem rows_aligned_mixedRows : ∃ first second : Date,
    first.iso = "2024-03-01" ∧ second.iso = "2024-03-02" ∧
    (∀ row ∈ mixedRows, ∃ x, amount row = .ok x) ∧
    shape .time (.list (mixedRows.map .object)) (some [first, second]) false =
      .ok (.time [⟨"2024-03-01", some 7.0⟩, ⟨"2024-03-02", some 0.0⟩]) := by
  have hread : ∀ row ∈ mixedRows, ∃ x, amount row = .ok x := by
    simp only [mixedRows, List.forall_mem_cons]
    exact ⟨⟨_, rfl⟩, ⟨_, rfl⟩, ⟨_, rfl⟩, ⟨_, rfl⟩, List.forall_mem_nil _⟩
  let first : Date := ⟨738946, by decide, by decide⟩
  let second : Date := ⟨738947, by decide, by decide⟩
  have hfirst : first.iso = "2024-03-01" := by decide +kernel
  have hsecond : second.iso = "2024-03-02" := by decide +kernel
  have hseven : lastAmount mixedRows "2024-03-01" = some 7.0 := by decide +kernel
  have hnone : lastAmount mixedRows "2024-03-02" = none := by decide +kernel
  obtain ⟨hseries, -, -⟩ := rows_aligned hread false
  refine ⟨first, second, hfirst, hsecond, hread, (hseries [first, second]).trans ?_⟩
  simp only [List.map_cons, List.map_nil, hfirst, hsecond, hseven, hnone]
  rfl

end Funnel.Result
