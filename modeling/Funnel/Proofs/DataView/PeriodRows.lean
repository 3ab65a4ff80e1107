import Funnel.Proofs.DataView.Table
import Mathlib.Data.List.Basic

/-!
# Rows of a matrix

A matrix is put together figure by figure: a row is begun with the first figure of its person and
metric, a figure of a window goes under the label of its bucket and the figure of the whole range
into the total. What a row holds in the end is read off the figures that belong to it.
-/

set_option autoImplicit false

namespace Funnel

abbrev PlacedFigure := PeriodTask × Float

namespace PeriodRow

def IsOf (row : PeriodRow) (t : PeriodTask) : Prop :=
  row.userId = t.profile.userId ∧ row.metricName = t.metric

instance (row : PeriodRow) (t : PeriodTask) : Decidable (row.IsOf t) :=
  inferInstanceAs (Decidable (_ ∧ _))

/-- The figures that belong into a row, in the order in which they come. -/
def figuresIn (row : PeriodRow) (placed : List PlacedFigure) : List (Period × Float) :=
  (placed.filter fun c => row.IsOf c.1).map fun c => (c.1.period, c.2)

def addAll (row : PeriodRow) (figures : List (Period × Float)) : PeriodRow :=
  figures.foldl (fun row c => row.add c.1 c.2) row

def cleared (row : PeriodRow) : PeriodRow := { row with periods := [], total := 0.0 }

def labelled (figures : List (Period × Float)) : Named Float :=
  figures.filterMap fun c => c.1.label.map fun label => (label, c.2)

variable {row : PeriodRow} {t : PeriodTask} {placed : List PlacedFigure}
  {figures : List (Period × Float)} {d : Period} {x : Float}

@[simp]
theorem userId_add : (row.add d x).userId = row.userId := by
  unfold add
  split <;> rfl

@[simp]
theorem metricName_add : (row.add d x).metricName = row.metricName := by
  unfold add
  split <;> rfl

@[simp]
theorem cleared_add : (row.add d x).cleared = row.cleared := by
  unfold add
  split <;> rfl

@[simp]
theorem isOf_add : (row.add d x).IsOf t ↔ row.IsOf t := by
  rw [IsOf, userId_add, metricName_add, IsOf]

@[simp]
theorem figuresIn_add : (row.add d x).figuresIn placed = row.figuresIn placed := by
  simp only [figuresIn, isOf_add]

theorem figuresIn_append_own (h : row.IsOf t) :
    row.figuresIn (placed ++ [(t, x)]) = row.figuresIn placed ++ [(t.period, x)] := by
  simp [figuresIn, h]

theorem figuresIn_append_other (h : ¬ row.IsOf t) :
    row.figuresIn (placed ++ [(t, x)]) = row.figuresIn placed := by
  simp [figuresIn, h]

theorem mem_figuresIn {c : Period × Float} :
    c ∈ row.figuresIn placed ↔ ∃ t, (t, c.2) ∈ placed ∧ row.IsOf t ∧ t.period = c.1 := by
  obtain ⟨d, x⟩ := c
  simp only [figuresIn, List.mem_map, List.mem_filter, decide_eq_true_eq, Prod.exists,
    Prod.mk.injEq]
  constructor
  · rintro ⟨t, y, ⟨hmem, hof⟩, rfl, rfl⟩
    exact ⟨t, hmem, hof, rfl⟩
  · rintro ⟨t, hmem, hof, rfl⟩
    exact ⟨t, x, ⟨hmem, hof⟩, rfl, rfl⟩

theorem addAll_append (row : PeriodRow) (figures : List (Period × Float)) (c : Period × Float) :
    row.addAll (figures ++ [c]) = (row.addAll figures).add c.1 c.2 := by
  rw [addAll, List.foldl_append]
  rfl

theorem periods_addAll (row : PeriodRow) (figures : List (Period × Float)) :
    (row.addAll figures).periods = row.periods.putAll (labelled figures) := by
  induction figures generalizing row with
  | nil => rfl
  | cons c figures ih =>
    obtain ⟨⟨label, range⟩, x⟩ := c
    refine (ih (row.add ⟨label, range⟩ x)).trans ?_
    cases label <;> rfl

/-- Figures without a label that are all the same are the total. -/
theorem total_addAll (h : ∀ c ∈ figures, c.1.label = none → c.2 = x)
    (hsome : row.total = x ∨ ∃ c ∈ figures, c.1.label = none) :
    (row.addAll figures).total = x := by
  induction figures generalizing row with
  | nil =>
    refine hsome.resolve_right ?_
    rintro ⟨c, hc, -⟩
    cases hc
  | cons c figures ih =>
    obtain ⟨⟨label, range⟩, y⟩ := c
    obtain ⟨hfirst, hrest⟩ := List.forall_mem_cons.mp h
    refine ih hrest ?_
    cases label with
    | none => exact .inl (hfirst rfl)
    | some label =>
      refine hsome.imp_right ?_
      rintro ⟨d, hd, hnone⟩
      rcases List.mem_cons.mp hd with rfl | hd
      · cases hnone
      · exact ⟨d, hd, hnone⟩

end PeriodRow

variable {placed more : List PlacedFigure} {rows rows' : List PeriodRow} {t : PeriodTask}
  {x : Float}

theorem addPeriod_cases (h : addPeriod rows t x = .ok rows') :
    ((∃ row ∈ rows, row.IsOf t) ∧
      rows' = rows.map fun row => if row.IsOf t then row.add t.period x else row) ∨
    ((∀ row ∈ rows, ¬ row.IsOf t) ∧ ∃ row : PeriodRow, row.IsOf t ∧ row = row.cleared ∧
      rows' = rows ++ [row.add t.period x]) := by
  have hisRow : ∀ row : PeriodRow, (row.userId == t.profile.userId && row.metricName == t.metric) =
      decide (row.IsOf t) := by
    intro row
    rw [Bool.eq_iff_iff, decide_eq_true_iff, Bool.and_eq_true, beq_iff_eq, beq_iff_eq]
    exact Iff.rfl
  unfold addPeriod at h
  simp only [hisRow, List.any_eq_true, decide_eq_true_eq] at h
  split at h
  · rename_i hsome
    cases h
    exact .inl ⟨hsome, rfl⟩
  · rename_i hnone
    obtain ⟨row, hrow, h⟩ := Fault.bind_eq_ok_iff.mp h
    cases h
    refine .inr ⟨fun row hrow hof => hnone ⟨row, hrow, hof⟩, row, ?_⟩
    unfold Profile.emptyPeriods at hrow
    split at hrow
    · cases hrow
      exact ⟨⟨rfl, rfl⟩, rfl, rfl⟩
    · cases hrow

/-- Rows that hold some figures: in each row those that belong there, and a row for each figure. -/
structure Filled (placed : List PlacedFigure) (rows : List PeriodRow) : Prop where
  eq : ∀ row ∈ rows, row = row.cleared.addAll (row.figuresIn placed)
  begun : ∀ row ∈ rows, ∃ c ∈ placed, row.IsOf c.1
  found : ∀ c ∈ placed, ∃ row ∈ rows, row.IsOf c.1

theorem filled_nil : Filled [] [] := ⟨nofun, nofun, nofun⟩

namespace Filled

theorem add_eq {row : PeriodRow} (hof : row.IsOf t)
    (h : row = row.cleared.addAll (row.figuresIn placed)) :
    row.add t.period x = (row.add t.period x).cleared.addAll
      ((row.add t.period x).figuresIn (placed ++ [(t, x)])) := by
  rw [PeriodRow.cleared_add, PeriodRow.figuresIn_add, PeriodRow.figuresIn_append_own hof,
    PeriodRow.addAll_append, ← h]

theorem add_own (hfilled : Filled placed rows) (hown : ∃ row ∈ rows, row.IsOf t) :
    Filled (placed ++ [(t, x)])
      (rows.map fun row => if row.IsOf t then row.add t.period x else row) := by
  have hkept : ∀ (row : PeriodRow) (u : PeriodTask),
      (if row.IsOf t then row.add t.period x else row).IsOf u ↔ row.IsOf u := by
    intro row u
    split
    · exact PeriodRow.isOf_add
    · exact Iff.rfl
  have hrows : ∀ u : PeriodTask, (∃ row ∈ rows, row.IsOf u) →
      ∃ row ∈ rows.map fun row => if row.IsOf t then row.add t.period x else row, row.IsOf u := by
    rintro u ⟨row, hrow, hof⟩
    exact ⟨_, List.mem_map_of_mem hrow, (hkept row u).mpr hof⟩
  refine ⟨fun row' hrow' => ?_, fun row' hrow' => ?_, fun c hc => ?_⟩
  · obtain ⟨row, hrow, rfl⟩ := List.mem_map.mp hrow'
    split
    · rename_i hof
      exact add_eq hof (hfilled.eq row hrow)
    · rename_i hother
      rw [PeriodRow.figuresIn_append_other hother]
      exact hfilled.eq row hrow
  · obtain ⟨row, hrow, rfl⟩ := List.mem_map.mp hrow'
    obtain ⟨c, hc, hof⟩ := hfilled.begun row hrow
    exact ⟨c, List.mem_append_left _ hc, (hkept row c.1).mpr hof⟩
  · rcases List.mem_append.mp hc with hc | hc
    · exact hrows c.1 (hfilled.found c hc)
    · rw [List.mem_singleton.mp hc]
      exact hrows t hown

theorem add_new (hfilled : Filled placed rows) (hnone : ∀ row ∈ rows, ¬ row.IsOf t)
    {own : PeriodRow} (hof : own.IsOf t) (hblank : own = own.cleared) :
    Filled (placed ++ [(t, x)]) (rows ++ [own.add t.period x]) := by
  -- A figure that came before would have begun the row already.
  have hnew : own.figuresIn placed = [] := by
    refine List.eq_nil_iff_forall_not_mem.mpr fun c hc => ?_
    obtain ⟨u, hu, hofu, -⟩ := PeriodRow.mem_figuresIn.mp hc
    obtain ⟨row, hrow, hofrow⟩ := hfilled.found _ hu
    exact hnone row hrow ⟨hofrow.1.trans (hofu.1.symm.trans hof.1),
      hofrow.2.trans (hofu.2.symm.trans hof.2)⟩
  refine ⟨fun row hrow => ?_, fun row hrow => ?_, fun c hc => ?_⟩
  · rcases List.mem_append.mp hrow with hrow | hrow
    · rw [PeriodRow.figuresIn_append_other (hnone row hrow)]
      exact hfilled.eq row hrow
    · rw [List.mem_singleton.mp hrow]
      exact add_eq hof (hnew ▸ hblank)
  · rcases List.mem_append.mp hrow with hrow | hrow
    · obtain ⟨c, hc, hofc⟩ := hfilled.begun row hrow
      exact ⟨c, List.mem_append_left _ hc, hofc⟩
    · rw [List.mem_singleton.mp hrow]
      exact ⟨(t, x), List.mem_append_right _ List.mem_cons_self, PeriodRow.isOf_add.mpr hof⟩
  · rcases List.mem_append.mp hc with hc | hc
    · obtain ⟨row, hrow, hofc⟩ := hfilled.found c hc
      exact ⟨row, List.mem_append_left _ hrow, hofc⟩
    · rw [List.mem_singleton.mp hc]
      exact ⟨_, List.mem_append_right _ List.mem_cons_self, PeriodRow.isOf_add.mpr hof⟩

theorem add (hfilled : Filled placed rows) (h : addPeriod rows t x = .ok rows') :
    Filled (placed ++ [(t, x)]) rows' := by
  rcases addPeriod_cases h with ⟨hown, rfl⟩ | ⟨hnone, own, hof, hblank, rfl⟩
  · exact hfilled.add_own hown
  · exact hfilled.add_new hnone hof hblank

theorem addAll (hfilled : Filled placed rows)
    (h : more.foldlM (fun rows (t, x) => addPeriod rows t x) rows = .ok rows') :
    Filled (placed ++ more) rows' := by
  induction more generalizing placed rows with
  | nil =>
    cases h
    rwa [List.append_nil]
  | cons c more ih =>
    obtain ⟨next, hnext, hrest⟩ := Fault.bind_eq_ok_iff.mp h
    have hfirst := hfilled.add hnext
    have hall := ih hfirst hrest
    rwa [List.append_assoc] at hall

end Filled

def PeriodRow.key (row : PeriodRow) : String × String := (row.userId, row.metricName)

def PeriodTask.key (t : PeriodTask) : String × String := (t.profile.userId, t.metric)

theorem PeriodRow.isOf_iff {row : PeriodRow} : row.IsOf t ↔ row.key = t.key := by
  rw [IsOf, key, PeriodTask.key, Prod.mk.injEq]

@[simp]
theorem PeriodRow.key_add {row : PeriodRow} {d : Period} : (row.add d x).key = row.key := by
  rw [key, userId_add, metricName_add, key]

theorem nodup_keys_add (hnodup : (rows.map PeriodRow.key).Nodup)
    (h : addPeriod rows t x = .ok rows') : (rows'.map PeriodRow.key).Nodup := by
  rcases addPeriod_cases h with ⟨-, rfl⟩ | ⟨hnone, own, hof, -, rfl⟩
  · have hkeys : (rows.map fun row => if row.IsOf t then row.add t.period x else row).map
        PeriodRow.key = rows.map PeriodRow.key := by
      rw [List.map_map]
      refine List.map_congr_left fun row _ => ?_
      rw [Function.comp_apply]
      split
      · exact PeriodRow.key_add
      · rfl
    rwa [hkeys]
  · rw [List.map_append, List.map_singleton, PeriodRow.key_add, PeriodRow.isOf_iff.mp hof]
    refine List.nodup_append.mpr ⟨hnodup, List.nodup_singleton _, ?_⟩
    rintro _ hkey _ hlast rfl
    obtain ⟨row, hrow, heq⟩ := List.mem_map.mp hkey
    exact hnone row hrow (PeriodRow.isOf_iff.mpr (heq.trans (List.mem_singleton.mp hlast)))

theorem nodup_keys_addAll (hnodup : (rows.map PeriodRow.key).Nodup)
    (h : more.foldlM (fun rows (t, x) => addPeriod rows t x) rows = .ok rows') :
    (rows'.map PeriodRow.key).Nodup := by
  induction more generalizing rows with
  | nil =>
    cases h
    exact hnodup
  | cons c more ih =>
    obtain ⟨next, hnext, hrest⟩ := Fault.bind_eq_ok_iff.mp h
    exact ih (nodup_keys_add hnodup hnext) hrest

theorem Filled.mem_keys (hfilled : Filled placed rows) {key : String × String} :
    key ∈ rows.map PeriodRow.key ↔ ∃ c ∈ placed, c.1.key = key := by
  rw [List.mem_map]
  constructor
  · rintro ⟨row, hrow, rfl⟩
    obtain ⟨c, hc, hof⟩ := hfilled.begun row hrow
    exact ⟨c, hc, (PeriodRow.isOf_iff.mp hof).symm⟩
  · rintro ⟨c, hc, rfl⟩
    obtain ⟨row, hrow, hof⟩ := hfilled.found c hc
    exact ⟨row, hrow, PeriodRow.isOf_iff.mp hof⟩

/-- Rows are filled as long as the names of their people are texts. -/
theorem exists_addAll {more : List PlacedFigure}
    (h : ∀ c ∈ more, ∃ row, c.1.profile.emptyPeriods c.1.metric = .ok row)
    (rows : List PeriodRow) :
    ∃ rows', more.foldlM (fun rows (t, x) => addPeriod rows t x) rows = .ok rows' := by
  induction more generalizing rows with
  | nil => exact ⟨rows, rfl⟩
  | cons c more ih =>
    obtain ⟨⟨row, hrow⟩, hrest⟩ := List.forall_mem_cons.mp h
    obtain ⟨next, hnext⟩ : ∃ next, addPeriod rows c.1 c.2 = .ok next := by
      simp only [addPeriod, hrow]
      split <;> exact ⟨_, rfl⟩
    obtain ⟨rows', hrows'⟩ := ih hrest next
    exact ⟨rows', Fault.bind_eq_ok_iff.mpr ⟨next, hnext, hrows'⟩⟩

def periodTasks (profiles : List Profile) (metrics : List String) (periods : List Period) :
    List PeriodTask :=
  profiles.flatMap fun p => metrics.flatMap fun m => periods.map fun d => ⟨p, m, d⟩

theorem mem_periodTasks {profiles : List Profile} {metrics : List String} {periods : List Period}
    {t : PeriodTask} : t ∈ periodTasks profiles metrics periods ↔
      t.profile ∈ profiles ∧ t.metric ∈ metrics ∧ t.period ∈ periods := by
  obtain ⟨p, m, d⟩ := t
  simp only [periodTasks, List.mem_flatMap, List.mem_map, PeriodTask.mk.injEq]
  constructor
  · rintro ⟨q, hq, n, hn, c, hc, rfl, rfl, rfl⟩
    exact ⟨hq, hn, hc⟩
  · rintro ⟨hp, hm, hd⟩
    exact ⟨p, hp, m, hm, d, hd, rfl, rfl, rfl⟩

theorem eraseDups_of_nodup {xs : List String} (h : xs.Nodup) : xs.eraseDups = xs := by
  induction xs with
  | nil => rfl
  | cons x xs ih =>
    obtain ⟨hx, hxs⟩ := List.nodup_cons.mp h
    have hkeep : xs.filter (fun y => !y == x) = xs :=
      List.filter_eq_self.mpr fun y hy => by
        simp only [Bool.not_eq_true', beq_eq_false_iff_ne]
        rintro rfl
        exact hx hy
    rw [List.eraseDups_cons, hkeep, ih hxs]

theorem eraseDups_flatMap {α : Type} {xs : List α} {P : α → Bool} {labels : List String}
    (hlabels : labels.Nodup) (h : ∃ x ∈ xs, P x = true) :
    (xs.flatMap fun x => if P x then labels else []).eraseDups = labels := by
  induction xs with
  | nil =>
    obtain ⟨x, hx, -⟩ := h
    cases hx
  | cons x xs ih =>
    rw [List.flatMap_cons]
    by_cases hx : P x = true
    · -- Whatever comes later is one of the labels that are there already.
      have hrest : (xs.flatMap fun x => if P x then labels else []).removeAll labels = [] := by
        refine List.filter_eq_nil_iff.mpr fun n hn => ?_
        obtain ⟨y, -, hy⟩ := List.mem_flatMap.mp hn
        split at hy
        · simpa using hy
        · cases hy
      rw [if_pos hx, List.eraseDups_append, hrest, eraseDups_of_nodup hlabels]
      exact List.append_nil _
    · obtain ⟨y, hy, hPy⟩ := h
      rw [if_neg hx, List.nil_append]
      refine ih ⟨y, (List.mem_cons.mp hy).resolve_left ?_, hPy⟩
      rintro rfl
      exact hx hPy

theorem names_labelled (figures : List (Period × Float)) :
    (PeriodRow.labelled figures).names = figures.filterMap fun c => c.1.label := by
  rw [Named.names, PeriodRow.labelled, List.map_filterMap]
  refine List.filterMap_congr fun c _ => ?_
  rw [Option.map_map]
  exact Option.map_id_apply

section Tasks

variable {profiles : List Profile} {metrics : List String} {periods : List Period}

theorem periodTasks_eq_flatMap : periodTasks profiles metrics periods =
    (tasks profiles metrics).flatMap fun q => periods.map fun d => ⟨q.1, q.2, d⟩ := by
  rw [tasks, List.flatMap_assoc]
  simp only [periodTasks, List.flatMap_map]

theorem names_labelled_figuresIn {values : List Float} (row : PeriodRow)
    (hlength : (periodTasks profiles metrics periods).length = values.length) :
    (PeriodRow.labelled (row.figuresIn
      ((periodTasks profiles metrics periods).zip values))).names =
      ((periodTasks profiles metrics periods).filter fun t => row.IsOf t).filterMap
        fun t => t.period.label := by
  have hfst : ((periodTasks profiles metrics periods).zip values).map Prod.fst =
      periodTasks profiles metrics periods := List.map_fst_zip (Nat.le_of_eq hlength)
  conv_rhs => rw [← hfst]
  rw [names_labelled, PeriodRow.figuresIn, List.filterMap_map, List.filter_map,
    List.filterMap_map]
  rfl

/-- The tasks of a person and a metric ask for all periods, so the labels come in order, once for
every time that the two were listed. -/
theorem labels_tasksOf (row : PeriodRow) :
    ((periodTasks profiles metrics periods).filter fun t => row.IsOf t).filterMap
      (fun t => t.period.label) = (tasks profiles metrics).flatMap fun q =>
        if decide (row.userId = q.1.userId ∧ row.metricName = q.2) then
          periods.filterMap Period.label
        else [] := by
  rw [periodTasks_eq_flatMap, List.filter_flatMap, List.filterMap_flatMap]
  congr 1
  funext q
  rw [List.filter_map, List.filterMap_map]
  have hof : ∀ d, row.IsOf ⟨q.1, q.2, d⟩ ↔ row.userId = q.1.userId ∧ row.metricName = q.2 :=
    fun d => Iff.rfl
  simp only [Function.comp_def, hof]
  split
  · rename_i hq
    rw [List.filter_eq_self.mpr fun d _ => hq]
  · rename_i hq
    rw [List.filter_eq_nil_iff.mpr fun d _ => hq, List.filterMap_nil]

theorem eraseDups_names_figuresIn {values : List Float} {row : PeriodRow}
    (hlength : (periodTasks profiles metrics periods).length = values.length)
    (hlabels : (periods.filterMap Period.label).Nodup)
    (hrow : ∃ t ∈ periodTasks profiles metrics periods, row.IsOf t) :
    (PeriodRow.labelled (row.figuresIn
      ((periodTasks profiles metrics periods).zip values))).names.eraseDups =
      periods.filterMap Period.label := by
  rw [names_labelled_figuresIn row hlength, labels_tasksOf]
  obtain ⟨t, ht, hof⟩ := hrow
  obtain ⟨hp, hm, -⟩ := mem_periodTasks.mp ht
  exact eraseDups_flatMap hlabels ⟨(t.profile, t.metric), mem_tasks.mpr ⟨hp, hm⟩,
    decide_eq_true hof⟩

end Tasks

end Funnel
