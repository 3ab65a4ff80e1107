import Funnel.Catalog.Registry
import Funnel.Proofs.Filter.Checked
import Funnel.Proofs.Number.Quotient
import Funnel.Proofs.Plan.Reps
import Funnel.Proofs.Value.Coercion

/-!
# The rows of reps

From whatever rows the store has, the cash against allocated spend is worked out for each rep that
they name and for each requested one. It fails only for an amount that cannot be read. As a
percentage it is one less than as a multiple, unless nothing is allocated to the rep: then it is
zero either way. The amounts are numbers, so that the larger ones come first.
-/

set_option autoImplicit false

namespace Funnel.Plan

open Number

def amountIn (v : Value) : Float := (numberOrZero v).toOption.getD 0.0

/-- A value that is read like a whole number. -/
def IsCount (v : Value) : Prop := ∃ n : Nat, numberOrZero v = numberOrZero (.int n)

variable {v : Value}

theorem numberOrZero_ok_iff (v : Value) : (∃ x, numberOrZero v = .ok x) ↔ ¬ v.Unreadable := by
  rw [← Value.number?_ok_iff]
  constructor
  · rintro ⟨x, hx⟩
    obtain ⟨y, hy, -⟩ := Fault.bind_eq_ok_iff.mp hx
    exact ⟨y, hy⟩
  · rintro ⟨y, hy⟩
    exact ⟨_, Fault.bind_eq_ok_iff.mpr ⟨y, hy, rfl⟩⟩

theorem numberOrZero_eq (h : ¬ v.Unreadable) : numberOrZero v = .ok (amountIn v) := by
  obtain ⟨x, hx⟩ := (numberOrZero_ok_iff v).mpr h
  rw [amountIn, hx]
  rfl

theorem isFinite_amountIn (v : Value) : isFinite (amountIn v) = true := by
  cases h : numberOrZero v with
  | error e =>
    rw [amountIn, h]
    exact isFinite_zero
  | ok x =>
    obtain ⟨y, hy, hx⟩ := Fault.bind_eq_ok_iff.mp h
    rw [amountIn, h]
    cases hx
    refine Value.isFinite_orZero ?_
    rintro z rfl
    exact Value.isFinite_of_number? hy

/-- A count that is not zero is a whole double. -/
theorem IsCount.eq_ofInt (h : IsCount v) (h0 : (amountIn v == 0) = false) :
    ∃ n : Nat, n ≠ 0 ∧ n < overflow ∧ amountIn v = ofInt n := by
  obtain ⟨n, hn⟩ := h
  have hread : amountIn v = amountIn (.int n) := congrArg (fun x => x.toOption.getD 0.0) hn
  rw [hread] at h0 ⊢
  rcases Nat.lt_or_ge n overflow with hlt | hge
  · have hnumber : numberOrZero (.int n) = .ok (Value.orZero (some (ofInt n))) := by
      rw [numberOrZero, Value.number?_int, Int.natAbs_natCast, if_pos hlt]
      rfl
    have hamount : amountIn (.int n) = if ofInt n == 0 then 0.0 else ofInt n := by
      rw [amountIn, hnumber]
      rfl
    rw [hamount] at h0 ⊢
    split at h0
    · cases h0
    · rename_i hne
      refine ⟨n, ?_, hlt, if_neg hne⟩
      rintro rfl
      exact hne rfl
  · have hnumber : numberOrZero (.int n) = .error .outOfRange := by
      rw [numberOrZero, Value.number?_int, Int.natAbs_natCast, if_neg (Nat.not_lt.mpr hge)]
      rfl
    rw [amountIn, hnumber] at h0
    cases h0

variable {cash appointments spend total : Float}

theorem isFinite_safeDiv (hspend : isFinite spend = true)
    (htotal : (total == 0) = false → ∃ n : Nat, n ≠ 0 ∧ n < overflow ∧ total = ofInt n) :
    isFinite (safeDiv spend total) = true := by
  rw [safeDiv]
  split
  · exact isFinite_zero
  · rename_i h0
    obtain ⟨n, hn, hlt, rfl⟩ := htotal (Bool.eq_false_iff.mpr h0)
    exact isFinite_div_ofInt hspend hn hlt

theorem isNumber_repRoi (heach : isFinite (safeDiv spend total) = true)
    (hcash : isFinite cash = true) (happointments : isFinite appointments = true)
    (asMultiple : Bool) : IsNumber (repRoi cash appointments spend total asMultiple) := by
  have hcost : IsNumber (allocatedCost appointments spend total) := isNumber_mul heach happointments
  unfold repRoi
  dsimp only
  split
  · exact isNumber_of_isFinite isFinite_zero
  · rename_i h0
    have hmultiple := isNumber_div hcash hcost (Bool.eq_false_iff.mpr h0)
    split
    · exact hmultiple
    · exact isNumber_sub_one hmultiple

theorem repRoi_none (heach : isFinite (safeDiv spend total) = true) (asMultiple : Bool) :
    repRoi cash 0.0 spend total asMultiple = 0.0 := by
  have hcost : (allocatedCost 0.0 spend total == 0) = true := mul_zero_beq heach
  unfold repRoi
  exact if_pos hcost

def fieldOf (row : Fields) (name : String) : Value := (row.find? name).getD .null

def repOf? (row : Fields) : Option String :=
  if (fieldOf row "rep_id").isGiven then some (fieldOf row "rep_id").toText else none

/-- The amounts of a row can be read, or it names no rep. -/
def ReadableRow (row : Fields) : Prop :=
  (repOf? row).isSome = true →
    ¬ (fieldOf row "cash").Unreadable ∧ ¬ (fieldOf row "appointments").Unreadable

def statsOf (row : Fields) : RepStats :=
  ⟨amountIn (fieldOf row "cash"), amountIn (fieldOf row "appointments")⟩

def firstValue (rows : List Fields) : Value := ((rows.head?).map (fieldOf · "value")).getD .null

/-- What a store answers the three queries of the plan with: rows, whatever fields they have. -/
structure RepAnswers (results : Results) where
  stats : List Fields
  total : List Fields
  spend : List Fields
  stats_eq : results "rep_stats" = .list (stats.map .object)
  total_eq : results "total_appointments" = .list (total.map .object)
  spend_eq : results "spend" = .list (spend.map .object)

namespace RepAnswers

variable {results : Results} (t : RepAnswers results)

/-- All amounts can be read. -/
structure Readable : Prop where
  spend : ¬ (firstValue t.spend).Unreadable
  total : ¬ (firstValue t.total).Unreadable
  stats : ∀ row ∈ t.stats, ReadableRow row

def found : RepFigures :=
  ⟨Named.putAll [] (Named.keyed repOf? statsOf t.stats), amountIn (firstValue t.spend),
    amountIn (firstValue t.total)⟩

/-- The amounts of a rep: those of the last row that names it. -/
def statsFor (id : String) : RepStats :=
  (((t.stats.filter fun row => repOf? row = some id).getLast?).map statsOf).getD .none

/-- The part of the spend that is allocated to a rep. -/
def costFor (id : String) : Float :=
  allocatedCost (t.statsFor id).appointments t.found.spend t.found.total

/-- A listing of the reps that the store or the request names: each once, the larger amounts first,
with nothing for those that the store does not name. -/
structure Lists (requested : List String) (reps : Named Float) : Prop where
  nodup : reps.names.Nodup
  mem_iff : ∀ id, id ∈ reps.names ↔ id ∈ requested ∨ ∃ row ∈ t.stats, repOf? row = some id
  falling : reps.Pairwise fun p q => q.2 ≤ p.2
  absent : ∀ id ∈ requested, (∀ row ∈ t.stats, repOf? row ≠ some id) → (id, 0.0) ∈ reps

end RepAnswers

variable {row : Fields} {rows : List Fields} {stats : Named RepStats}

theorem addRep_object (stats : Named RepStats) (row : Fields) : addRep stats (.object row) =
    if (fieldOf row "rep_id").isGiven then
      numberOrZero (fieldOf row "cash") >>= fun cash =>
        numberOrZero (fieldOf row "appointments") >>= fun appointments =>
          .ok (Named.put stats (fieldOf row "rep_id").toText ⟨cash, appointments⟩)
    else .ok stats := rfl

theorem readableRow_of_addRep {next : Named RepStats}
    (h : addRep stats (.object row) = .ok next) : ReadableRow row := by
  intro hrep
  rw [addRep_object] at h
  unfold repOf? at hrep
  split at h
  · obtain ⟨cash, hcash, h⟩ := Fault.bind_eq_ok_iff.mp h
    obtain ⟨appointments, happointments, -⟩ := Fault.bind_eq_ok_iff.mp h
    exact ⟨(numberOrZero_ok_iff _).mp ⟨cash, hcash⟩,
      (numberOrZero_ok_iff _).mp ⟨appointments, happointments⟩⟩
  · rename_i hgiven
    rw [if_neg hgiven] at hrep
    cases hrep

theorem addRep_eq (h : ReadableRow row) (stats : Named RepStats) :
    addRep stats (.object row) =
      .ok (Named.putAll stats (Named.keyed repOf? statsOf [row])) := by
  unfold ReadableRow at h
  have hrep : repOf? row = if (fieldOf row "rep_id").isGiven then
      some (fieldOf row "rep_id").toText else none := rfl
  rw [addRep_object]
  split
  · rename_i hgiven
    rw [if_pos hgiven] at hrep
    obtain ⟨hcash, happointments⟩ := h (by rw [hrep]; rfl)
    rw [numberOrZero_eq hcash, numberOrZero_eq happointments, Named.keyed, List.filterMap_cons,
      hrep]
    rfl
  · rename_i hgiven
    rw [if_neg hgiven] at hrep
    rw [Named.keyed, List.filterMap_cons, hrep]
    rfl

theorem readableRow_of_addReps {all : Named RepStats}
    (h : (rows.map Value.object).foldlM addRep stats = .ok all) :
    ∀ row ∈ rows, ReadableRow row := by
  induction rows generalizing stats with
  | nil => exact List.forall_mem_nil _
  | cons row rows ih =>
    rw [List.map_cons, List.foldlM_cons] at h
    obtain ⟨next, hnext, h⟩ := Fault.bind_eq_ok_iff.mp h
    exact List.forall_mem_cons.mpr ⟨readableRow_of_addRep hnext, ih h⟩

theorem addReps_eq (h : ∀ row ∈ rows, ReadableRow row) (stats : Named RepStats) :
    (rows.map Value.object).foldlM addRep stats =
      .ok (Named.putAll stats (Named.keyed repOf? statsOf rows)) := by
  induction rows generalizing stats with
  | nil => rfl
  | cons row rows ih =>
    obtain ⟨hrow, hrows⟩ := List.forall_mem_cons.mp h
    have hsplit : Named.keyed repOf? statsOf (row :: rows) =
        Named.keyed repOf? statsOf [row] ++ Named.keyed repOf? statsOf rows :=
      @List.filterMap_append _ _ [row] rows _
    rw [List.map_cons, List.foldlM_cons, addRep_eq hrow, hsplit, Named.putAll_append]
    exact ih hrows _

theorem scalarValue_rows (rows : List Fields) :
    scalarValue (.list (rows.map .object)) = numberOrZero (firstValue rows) := by
  cases rows <;> rfl

def readFigures (results : Results) : Except Fault RepFigures := do
  let spend ← scalarValue (results "spend")
  let total ← scalarValue (results "total_appointments")
  let stats ← repStats (← (results "rep_stats").entries)
  .ok ⟨stats, spend, total⟩

variable {m : Metric} {f : Filters} {settings : Fields} {plan : FormulaPlan} {results : Results}

theorem combine_repRoiPlan (h : repRoiPlan m f settings .rep = .ok plan) (known : Calendar.Zones)
    (results : Results) :
    plan.combine known results = readFigures results >>= fun found =>
      .ok (rowsOfReps (found.reps (showsMultiple m settings) (Identifier.kept f.repIds))) := by
  obtain ⟨stats, -, h⟩ := Fault.bind_eq_ok_iff.mp h
  obtain ⟨total, -, h⟩ := Fault.bind_eq_ok_iff.mp h
  obtain ⟨spend, -, h⟩ := Fault.bind_eq_ok_iff.mp h
  cases h
  simp only [readFigures, bind_assoc]
  rfl

namespace RepAnswers

variable (t : RepAnswers results)

theorem readFigures_eq (hread : t.Readable) : readFigures results = .ok t.found := by
  have hstats : repStats (t.stats.map .object) = _ := addReps_eq hread.stats []
  rw [readFigures, t.spend_eq, t.total_eq, t.stats_eq, scalarValue_rows, scalarValue_rows,
    numberOrZero_eq hread.spend, numberOrZero_eq hread.total]
  exact Fault.bind_eq_ok_iff.mpr ⟨_, rfl, Fault.bind_eq_ok_iff.mpr ⟨_, rfl,
    Fault.bind_eq_ok_iff.mpr ⟨_, rfl, Fault.bind_eq_ok_iff.mpr ⟨_, hstats, rfl⟩⟩⟩⟩

theorem readable_of_readFigures {found : RepFigures} (h : readFigures results = .ok found) :
    t.Readable := by
  rw [readFigures, t.spend_eq, t.total_eq, t.stats_eq, scalarValue_rows, scalarValue_rows] at h
  obtain ⟨spend, hspend, h⟩ := Fault.bind_eq_ok_iff.mp h
  obtain ⟨total, htotal, h⟩ := Fault.bind_eq_ok_iff.mp h
  obtain ⟨entries, hentries, h⟩ := Fault.bind_eq_ok_iff.mp h
  obtain ⟨stats, hstats, -⟩ := Fault.bind_eq_ok_iff.mp h
  cases hentries
  exact ⟨(numberOrZero_ok_iff _).mp ⟨spend, hspend⟩, (numberOrZero_ok_iff _).mp ⟨total, htotal⟩,
    readableRow_of_addReps hstats⟩

theorem combine_eq (h : repRoiPlan m f settings .rep = .ok plan) (hread : t.Readable)
    (known : Calendar.Zones) : plan.combine known results = .ok (rowsOfReps
      (t.found.reps (showsMultiple m settings) (Identifier.kept f.repIds))) := by
  rw [combine_repRoiPlan h, t.readFigures_eq hread]
  rfl

/-- The rows are put together exactly if all amounts can be read. -/
theorem combine_ok_iff (h : repRoiPlan m f settings .rep = .ok plan) (known : Calendar.Zones) :
    (∃ rows, plan.combine known results = .ok rows) ↔ t.Readable := by
  constructor
  · rintro ⟨rows, hrows⟩
    rw [combine_repRoiPlan h] at hrows
    obtain ⟨found, hfound, -⟩ := Fault.bind_eq_ok_iff.mp hrows
    exact t.readable_of_readFigures hfound
  · exact fun hread => ⟨_, t.combine_eq h hread known⟩

theorem nodup_names_stats : t.found.stats.names.Nodup :=
  @Named.nodup_names_putAll _ [] List.nodup_nil _

theorem mem_names_stats {id : String} :
    id ∈ t.found.stats.names ↔ ∃ row ∈ t.stats, repOf? row = some id := by
  rw [found, Named.names_putAll_nil, List.mem_eraseDups, Named.names_keyed, List.mem_filterMap]

theorem find?_stats (id : String) : (t.found.stats.find? id).getD .none = t.statsFor id := by
  rw [found, Named.find?_putAll_keyed, statsFor]

end RepAnswers

theorem names_withRequested (stats : Named RepStats) (requested : List String) :
    (withRequested stats requested).names =
      stats.names ++ (requested.removeAll stats.names).eraseDups := by
  rw [withRequested_eq, Named.names_append, Named.names_map_const]

theorem nodup_names_withRequested {stats : Named RepStats} (h : stats.names.Nodup)
    (requested : List String) : (withRequested stats requested).names.Nodup := by
  rw [names_withRequested]
  exact Named.nodup_requested h requested

theorem find?_withRequested (stats : Named RepStats) (requested : List String) (id : String) :
    ((withRequested stats requested).find? id).getD .none = (stats.find? id).getD .none := by
  induction requested generalizing stats with
  | nil => rfl
  | cons other ids ih =>
    rw [withRequested_cons, ih]
    split
    · rfl
    · rename_i hnew
      rw [← Named.put_eq_append hnew, Named.find?_put]
      split
      · rename_i hother
        subst hother
        rw [Named.find?_of_notMem hnew]
        rfl
      · rfl

theorem mem_names_withRequested {stats : Named RepStats} {requested : List String} {id : String} :
    id ∈ (withRequested stats requested).names ↔ id ∈ requested ∨ id ∈ stats.names := by
  rw [names_withRequested, List.mem_append, List.mem_eraseDups, List.removeAll, List.mem_filter]
  by_cases hid : id ∈ stats.names <;> simp [hid]

namespace RepAnswers

variable {t : RepAnswers results} {requested : List String} {asMultiple : Bool}

theorem eq_statsFor {p : String × RepStats} (h : p ∈ withRequested t.found.stats requested) :
    p.2 = t.statsFor p.1 := by
  have hnodup := nodup_names_withRequested t.nodup_names_stats requested
  have hfind := find?_withRequested t.found.stats requested p.1
  rw [t.find?_stats, Named.find?_of_mem hnodup h] at hfind
  exact hfind

theorem mem_reps {p : String × Float} : p ∈ t.found.reps asMultiple requested ↔
    p.1 ∈ (withRequested t.found.stats requested).names ∧
      p.2 = repRoi (t.statsFor p.1).cash (t.statsFor p.1).appointments t.found.spend t.found.total
        asMultiple := by
  rw [RepFigures.reps, repRows, List.mem_mergeSort, List.mem_map]
  constructor
  · rintro ⟨q, hq, rfl⟩
    rw [← eq_statsFor hq]
    exact ⟨List.mem_map_of_mem hq, rfl⟩
  · rintro ⟨hname, hvalue⟩
    obtain ⟨q, hq, heq⟩ := List.mem_map.mp hname
    refine ⟨q, hq, Prod.ext heq ?_⟩
    rw [hvalue, ← heq, ← eq_statsFor hq]

theorem names_reps_perm : (Named.names (t.found.reps asMultiple requested)).Perm
    (withRequested t.found.stats requested).names := by
  refine ((List.mergeSort_perm _ _).map Prod.fst).trans (List.Perm.of_eq ?_)
  rw [List.map_map]
  rfl

theorem isFinite_statsFor (t : RepAnswers results) (id : String) :
    isFinite (t.statsFor id).cash = true ∧ isFinite (t.statsFor id).appointments = true := by
  rw [statsFor]
  cases (t.stats.filter fun row => repOf? row = some id).getLast? with
  | none => exact ⟨isFinite_zero, isFinite_zero⟩
  | some row => exact ⟨isFinite_amountIn _, isFinite_amountIn _⟩

theorem statsFor_none {id : String} (h : ∀ row ∈ t.stats, repOf? row ≠ some id) :
    t.statsFor id = .none := by
  have hnone : (t.stats.filter fun row => repOf? row = some id) = [] :=
    List.filter_eq_nil_iff.mpr fun row hrow => by simpa using h row hrow
  rw [statsFor, hnone]
  rfl

theorem isFinite_each (hcount : IsCount (firstValue t.total)) :
    isFinite (safeDiv t.found.spend t.found.total) = true :=
  isFinite_safeDiv (isFinite_amountIn _) hcount.eq_ofInt

theorem lists_reps (hcount : IsCount (firstValue t.total)) (requested : List String)
    (asMultiple : Bool) : t.Lists requested (t.found.reps asMultiple requested) where
  nodup := names_reps_perm.nodup_iff.mpr (nodup_names_withRequested t.nodup_names_stats requested)
  mem_iff _ :=
    names_reps_perm.mem_iff.trans (mem_names_withRequested.trans (or_congr_right t.mem_names_stats))
  falling := by
    refine pairwise_mergeSort_of_isNumber fun p hp => ?_
    obtain ⟨q, hq, rfl⟩ := List.mem_map.mp hp
    obtain ⟨hcash, happointments⟩ := t.isFinite_statsFor q.1
    rw [← eq_statsFor hq] at hcash happointments
    exact isNumber_repRoi (isFinite_each hcount) hcash happointments asMultiple
  absent id hid hno := by
    refine mem_reps.mpr ⟨mem_names_withRequested.mpr (.inl hid), ?_⟩
    rw [statsFor_none hno]
    exact (repRoi_none (isFinite_each hcount) asMultiple).symm

end RepAnswers

/-- The rows of reps are put together exactly if all amounts can be read, as a multiple and as a
percentage. They list the reps, whatever cash and spend there is; as a percentage each rep has one
less than as a multiple, unless nothing is allocated: then it has zero either way. -/
theorem reps_listed {m' : Metric} {settings' : Fields} {plan' : FormulaPlan}
    (h : repRoiPlan m f settings .rep = .ok plan) (hmultiple : showsMultiple m settings = true)
    (h' : repRoiPlan m' f settings' .rep = .ok plan')
    (hpercent : showsMultiple m' settings' = false) (t : RepAnswers results)
    (hcount : IsCount (firstValue t.total)) (known : Calendar.Zones) :
    ((∃ rows, plan.combine known results = .ok rows) ↔ t.Readable) ∧
    ((∃ rows, plan'.combine known results = .ok rows) ↔ t.Readable) ∧
    (t.Readable → ∃ multiples percents : Named Float,
      plan.combine known results = .ok (rowsOfReps multiples) ∧
      plan'.combine known results = .ok (rowsOfReps percents) ∧
      t.Lists (Identifier.kept f.repIds) multiples ∧
      t.Lists (Identifier.kept f.repIds) percents ∧
      ∀ id x y, (id, x) ∈ multiples → (id, y) ∈ percents →
        if t.costFor id == 0 then x = 0.0 ∧ y = 0.0
        else x = (t.statsFor id).cash / t.costFor id ∧ y = x - 1) := by
  refine ⟨t.combine_ok_iff h known, t.combine_ok_iff h' known, fun hread => ?_⟩
  have hmultiples := t.combine_eq h hread known
  have hpercents := t.combine_eq h' hread known
  rw [hmultiple] at hmultiples
  rw [hpercent] at hpercents
  refine ⟨_, _, hmultiples, hpercents, RepAnswers.lists_reps hcount _ _,
    RepAnswers.lists_reps hcount _ _, fun id x y hx hy => ?_⟩
  obtain ⟨-, hx⟩ := RepAnswers.mem_reps.mp hx
  obtain ⟨-, hy⟩ := RepAnswers.mem_reps.mp hy
  have hmultiple : x = if t.costFor id == 0 then 0.0 else (t.statsFor id).cash / t.costFor id := hx
  have hpercent : y = if t.costFor id == 0 then 0.0 else
    (t.statsFor id).cash / t.costFor id - 1 := hy
  split
  · rename_i hnothing
    rw [if_pos hnothing] at hmultiple hpercent
    exact ⟨hmultiple, hpercent⟩
  · rename_i hcost
    rw [if_neg hcost] at hmultiple hpercent
    rw [hmultiple]
    exact ⟨rfl, hpercent⟩

theorem exists_repRoiPlan (h : f.reasons = []) (m : Metric) (settings : Fields) :
    ∃ plan, repRoiPlan m f settings .rep = .ok plan := by
  obtain ⟨start, finish, hchecked⟩ := Filters.checked_of_reasons h
  refine Fault.exists_bind_eq_ok (repStatsQuery_eq hchecked.days .rep) ?_
  refine Fault.exists_bind_eq_ok (sumQuery_wide_eq hchecked.days _ _ _) ?_
  exact Fault.exists_bind_eq_ok (sumQuery_wide_eq hchecked.days _ _ _) ⟨_, rfl⟩

def answersWith (stats total spend : List Fields) : Results := fun name =>
  .list ((if name = "rep_stats" then stats else if name = "spend" then spend else total).map
    .object)

def RepAnswers.of (stats total spend : List Fields) : RepAnswers (answersWith stats total spend) :=
  ⟨stats, total, spend, rfl, rfl, rfl⟩

theorem reps_listed_beside_requested :
    let idle := "123e4567-e89b-12d3-a456-426614174000"
    let f := Filters.between "north" "2024-03-01" "2024-03-31" [idle] []
    let m := Registry.specialMetrics[1]
    let t := RepAnswers.of [[("rep_id", .text "r1"), ("appointments", .int 2), ("cash", .int 300)]]
      [[("value", .int 4)]] [[("value", .int 100)]]
    ∀ known, ∃ plan plan' multiples percents,
      repRoiPlan m f [("roiDisplay", .text "multiplier")] .rep = .ok plan ∧
      repRoiPlan m f [] .rep = .ok plan' ∧
      plan.combine known (answersWith t.stats t.total t.spend) = .ok (rowsOfReps multiples) ∧
      plan'.combine known (answersWith t.stats t.total t.spend) = .ok (rowsOfReps percents) ∧
      t.Lists [idle] multiples ∧ t.Lists [idle] percents ∧
      ("r1", 6.0) ∈ multiples ∧ ("r1", 5.0) ∈ percents := by
  intro idle f m t known
  have hf : f.reasons = [] := by decide
  obtain ⟨plan, hplan⟩ := exists_repRoiPlan hf m [("roiDisplay", .text "multiplier")]
  obtain ⟨plan', hplan'⟩ := exists_repRoiPlan hf m []
  have hcount : IsCount (firstValue t.total) := ⟨4, rfl⟩
  have hsmall : ∀ n : Nat, n ≤ 300 → ¬ (Value.int n).Unreadable := by
    intro n hn hlarge
    have hbound : 300 < overflow := by decide +kernel
    exact absurd hlarge (by change ¬ overflow ≤ n; omega)
  have hread : t.Readable := by
    refine ⟨hsmall 100 (by decide), hsmall 4 (by decide), ?_⟩
    refine List.forall_mem_singleton.mpr fun _ => ⟨hsmall 300 (by decide), hsmall 2 (by decide)⟩
  obtain ⟨-, -, hlisted⟩ := reps_listed hplan (by decide) hplan' (by decide) t hcount known
  obtain ⟨multiples, percents, hmultiples, hpercents, hfirst, hsecond, heach⟩ := hlisted hread
  have hkept : Identifier.kept f.repIds = [idle] := by decide +kernel
  rw [hkept] at hfirst hsecond
  have hnamed : ∃ row ∈ t.stats, repOf? row = some "r1" := ⟨_, List.mem_singleton_self _, rfl⟩
  obtain ⟨p, hp, hid⟩ := List.mem_map.mp ((hfirst.mem_iff "r1").mpr (.inr hnamed))
  obtain ⟨q, hq, hid'⟩ := List.mem_map.mp ((hsecond.mem_iff "r1").mpr (.inr hnamed))
  obtain ⟨id, x⟩ := p
  obtain ⟨id', y⟩ := q
  subst hid hid'
  have hcost : (t.costFor "r1" == 0) = false := by decide +kernel
  have hboth := heach "r1" x y hp hq
  rw [if_neg (by rw [hcost]; decide)] at hboth
  have hx : x = 6.0 := hboth.1.trans (by decide +kernel)
  have hy : y = 5.0 := by
    rw [hboth.2, hx]
    decide +kernel
  subst hx hy
  exact ⟨plan, plan', multiples, percents, hplan, hplan', hmultiples, hpercents, hfirst, hsecond,
    hp, hq⟩

/-- Cash of four hundred digits, if only below zero, leaves no row at all, though all appointments
are counted and nothing is spent. -/
theorem reps_lost_to_one_amount :
    let f := Filters.between "north" "2024-03-01" "2024-03-31" [] []
    let m := Registry.specialMetrics[1]
    let t := RepAnswers.of
      [[("rep_id", .text "r1"), ("appointments", .int 2), ("cash", .int (-pow10 400))]]
      [[("value", .int 4)]] []
    IsCount (firstValue t.total) ∧ (∀ row ∈ t.stats, IsCount (fieldOf row "appointments")) ∧
      ∃ plan, repRoiPlan m f [] .rep = .ok plan ∧
        ∀ known, ¬ ∃ rows, plan.combine known (answersWith t.stats t.total t.spend) = .ok rows := by
  intro f m t
  have hf : f.reasons = [] := by decide
  obtain ⟨plan, hplan⟩ := exists_repRoiPlan hf m []
  refine ⟨⟨4, rfl⟩, List.forall_mem_singleton.mpr ⟨2, rfl⟩, plan, hplan, fun known hrows => ?_⟩
  have hread := (t.combine_ok_iff hplan known).mp hrows
  refine (hread.stats _ (List.mem_singleton_self _) rfl).1 ?_
  have hhuge : overflow ≤ (-pow10 400 : Int).natAbs := by decide +kernel
  exact hhuge

end Funnel.Plan
