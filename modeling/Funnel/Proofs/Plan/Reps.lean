import Funnel.Proofs.Engine.Steady
import Funnel.Proofs.Plan.Draft
import Funnel.Proofs.Value.Shown

/-!
# The reps of a result

The reps of the cash against allocated spend are those whom the rows of the store name, and behind
them the requested ones who are not there yet, with nothing to their name. Reps are told apart by
their texts.
-/

set_option autoImplicit false

namespace Funnel

theorem Value.ne_of_isGiven {v : Value} (h : v.isGiven = true) : v ≠ .text "" := by
  rintro rfl
  cases h

namespace Plan

open Calendar Standard

/-- What a requested rep has who is in no row. -/
def RepStats.none : RepStats := ⟨0.0, 0.0⟩

theorem withRequested_cons (stats : Named RepStats) (id : String) (ids : List String) :
    withRequested stats (id :: ids) = withRequested
      (if id ∈ stats.names then stats else stats ++ [(id, .none)]) ids := rfl

/-- Requested reps are appended, each once, unless they are there. -/
theorem withRequested_eq (stats : Named RepStats) (ids : List String) : withRequested stats ids =
    stats ++ ((ids.removeAll stats.names).eraseDups.map fun id => (id, .none)) := by
  induction ids generalizing stats with
  | nil => exact (List.append_nil _).symm
  | cons id ids ih =>
    rw [withRequested_cons, ih, List.removeAll, List.removeAll]
    split
    · rename_i hold
      rw [List.filter_cons_of_neg (by simpa using hold)]
    · rename_i hnew
      rw [List.filter_cons_of_pos (by simpa using hnew), List.eraseDups_cons, List.filter_filter,
        List.append_assoc, List.map_cons, List.singleton_append, Named.names_append]
      congr 4
      apply List.filter_congr
      intro n _
      rw [Bool.eq_iff_iff]
      simp [Named.names, and_comm]

/-- Each rep is there once and has a name. -/
structure ProperStats (stats : Named RepStats) : Prop where
  nodup : stats.names.Nodup
  named : ∀ id ∈ stats.names, id ≠ ""

theorem ProperStats.put {stats : Named RepStats} (h : ProperStats stats) {id : String}
    (hid : id ≠ "") (s : RepStats) : ProperStats (Named.put stats id s) := by
  refine ⟨Named.nodup_names_put h.nodup _ _, fun n hn => ?_⟩
  rw [Named.names_put] at hn
  split at hn
  · exact h.named n hn
  · rcases List.mem_append.mp hn with hn | hn
    · exact h.named n hn
    · rw [List.mem_singleton.mp hn]
      exact hid

def addRep (stats : Named RepStats) (row : Value) : Except Fault (Named RepStats) := do
  let rep ← row.get "rep_id"
  if rep.isGiven then do
    let cash ← numberOrZero (← row.get "cash")
    let appointments ← numberOrZero (← row.get "appointments")
    .ok (Named.put stats rep.toText ⟨cash, appointments⟩)
  else .ok stats

theorem repStats_eq (rows : List Value) : repStats rows = rows.foldlM addRep [] := rfl

theorem ProperStats.addRep {stats next : Named RepStats} {row : Value} (h : ProperStats stats)
    (hrow : addRep stats row = .ok next) : ProperStats next := by
  obtain ⟨rep, -, hrow⟩ := Fault.bind_eq_ok_iff.mp hrow
  split at hrow
  · rename_i hgiven
    obtain ⟨_, -, hrow⟩ := Fault.bind_eq_ok_iff.mp hrow
    obtain ⟨_, -, hrow⟩ := Fault.bind_eq_ok_iff.mp hrow
    obtain ⟨_, -, hrow⟩ := Fault.bind_eq_ok_iff.mp hrow
    obtain ⟨_, -, hrow⟩ := Fault.bind_eq_ok_iff.mp hrow
    cases hrow
    exact h.put (Value.toText_ne_empty (Value.ne_of_isGiven hgiven)) _
  · cases hrow
    exact h

theorem ProperStats.addReps {rows : List Value} {stats all : Named RepStats}
    (h : ProperStats stats) (hrows : rows.foldlM Plan.addRep stats = .ok all) :
    ProperStats all := by
  induction rows generalizing stats with
  | nil =>
    cases hrows
    exact h
  | cons row rows ih =>
    rw [List.foldlM_cons] at hrows
    obtain ⟨next, hnext, hrows⟩ := Fault.bind_eq_ok_iff.mp hrows
    exact ih (h.addRep hnext) hrows

theorem properStats_repStats {rows : List Value} {stats : Named RepStats}
    (h : repStats rows = .ok stats) : ProperStats stats := by
  have hempty : ProperStats [] := ⟨List.nodup_nil, nofun⟩
  rw [repStats_eq] at h
  exact hempty.addReps h

/-- What a store has on reps: their stats, the spend and the number of all appointments. -/
structure RepFigures where
  stats : Named RepStats
  spend : Float
  total : Float

def repFigures (answer : String → Fields → Except Fault Value) (stats total spend : Call) :
    Except Fault RepFigures := do
  let stats ← answer stats.sql stats.params
  let total ← answer total.sql total.params
  let spend ← answer spend.sql spend.params
  let spend ← scalarValue spend
  let total ← scalarValue total
  let stats ← repStats (← stats.entries)
  .ok ⟨stats, spend, total⟩

theorem properStats_repFigures {answer : String → Fields → Except Fault Value}
    {stats total spend : Call} {found : RepFigures}
    (h : repFigures answer stats total spend = .ok found) : ProperStats found.stats := by
  obtain ⟨_, -, h⟩ := Fault.bind_eq_ok_iff.mp h
  obtain ⟨_, -, h⟩ := Fault.bind_eq_ok_iff.mp h
  obtain ⟨_, -, h⟩ := Fault.bind_eq_ok_iff.mp h
  obtain ⟨_, -, h⟩ := Fault.bind_eq_ok_iff.mp h
  obtain ⟨_, -, h⟩ := Fault.bind_eq_ok_iff.mp h
  obtain ⟨_, -, h⟩ := Fault.bind_eq_ok_iff.mp h
  obtain ⟨_, hstats, h⟩ := Fault.bind_eq_ok_iff.mp h
  cases h
  exact properStats_repStats hstats

def showsMultiple (m : Metric) (settings : Fields) : Bool :=
  m.key == "rep_roi_multiplier" ||
    (match setting settings "roiDisplay" with
      | .text s => s == "multiplier"
      | _ => false)

/-- The reps that a store has figures on and requested ones, with what is shown for them. -/
def RepFigures.reps (found : RepFigures) (asMultiple : Bool) (requested : List String) :
    List (String × Float) :=
  repRows (withRequested found.stats requested) found.spend found.total asMultiple

def rowsOfReps (reps : List (String × Float)) : Rows :=
  reps.map fun (id, x) => .object [("rep_id", .text id), ("value", .double x)]

def repStatsDraft (n : Headcount) : Draft :=
  ⟨repStatsSelect (texts .appointments none true n), .people .appointments⟩

variable {m : Metric} {f : Filters} {settings : Fields} {start finish : Date}

/-- The plan by reps puts together what the store has on them. Of the requested reps it reads the
identifiers. -/
theorem rows_repRoiPlan (hdays : f.days = .ok (start, finish)) {plan : FormulaPlan}
    (h : repRoiPlan m f settings .rep = .ok plan) (known : Zones)
    (answer : String → Fields → Except Fault Value) :
    plan.rows known answer = repFigures answer ((repStatsDraft f.headcount).call f start finish)
      (totalAppointmentsDraft.call f start finish) (spendDraft.call f start finish) >>= fun found =>
        .ok (rowsOfReps (found.reps (showsMultiple m settings) (Identifier.kept f.repIds))) := by
  obtain ⟨stats, hstats, h⟩ := Fault.bind_eq_ok_iff.mp h
  obtain ⟨total, htotal, h⟩ := Fault.bind_eq_ok_iff.mp h
  obtain ⟨spend, hspend, h⟩ := Fault.bind_eq_ok_iff.mp h
  rw [repStatsQuery_eq hdays] at hstats
  rw [totalAppointmentsQuery, sumQuery_wide_eq hdays] at htotal
  rw [spendQuery, sumQuery_wide_eq hdays] at hspend
  cases hstats
  cases htotal
  cases hspend
  cases h
  simp only [FormulaPlan.rows, repFigures, List.mapM_cons, List.mapM_nil, bind_assoc, pure_bind]
  rfl

namespace RepFigures

variable (found : RepFigures) (asMultiple : Bool) (requested : List String)

def shown (s : RepStats) : Float :=
  Value.orZero (Value.finite? (repRoi s.cash s.appointments found.spend found.total asMultiple))

def known : Named Float := found.stats.map fun (id, s) => (id, found.shown asMultiple s)

theorem names_known : (found.known asMultiple).names = found.stats.names := by
  simp [known, Named.names, Function.comp_def]

/-- A result has a row for each rep that the store has figures on and, behind these, for each
requested one that is not there. -/
theorem perm_reps : ((found.reps asMultiple requested).map fun p =>
      (p.1, Value.orZero (Value.finite? p.2))).Perm
    (found.known asMultiple ++ ((requested.removeAll found.stats.names).eraseDups.map
      fun id => (id, found.shown asMultiple .none))) := by
  refine ((List.mergeSort_perm _ _).map _).trans ?_
  rw [withRequested_eq, List.map_map, List.map_append, List.map_map]
  rfl

theorem named_reps {found : RepFigures} (h : ProperStats found.stats) {requested : List String}
    (hrequested : ∀ id ∈ requested, id ≠ "") :
    ∀ p ∈ found.reps asMultiple requested, p.1 ≠ "" := by
  intro p hp
  have hshown := (found.perm_reps asMultiple requested).mem_iff.mp (List.mem_map_of_mem hp)
  rcases List.mem_append.mp hshown with hknown | hnew
  · refine h.named p.1 ?_
    rw [← found.names_known asMultiple]
    exact List.mem_map.mpr ⟨_, hknown, rfl⟩
  · obtain ⟨n, hn, heq⟩ := List.mem_map.mp hnew
    obtain rfl : n = p.1 := congrArg Prod.fst heq
    exact hrequested p.1 (List.mem_filter.mp (List.mem_eraseDups.mp hn)).1

end RepFigures

end Plan

end Funnel
