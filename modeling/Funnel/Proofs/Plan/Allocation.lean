import Funnel.Proofs.Plan.RepRows
import Mathlib.Algebra.BigOperators.Ring.List
import Mathlib.Algebra.Order.BigOperators.Group.List
import Mathlib.Algebra.Order.Field.Rat
import Mathlib.Tactic.FieldSimp

/-!
# Allocated spend

The spend of an account is laid on its appointments. Computed with exact numbers, the parts of the
spend add up to the spend again, and the reps' multiples, each weighted by the rep's part of the
appointments, add up to the multiple of the account. The plans compute the same expressions with
doubles.
-/

set_option autoImplicit false

namespace Funnel.Plan

open Number

/-- The operations that an amount is computed with. -/
structure Arithmetic (α : Type) where
  zero : α
  one : α
  add : α → α → α
  sub : α → α → α
  mul : α → α → α
  div : α → α → α
  isZero : α → Bool
  less : α → α → Bool

def doubles : Arithmetic Float :=
  ⟨0.0, 1, (· + ·), (· - ·), (· * ·), (· / ·), (· == 0), fun x y => decide (x < y)⟩

def exact : Arithmetic ℚ :=
  ⟨0, 1, (· + ·), (· - ·), (· * ·), (· / ·), fun x => decide (x = 0), fun x y => decide (x < y)⟩

namespace Arithmetic

variable {α : Type} (a : Arithmetic α)

def quotient (x y : α) : α := if a.isZero y then a.zero else a.div x y

/-- The part of the spend that is allocated to some of the appointments. -/
def cost (appointments spend total : α) : α := a.mul (a.quotient spend total) appointments

/-- Cash as a multiple of the allocated spend, or less one. -/
def roi (cash appointments spend total : α) (asMultiple : Bool) : α :=
  let cost := a.cost appointments spend total
  if a.isZero cost then a.zero
  else if asMultiple then a.div cash cost
  else a.sub (a.div cash cost) a.one

def sum (xs : List α) : α := xs.foldl a.add a.zero

end Arithmetic

/-- Cash and appointments of reps, beside the spend and all appointments of the account. -/
structure Ledger (α : Type) where
  reps : Named (α × α)
  spend : α
  total : α

namespace Ledger

variable {α : Type} (l : Ledger α) (a : Arithmetic α)

/-- The reps of the ledger and the requested ones, who have nothing unless they are there. -/
def members (requested : List String) : Named (α × α) :=
  requested.foldl (fun reps id =>
    if id ∈ reps.names then reps else reps ++ [(id, (a.zero, a.zero))]) l.reps

theorem members_cons (id : String) (ids : List String) : l.members a (id :: ids) =
    Ledger.members ⟨if id ∈ l.reps.names then l.reps else l.reps ++ [(id, (a.zero, a.zero))],
      l.spend, l.total⟩ a ids := rfl

def costs (requested : List String) : Named α :=
  (l.members a requested).map fun (id, (_, appointments)) =>
    (id, a.cost appointments l.spend l.total)

def byRep (asMultiple : Bool) (requested : List String) : Named α :=
  ((l.members a requested).map fun (id, (cash, appointments)) =>
    (id, a.roi cash appointments l.spend l.total asMultiple)).mergeSort
      fun p q => !a.less p.2 q.2

def altogether (asMultiple : Bool) (requested : List String) : α :=
  a.roi (a.sum ((l.members a requested).map fun p => p.2.1))
    (a.sum ((l.members a requested).map fun p => p.2.2)) l.spend l.total asMultiple

def appointmentsOf (id : String) : α := ((l.reps.find? id).map Prod.snd).getD a.zero

end Ledger

/-- An entity with its keys, its appointments and the cost of each. -/
structure EntityCost (α : Type) where
  ids : Fields
  appointments : α
  value : α

/-- Every entity has the cost of the account. -/
def entityCosts {α : Type} (a : Arithmetic α) (spend total : α) (entities : List (Fields × α)) :
    List (EntityCost α) :=
  entities.map fun (ids, appointments) => ⟨ids, appointments, a.quotient spend total⟩

def RepFigures.ledger (found : RepFigures) : Ledger Float :=
  ⟨found.stats.map fun (id, s) => (id, (s.cash, s.appointments)), found.spend, found.total⟩

theorem names_ledger (found : RepFigures) : found.ledger.reps.names = found.stats.names := by
  simp [RepFigures.ledger, Named.names, Function.comp_def]

theorem members_ledger (found : RepFigures) (requested : List String) :
    found.ledger.members doubles requested = (withRequested found.stats requested).map
      fun (id, s) => (id, (s.cash, s.appointments)) := by
  obtain ⟨stats, spend, total⟩ := found
  induction requested generalizing stats with
  | nil => rfl
  | cons id ids ih =>
    rw [withRequested_cons, Ledger.members_cons, names_ledger, ← ih]
    by_cases hold : id ∈ stats.names
    · simp only [RepFigures.ledger, if_pos hold]
    · simp only [RepFigures.ledger, if_neg hold, List.map_append]
      rfl

theorem reps_eq_byRep (found : RepFigures) (asMultiple : Bool) (requested : List String) :
    found.reps asMultiple requested = found.ledger.byRep doubles asMultiple requested := by
  rw [Ledger.byRep, members_ledger, List.map_map]
  rfl

variable {m : Metric} {f : Filters} {settings : Fields} {b : Breakdown} {plan : FormulaPlan}

theorem combine_rep (h : repRoiPlan m f settings .rep = .ok plan) (known : Calendar.Zones)
    (results : Results) :
    plan.combine known results = readFigures results >>= fun found => .ok (rowsOfReps
      (found.ledger.byRep doubles (showsMultiple m settings) (Identifier.kept f.repIds))) := by
  simp only [combine_repRoiPlan h, reps_eq_byRep]

theorem combine_total (h : repRoiPlan m f settings .total = .ok plan) (known : Calendar.Zones)
    (results : Results) :
    plan.combine known results = readFigures results >>= fun found => .ok (doubleRow
      (found.ledger.altogether doubles (showsMultiple m settings)
        (Identifier.kept f.repIds))) := by
  obtain ⟨stats, -, h⟩ := Fault.bind_eq_ok_iff.mp h
  obtain ⟨total, -, h⟩ := Fault.bind_eq_ok_iff.mp h
  obtain ⟨spend, -, h⟩ := Fault.bind_eq_ok_iff.mp h
  cases h
  simp only [readFigures, bind_assoc, Ledger.altogether, members_ledger, List.map_map]
  rfl

def readEntity (keys : List (String × String)) (entity : Value) :
    Except Fault (Fields × Float) := do
  let ids ← keys.mapM fun (_, n) => do .ok (n, ← entity.get n)
  let appointments ← numberOrZero (← entity.get "appointments")
  .ok (ids, appointments)

def EntityCost.row (c : EntityCost Float) : Value :=
  .object (Named.putAll c.ids
    [("appointments", .double c.appointments), ("value", .double c.value)])

theorem mapM_entityRow (keys : List (String × String)) (spend total : Float)
    (entities : List Value) : entities.mapM (entityRow keys (safeDiv spend total)) =
      entities.mapM (readEntity keys) >>= fun read =>
        .ok ((entityCosts doubles spend total read).map EntityCost.row) := by
  induction entities with
  | nil => rfl
  | cons entity entities ih =>
    rw [List.mapM_cons, List.mapM_cons, ih]
    simp only [entityRow, readEntity, bind_assoc]
    rfl

theorem combine_entities (h : costPerBookedCallPlan f b = .ok plan)
    (hkeys : (Table.appointments.keys b).isEmpty = false) (known : Calendar.Zones)
    (results : Results) :
    plan.combine known results =
      scalarValue (results "spend") >>= fun spend =>
        scalarValue (results "total_appointments") >>= fun total =>
          (results "entities").entries >>= fun entities =>
            entities.mapM (readEntity (Table.appointments.keys b)) >>= fun read =>
              .ok ((entityCosts doubles spend total read).map EntityCost.row) := by
  obtain ⟨total, -, h⟩ := Fault.bind_eq_ok_iff.mp h
  obtain ⟨spend, -, h⟩ := Fault.bind_eq_ok_iff.mp h
  have hsome : ¬ (Table.appointments.keys b).isEmpty = true := by
    rw [hkeys]
    decide
  dsimp only at h
  rw [if_neg hsome] at h
  obtain ⟨entities, -, h⟩ := Fault.bind_eq_ok_iff.mp h
  cases h
  simp only [if_neg hsome, mapM_entityRow]

theorem sum_exact (xs : List ℚ) : exact.sum xs = xs.sum := (List.sum_eq_foldl ..).symm

theorem isZero_exact (x : ℚ) : exact.isZero x = true ↔ x = 0 := decide_eq_true_iff

theorem quotient_exact {x y : ℚ} (h : y ≠ 0) : exact.quotient x y = x / y :=
  if_neg (mt (isZero_exact y).mp h)

theorem cost_exact {total : ℚ} (h : total ≠ 0) (appointments spend : ℚ) :
    exact.cost appointments spend total = spend / total * appointments :=
  congrArg (· * appointments) (quotient_exact h)

theorem cost_exact_zero (spend total : ℚ) : exact.cost 0 spend total = 0 := mul_zero _

theorem roi_exact {cash appointments spend total : ℚ}
    (h : exact.cost appointments spend total ≠ 0) :
    exact.roi cash appointments spend total true = cash / exact.cost appointments spend total :=
  if_neg (mt (isZero_exact _).mp h)

theorem roi_exact_of_cost {cash appointments spend total : ℚ}
    (h : exact.cost appointments spend total = 0) (asMultiple : Bool) :
    exact.roi cash appointments spend total asMultiple = 0 :=
  if_pos ((isZero_exact _).mpr h)

namespace Ledger

variable {l : Ledger ℚ}

/-- Requested reps who are not in a ledger have nothing. -/
theorem exists_members (l : Ledger ℚ) (requested : List String) : ∃ ids : List String,
    l.members exact requested = l.reps ++ (ids.map fun id => (id, ((0 : ℚ), (0 : ℚ)))) ∧
      ∀ id ∈ ids, id ∉ l.reps.names := by
  induction requested generalizing l with
  | nil => exact ⟨[], (List.append_nil _).symm, List.forall_mem_nil _⟩
  | cons id requested ih =>
    obtain ⟨ids, hmembers, hnew⟩ := ih ⟨if id ∈ l.reps.names then l.reps
      else l.reps ++ [(id, (exact.zero, exact.zero))], l.spend, l.total⟩
    rw [members_cons, hmembers]
    dsimp only at hnew ⊢
    by_cases hid : id ∈ l.reps.names
    · rw [if_pos hid] at hnew ⊢
      exact ⟨ids, rfl, hnew⟩
    · rw [if_neg hid] at hnew ⊢
      refine ⟨id :: ids, ?_, List.forall_mem_cons.mpr ⟨hid, fun n hn hold => ?_⟩⟩
      · rw [List.append_assoc]
        rfl
      · refine hnew n hn ?_
        rw [Named.names_append, List.mem_append]
        exact .inl hold

/-- Reps who have nothing add nothing to a sum. -/
theorem sum_members (l : Ledger ℚ) (requested : List String) {g : ℚ × ℚ → ℚ} (h : g (0, 0) = 0) :
    ((l.members exact requested).map fun p => g p.2).sum = (l.reps.map fun p => g p.2).sum := by
  obtain ⟨ids, hmembers, -⟩ := l.exists_members requested
  have hnothing : (ids.map fun _ => g (0, 0)).sum = 0 := by
    rw [h]
    simp
  rw [hmembers, List.map_append, List.sum_append, List.map_map]
  change _ + (ids.map fun _ => g (0, 0)).sum = _
  rw [hnothing, add_zero]

theorem appointmentsOf_eq (hdistinct : l.reps.names.Nodup) {requested : List String}
    {p : String × (ℚ × ℚ)} (h : p ∈ l.members exact requested) :
    l.appointmentsOf exact p.1 = p.2.2 := by
  obtain ⟨ids, hmembers, hnew⟩ := l.exists_members requested
  rw [hmembers] at h
  rcases List.mem_append.mp h with h | h
  · rw [appointmentsOf, Named.find?_of_mem hdistinct h]
    rfl
  · obtain ⟨id, hid, rfl⟩ := List.mem_map.mp h
    rw [appointmentsOf, Named.find?_of_notMem (hnew id hid)]
    rfl

theorem sum_costs (hall : (l.reps.map fun p => p.2.2).sum = l.total) (htotal : l.total ≠ 0)
    (requested : List String) : ((l.costs exact requested).map Prod.snd).sum = l.spend := by
  have hcost : ((l.costs exact requested).map Prod.snd).sum =
      ((l.members exact requested).map fun p => exact.cost p.2.2 l.spend l.total).sum := by
    rw [costs, List.map_map]
    rfl
  rw [hcost, @sum_members l requested (fun p => exact.cost p.2 l.spend l.total)
    (cost_exact_zero _ _)]
  simp only [cost_exact htotal]
  rw [List.sum_map_mul_left, hall]
  exact div_mul_cancel₀ _ htotal

theorem total_pos (hcounts : ∀ p ∈ l.reps, 0 < p.2.2)
    (hall : (l.reps.map fun p => p.2.2).sum = l.total) {p : String × (ℚ × ℚ)} (hp : p ∈ l.reps) :
    0 < l.total := by
  have hnonneg : ∀ n ∈ l.reps.map fun p => p.2.2, 0 ≤ n := by
    intro n hn
    obtain ⟨q, hq, rfl⟩ := List.mem_map.mp hn
    exact (hcounts q hq).le
  rw [← hall]
  exact (hcounts p hp).trans_le (List.single_le_sum hnonneg _ (List.mem_map_of_mem hp))

/-- What cash and appointments of a rep add to the weighted mean of the multiples. -/
def weighted (l : Ledger ℚ) (stats : ℚ × ℚ) : ℚ :=
  stats.2 / l.total * exact.roi stats.1 stats.2 l.spend l.total true

theorem weighted_nothing (l : Ledger ℚ) : l.weighted (0, 0) = 0 := by
  simp [weighted]

/-- A rep with appointments adds the cash as a multiple of the spend. -/
theorem weighted_eq (hspend : 0 < l.spend) (htotal : 0 < l.total) {stats : ℚ × ℚ}
    (h : 0 < stats.2) : l.weighted stats = stats.1 / l.spend := by
  have hcost : exact.cost stats.2 l.spend l.total = l.spend / l.total * stats.2 :=
    cost_exact htotal.ne' _ _
  have hne : exact.cost stats.2 l.spend l.total ≠ 0 := by
    rw [hcost]
    exact (mul_pos (div_pos hspend htotal) h).ne'
  rw [weighted, roi_exact hne, hcost]
  field_simp

theorem sum_weighted (hdistinct : l.reps.names.Nodup) (hspend : 0 < l.spend)
    (hcounts : ∀ p ∈ l.reps, 0 < p.2.2) (hall : (l.reps.map fun p => p.2.2).sum = l.total)
    (requested : List String) :
    ((l.byRep exact true requested).map fun p =>
      l.appointmentsOf exact p.1 / l.total * p.2).sum = l.altogether exact true requested := by
  have hrows : ((l.byRep exact true requested).map fun p =>
      l.appointmentsOf exact p.1 / l.total * p.2).sum =
        ((l.members exact requested).map fun p => l.weighted p.2).sum := by
    rw [byRep, ((List.mergeSort_perm _ _).map _).sum_eq, List.map_map]
    refine congrArg List.sum (List.map_congr_left fun p hp => ?_)
    change l.appointmentsOf exact p.1 / l.total * _ = p.2.2 / l.total * _
    rw [appointmentsOf_eq hdistinct hp]
  have hreps : (l.reps.map fun p => l.weighted p.2).sum =
      (l.reps.map fun p => p.2.1).sum / l.spend := by
    rw [div_eq_mul_inv, ← List.sum_map_mul_right]
    refine congrArg List.sum (List.map_congr_left fun p hp => ?_)
    rw [← div_eq_mul_inv]
    exact weighted_eq hspend (total_pos hcounts hall hp) (hcounts p hp)
  have hcash := @sum_members l requested Prod.fst rfl
  have hmany := @sum_members l requested Prod.snd rfl
  rw [hrows, @sum_members l requested l.weighted l.weighted_nothing, hreps, altogether, sum_exact,
    sum_exact, hcash, hmany, hall]
  by_cases htotal : l.total = 0
  · have hnone : l.reps = [] := List.eq_nil_iff_forall_not_mem.mpr fun p hp =>
      (total_pos hcounts hall hp).ne' htotal
    rw [htotal, roi_exact_of_cost (cost_exact_zero _ _), hnone]
    exact zero_div _
  · have hcost : exact.cost l.total l.spend l.total = l.spend :=
      (cost_exact htotal _ _).trans (div_mul_cancel₀ _ htotal)
    have hne : exact.cost l.total l.spend l.total ≠ 0 := by
      rw [hcost]
      exact hspend.ne'
    rw [roi_exact hne, hcost]

end Ledger

theorem sum_entityCosts {spend total : ℚ} {entities : List (Fields × ℚ)}
    (hall : (entities.map Prod.snd).sum = total) (htotal : total ≠ 0) :
    ((entityCosts exact spend total entities).map fun c => c.value * c.appointments).sum =
      spend := by
  have hcosts : ((entityCosts exact spend total entities).map
      fun c => c.value * c.appointments).sum =
        (entities.map fun e => spend / total * e.2).sum := by
    rw [entityCosts, List.map_map, quotient_exact htotal]
    rfl
  rw [hcosts, List.sum_map_mul_left, hall]
  exact div_mul_cancel₀ _ htotal

/-- The plans compute their rows with an arithmetic of doubles. No rep is in a ledger twice. -/
structure PlansCompute (a : Arithmetic Float) : Prop where
  distinct : ∀ {results : Results} {found : RepFigures}, readFigures results = .ok found →
    found.ledger.reps.names.Nodup
  byRep : ∀ {m : Metric} {f : Filters} {settings : Fields} {plan : FormulaPlan},
    repRoiPlan m f settings .rep = .ok plan → ∀ known results,
      plan.combine known results = readFigures results >>= fun found => .ok (rowsOfReps
        (found.ledger.byRep a (showsMultiple m settings) (Identifier.kept f.repIds)))
  altogether : ∀ {m : Metric} {f : Filters} {settings : Fields} {plan : FormulaPlan},
    repRoiPlan m f settings .total = .ok plan → ∀ known results,
      plan.combine known results = readFigures results >>= fun found => .ok (doubleRow
        (found.ledger.altogether a (showsMultiple m settings) (Identifier.kept f.repIds)))
  entities : ∀ {f : Filters} {b : Breakdown} {plan : FormulaPlan},
    costPerBookedCallPlan f b = .ok plan → (Table.appointments.keys b).isEmpty = false →
      ∀ known results, plan.combine known results =
        scalarValue (results "spend") >>= fun spend =>
          scalarValue (results "total_appointments") >>= fun total =>
            (results "entities").entries >>= fun entities =>
              entities.mapM (readEntity (Table.appointments.keys b)) >>= fun read =>
                .ok ((entityCosts a spend total read).map EntityCost.row)

/-- An arithmetic loses nothing of the spend when it is laid on appointments. -/
structure Conserves (a : Arithmetic ℚ) : Prop where
  entities : ∀ {spend total : ℚ} {entities : List (Fields × ℚ)},
    (entities.map Prod.snd).sum = total → 0 < total →
      ((entityCosts a spend total entities).map fun c => c.value * c.appointments).sum = spend
  costs : ∀ {l : Ledger ℚ}, (l.reps.map fun p => p.2.2).sum = l.total → 0 < l.total →
    ∀ requested, ((l.costs a requested).map Prod.snd).sum = l.spend
  multiples : ∀ {l : Ledger ℚ}, l.reps.names.Nodup → 0 < l.spend → (∀ p ∈ l.reps, 0 < p.2.2) →
    (l.reps.map fun p => p.2.2).sum = l.total → ∀ requested,
      ((l.byRep a true requested).map fun p => l.appointmentsOf a p.1 / l.total * p.2).sum =
        l.altogether a true requested

theorem distinct_readFigures {results : Results} {found : RepFigures}
    (h : readFigures results = .ok found) : found.ledger.reps.names.Nodup := by
  obtain ⟨_, -, h⟩ := Fault.bind_eq_ok_iff.mp h
  obtain ⟨_, -, h⟩ := Fault.bind_eq_ok_iff.mp h
  obtain ⟨_, -, h⟩ := Fault.bind_eq_ok_iff.mp h
  obtain ⟨stats, hstats, h⟩ := Fault.bind_eq_ok_iff.mp h
  cases h
  rw [names_ledger]
  exact (properStats_repStats hstats).nodup

/-- The plans compute with doubles; computed exactly, the costs of the calls add up to the spend,
and so do the costs that are allocated to reps, whose multiples, weighted by their parts of the
appointments, add up to the multiple of the account. -/
theorem allocation_conserves : PlansCompute doubles ∧ Conserves exact where
  left :=
    { distinct := distinct_readFigures
      byRep := combine_rep
      altogether := combine_total
      entities := combine_entities }
  right :=
    { entities := fun hall htotal => sum_entityCosts hall htotal.ne'
      costs := fun hall htotal => Ledger.sum_costs hall htotal.ne'
      multiples := Ledger.sum_weighted }

theorem allocation_conserves_two_reps :
    let l : Ledger ℚ := ⟨[("r1", (300, 1)), ("r2", (100, 3))], 100, 4⟩
    ((entityCosts exact 100 4 [([], 1), ([], 3)]).map
      fun c => c.value * c.appointments).sum = 100 ∧
    ((l.costs exact ["r3"]).map Prod.snd).sum = 100 ∧
    ((l.byRep exact true ["r3"]).map fun p => l.appointmentsOf exact p.1 / 4 * p.2).sum =
      l.altogether exact true ["r3"] ∧ l.altogether exact true ["r3"] = 4 := by
  intro l
  obtain ⟨-, hentities, hcosts, hmultiples⟩ := allocation_conserves
  have hdistinct : l.reps.names.Nodup := by decide
  have hcounts : ∀ p ∈ l.reps, 0 < p.2.2 := by decide
  have hall : (l.reps.map fun p => p.2.2).sum = l.total := by decide +kernel
  have hspend : 0 < l.spend := by decide
  refine ⟨hentities (by decide +kernel) (by decide), hcosts hall (by decide) _,
    hmultiples hdistinct hspend hcounts hall _, by decide +kernel⟩

end Funnel.Plan
