import Funnel.Proofs.DataView.Figure
import Funnel.Proofs.Engine.Pointwise
import Funnel.Proofs.Number.Whole
import Funnel.Proofs.Plan.Draft
import Funnel.Proofs.Series.Tally
import Mathlib.Algebra.Order.BigOperators.Group.List
import Mathlib.Algebra.Order.Group.Nat

/-!
# Figures that are counted day by day

A store may count something on each day and answer with the sum over the days of a range. What it
counts on a day may depend on the account and the people of a query, not on the range, so the figure
of a person is a sum over days as well, also where it is put together from two sides.
-/

set_option autoImplicit false

namespace Funnel

open Calendar Number Session Standard

/-- The parameters of a query without the days of its range. -/
def undated (params : Fields) : Fields :=
  params.filter fun p => p.1 ≠ "start_date" ∧ p.1 ≠ "end_date"

/-- To the query of a metric for one number the store answers with what it counts on the days of the
range, as long as that is a number that doubles have. -/
def Store.CountsByDay (s : Store) (m : Metric) (count : Fields → Date → Nat) : Prop :=
  ∀ (f : Filters) (first last : Date) (q : BoundQuery), f.reasons = [] →
    f.days = .ok (first, last) → Plan.generic m f .total = .ok q →
    tally (count (undated q.params)) first last < pow2 53 → ∀ earlier, ∃ row rest v,
      s.answer earlier q.toCall = .ok (.list (row :: rest)) ∧ row.get "value" = .ok v ∧
      v.number? = .ok (some (ofInt (tally (count (undated q.params)) first last : Nat)))

namespace View

variable {v : View} {m : Metric}

def bindings (v : View) (m : Metric) (user : String) (s : Side) : Fields :=
  match Plan.generic m (v.narrowed s user) .total with
  | .ok q => undated q.params
  | .error _ => []

def dayCount (v : View) (m : Metric) (count : Fields → Date → Nat) (user role : String)
    (d : Date) : Nat := ((m.sides role).map fun s => count (v.bindings m user s) d).sum

theorem undated_fields (f : Filters) (t : Table) (start finish : Date) :
    undated ((Scope.people t).fields f start finish) =
      ("account_id", accountValue f) :: undated (userFields f t) := by
  rw [Scope.fields, accountFields, undated, List.filter_append]
  rfl

/-- The range decides nothing but the days. -/
theorem bindings_during {t : Table} (ht : m.tableSpec = .ok t) {range : DateRange}
    {first last start finish : Date} (hdays : (v.during range).filters.days = .ok (first, last))
    (hwhole : v.filters.days = .ok (start, finish)) (user : String) (s : Side) :
    (v.during range).bindings m user s = v.bindings m user s := by
  have hpart : ((v.during range).narrowed s user).days = .ok (first, last) := hdays
  have hall : (v.narrowed s user).days = .ok (start, finish) := hwhole
  rw [bindings, bindings, Plan.generic_eq ht hpart, Plan.generic_eq ht hall]
  change undated ((Scope.people t).fields ((v.during range).narrowed s user) first last) =
    undated ((Scope.people t).fields (v.narrowed s user) start finish)
  rw [undated_fields, undated_fields]
  rfl

end View

theorem Value.number?_whole {n : Nat} (h : n < pow2 53) :
    (Value.int n).number? = .ok (some (ofInt n)) := by
  rw [number?, finite?, if_pos (isFinite_ofInt h)]

theorem Value.orZero_whole {n : Nat} (h : n < pow2 53) : orZero (some (ofInt n)) = ofInt n := by
  rw [orZero]
  by_cases h0 : n = 0
  · subst h0
    rfl
  · rw [ofInt_beq_zero h0 h]
    rfl

theorem combineSides_whole {ns : List Nat} (h : ns.sum < pow2 53) :
    combineSides .count (ns.map fun (n : Nat) => ofInt n) = ofInt ns.sum := by
  match ns with
  | [] => rfl
  | [n] => rw [List.sum_singleton]; rfl
  | a :: b :: ns => exact plainSum_whole h

namespace Engine

variable {e : Engine} {v : View} {name : String} {m : Metric} {count : Fields → Date → Nat}
  {first last : Date}

theorem shape_whole {row v : Value} {n : Nat} (h : n < pow2 53) (hvalue : row.get "value" = .ok v)
    (hnumber : v.number? = .ok (some (ofInt n))) (rest : List Value) :
    Result.shape .total (.list (row :: rest)) none false = .ok (.total (ofInt n)) := by
  have hnumberOf : Result.numberOf row = .ok (ofInt n) := by
    rw [Result.numberOf, hvalue]
    change (v.number? >>= fun x => .ok (Value.orZero x)) = _
    rw [hnumber]
    exact congrArg Except.ok (Value.orZero_whole h)
  have htotal : Result.totalOf (.list (row :: rest)) = .ok (ofInt n) := hnumberOf
  rw [Result.shape, htotal]
  rfl

theorem gives_runGeneric (hcount : e.store.CountsByDay m count) {f : Filters}
    (hf : f.reasons = []) (hdays : f.days = .ok (first, last)) {q : BoundQuery}
    (hq : Plan.generic m f .total = .ok q)
    (hsmall : tally (count (undated q.params)) first last < pow2 53) :
    (e.runGeneric m f .total).Gives
      (.ok (.total (ofInt (tally (count (undated q.params)) first last : Nat)))) := by
  refine gives_bind_ok (fun _ => hq) fun trace => ?_
  obtain ⟨row, rest, v, hanswer, hvalue, hnumber⟩ :=
    hcount f first last q hf hdays hq hsmall trace.calls
  rw [run_bind, run_ask, hanswer]
  exact shape_whole hsmall hvalue hnumber rest

theorem gives_sideValue (hm : Registry.find? name = some m) (hplain : m.isSpecial = false)
    (hcount : e.store.CountsByDay m count) (hf : v.filters.reasons = [])
    (hdays : v.filters.days = .ok (first, last)) {user : String} {s : Side}
    (hsmall : tally (count (v.bindings m user s)) first last < pow2 53) :
    (e.sideValue v name user s).Gives
      (.ok (ofInt (tally (count (v.bindings m user s)) first last : Nat))) := by
  obtain ⟨t, ht⟩ := Registry.exists_table hm
  have hstrategy := View.selectStrategy_options (v := v) ht
  rw [hplain, if_neg Bool.false_ne_true] at hstrategy
  have hnarrowed : (v.narrowed s user).days = .ok (first, last) := hdays
  obtain ⟨q, hq⟩ : ∃ q, Plan.generic m (v.narrowed s user) .total = .ok q :=
    ⟨_, Plan.generic_eq ht hnarrowed .total⟩
  have hbindings : v.bindings m user s = undated q.params := by rw [View.bindings, hq]
  rw [hbindings] at hsmall ⊢
  have hreasons : (v.narrowed s user).reasons = [] := hf
  have hrun : (e.run m (v.narrowed s user) v.options .generic .total).Gives
      (.ok (.total (ofInt (tally (count (undated q.params)) first last : Nat)))) :=
    gives_runGeneric hcount hreasons hnarrowed hq hsmall
  have hexecute := gives_execute hm hreasons hstrategy hrun (Result.userIds_total _)
  exact gives_bind_ok hexecute (gives_pure _)

theorem yields_userCell (hm : Registry.find? name = some m) (hplain : m.isSpecial = false)
    (hunit : m.unit = .count) (hcount : e.store.CountsByDay m count)
    (hf : v.filters.reasons = []) (hdays : v.filters.days = .ok (first, last)) (p : Profile)
    (hsmall : ∀ role, tally (v.dayCount m count p.userId role) first last < pow2 53) :
    (e.userCell v p name).Yields fun cell => ∃ role, roleOf p.role = .ok role ∧
      cell.value = ofInt (tally (v.dayCount m count p.userId role) first last : Nat) := by
  unfold userCell
  rw [hm]
  refine yields_bind (yields_ofExcept fun role h => h) fun role hrole => ?_
  let ns := (m.sides role).map fun s => tally (count (v.bindings m p.userId s)) first last
  have hsum : ns.sum = tally (v.dayCount m count p.userId role) first last :=
    sum_tally (m.sides role) (fun s => count (v.bindings m p.userId s)) first last
  have hfits : ns.sum < pow2 53 := hsum ▸ hsmall role
  have hvalues : (gather ((m.sides role).map (e.sideValue v name p.userId))).Gives
      (.ok (ns.map fun (n : Nat) => ofInt n)) := by
    have hside : ∀ s ∈ m.sides role, (e.sideValue v name p.userId s).Gives
        (.ok (ofInt (tally (count (v.bindings m p.userId s)) first last : Nat))) := by
      intro s hs
      refine gives_sideValue hm hplain hcount hf hdays (Nat.lt_of_le_of_lt ?_ hfits)
      exact List.le_sum_of_mem (List.mem_map_of_mem hs)
    have hgather := gives_gather hside
    rw [Fault.mapM_eq_ok fun _ _ => rfl] at hgather
    rw [List.map_map]
    exact hgather
  have hvalue := combineSides_whole hfits
  rw [hsum] at hvalue
  split
  · -- Without a side the figure is zero, which is the sum of no counts.
    rename_i hnone
    have hns : ns = [] := congrArg (List.map _) hnone
    rw [hns] at hvalue
    exact yields_bind_last fun display => yields_pure ⟨role, hrole, hvalue⟩
  · refine yields_bind (hvalues.yields) ?_
    rintro _ rfl
    refine yields_bind_last fun display => ?_
    rw [hunit, hvalue]
    split <;> exact yields_pure ⟨role, hrole, rfl⟩

end Engine

end Funnel
