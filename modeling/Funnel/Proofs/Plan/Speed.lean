import Funnel.Plan.Formula
import Funnel.Proofs.Fault
import Funnel.Proofs.Filter.Checked
import Funnel.Proofs.Number.Unsigned
import Mathlib.Logic.Function.Basic

/-!
# Speed to lead

The seconds from each lead to its first dial come in the order of the pairs, but neither their mean
nor their median depends on it. A pair without two times that can be read is as good as none.
-/

set_option autoImplicit false

namespace Funnel.Plan

open Calendar Number

/-- There is an average or a median exactly if there is a number. -/
theorem apply_cases {a : Aggregate} {xs : List Float} {v : Value} (h : a.apply xs = .ok v) :
    (xs = [] ∧ v = .null) ∨ (xs ≠ [] ∧ ∃ x, v = .double x) := by
  unfold Aggregate.apply at h
  split at h
  · cases h
    exact .inl ⟨rfl, rfl⟩
  · rename_i hne
    refine .inr ⟨hne, ?_⟩
    split at h
    · cases h
      exact ⟨_, rfl⟩
    · split at h
      · cases h
        exact ⟨_, rfl⟩
      · cases h

theorem apply_perm (a : Aggregate) {xs ys : List Float} (hperm : xs.Perm ys)
    (h : ∀ x ∈ xs, IsUnsigned x) : a.apply xs = a.apply ys := by
  cases xs with
  | nil => rw [hperm.nil_eq]
  | cons x xs =>
    cases ys with
    | nil => cases hperm.eq_nil
    | cons y ys =>
      simp only [Aggregate.apply, median_perm hperm h, exactSum?_perm hperm h, hperm.length_eq]

def timeIn (name : String) (row : Value) : Option Moment :=
  (row.get name).toOption.bind Value.timestamp?

/-- A lead and its first dial have times that can be read. -/
def HasTimes (row : Value) : Prop :=
  (timeIn "lead_created_at" row).isSome = true ∧ (timeIn "first_dial_at" row).isSome = true

/-- Seconds from one moment to another, zero if that is the earlier one. -/
def secondsBetween (start finish : Moment) : Float :=
  let micros := finish.instant - start.instant
  let x := nearest (decide (micros < 0)) micros.natAbs 1000000
  if x < 0 then 0.0 else x

/-- There is no second of nothing: a difference of microseconds is not rounded to zero. -/
theorem nearestBits_micros_pos {micros : Nat} (h : micros ≠ 0) :
    0 < nearestBits micros 1000000 := by
  refine Nat.lt_of_lt_of_le (show 0 < 1003 * pow2 52 by decide)
    (le_nearestBits h (by decide) (by decide) (by decide) fun hunder => ?_)
  change micros * pow2 73 < pow2 53 * (1000000 * 1) at hunder
  have hlow : pow2 53 * (1000000 * 1) ≤ 1 * pow2 73 := by decide
  have hhigh : 1 * pow2 73 ≤ micros * pow2 73 :=
    Nat.mul_le_mul_right _ (Nat.one_le_iff_ne_zero.mpr h)
  omega

theorem isUnsigned_secondsBetween (start finish : Moment) :
    IsUnsigned (secondsBetween start finish) := by
  unfold secondsBetween
  generalize finish.instant - start.instant = micros
  simp only
  by_cases hneg : micros < 0
  · have hless := nearest_lt_zero (Nat.ne_of_gt (@nearestBits_micros_pos micros.natAbs (by omega)))
    rw [decide_eq_true hneg, if_pos hless]
    exact isUnsigned_nearest 0 1
  · rw [decide_eq_false hneg]
    split
    · exact isUnsigned_nearest 0 1
    · exact isUnsigned_nearest _ _

/-- When the wait for the first dial begins: with the lead, or at the next open moment. -/
def waitFrom (known : Zones) (hours : Option (List Hours.Window × Hours.Window)) (row : Value)
    (lead : Moment) : Except Fault Moment :=
  match hours with
  | none => .ok lead
  | some (windows, default) => do
    let phone ← Hours.phoneText (← row.get "phone")
    Hours.shiftBy known lead (Hours.windowFor phone windows default)

variable {known : Zones} {hours : Option (List Hours.Window × Hours.Window)} {row : Value}
  {fields : Fields}

theorem pairSeconds_object (known : Zones) (hours : Option (List Hours.Window × Hours.Window))
    (fields : Fields) : pairSeconds known hours (.object fields) =
      match timeIn "lead_created_at" (.object fields), timeIn "first_dial_at" (.object fields) with
      | some lead, some dial => do
        let start ← waitFrom known hours (.object fields) lead
        .ok (some (secondsBetween start dial))
      | _, _ => .ok none := by
  cases hours with
  | none => rfl
  | some hours =>
    simp only [waitFrom, bind_assoc]
    rfl

theorem pairSeconds_cases {seconds : Option Float} (h : pairSeconds known hours row = .ok seconds) :
    (seconds = none ∧ ¬ HasTimes row) ∨ (∃ x, seconds = some x ∧ IsUnsigned x) ∧ HasTimes row := by
  cases row with
  | object fields =>
    rw [pairSeconds_object] at h
    split at h
    · rename_i lead dial hlead hdial
      obtain ⟨start, -, h⟩ := Fault.bind_eq_ok_iff.mp h
      cases h
      rw [HasTimes, hlead, hdial]
      exact .inr ⟨⟨_, rfl, isUnsigned_secondsBetween _ _⟩, rfl, rfl⟩
    · rename_i hnone
      cases h
      refine .inl ⟨rfl, fun ⟨hlead, hdial⟩ => ?_⟩
      obtain ⟨lead, hlead⟩ := Option.isSome_iff_exists.mp hlead
      obtain ⟨dial, hdial⟩ := Option.isSome_iff_exists.mp hdial
      exact hnone lead dial hlead hdial
  | _ => cases h

theorem isUnsigned_of_pairSeconds {x : Float} (h : pairSeconds known hours row = .ok (some x)) :
    IsUnsigned x := by
  rcases pairSeconds_cases h with ⟨h, -⟩ | ⟨⟨_, ⟨⟩, hx⟩, -⟩
  · cases h
  · exact hx

theorem pairSeconds_of_not_hasTimes (h : ¬ HasTimes (.object fields)) :
    pairSeconds known hours (.object fields) = .ok none := by
  rw [pairSeconds_object]
  split
  · rename_i lead dial hlead hdial
    rw [HasTimes, hlead, hdial] at h
    exact absurd ⟨rfl, rfl⟩ h
  · rfl

def speedRows (known : Zones) (a : Aggregate)
    (hours : Option (List Hours.Window × Hours.Window)) (rows : List Value) :
    Except Fault Rows := do
  let seconds ← rows.mapM (pairSeconds known hours)
  .ok (valueRow (← a.apply (seconds.filterMap id)))

/-- Rows of pairs are answered alike, by an error that the settings make or by an aggregate. -/
def IsSpeed (known : Zones) (answer : List Value → Except Fault Rows) : Prop :=
  (∃ e, ∀ rows, answer rows = .error e) ∨
    ∃ a hours, ∀ rows, answer rows = speedRows known a hours rows

theorem isSpeed_bind {α : Type} {x : Except Fault α} {k : α → List Value → Except Fault Rows}
    (h : ∀ a, IsSpeed known (k a)) : IsSpeed known fun rows => x >>= fun a => k a rows := by
  cases x with
  | error e => exact .inl ⟨e, fun _ => rfl⟩
  | ok a => exact h a

theorem speedRows_perm {a : Aggregate} {rows others : List Value} (hperm : rows.Perm others) :
    (speedRows known a hours others).toOption = (speedRows known a hours rows).toOption := by
  have hmade : ∀ {rows others : List Value}, rows.Perm others → ∀ made,
      speedRows known a hours rows = .ok made → speedRows known a hours others = .ok made := by
    intro rows others hperm made h
    obtain ⟨seconds, hseconds, h⟩ := Fault.bind_eq_ok_iff.mp h
    obtain ⟨other, hother, hsame⟩ := Fault.exists_mapM_of_perm hperm hseconds
    have hunsigned : ∀ x ∈ seconds.filterMap id, IsUnsigned x := Fault.forall_of_mapM
      (fun _ _ => isUnsigned_of_pairSeconds) hseconds
    rw [apply_perm a (hsame.filterMap id) hunsigned] at h
    exact Fault.bind_eq_ok_iff.mpr ⟨other, hother, h⟩
  exact Fault.toOption_eq_of_ok_iff fun made => ⟨hmade hperm.symm made, hmade hperm made⟩

/-- Rows without two times that can be read may be left out. -/
theorem speedRows_filter {a : Aggregate} {rows : List Value} {keep : Value → Bool}
    (h : ∀ row ∈ rows, keep row = false → (∃ fields, row = .object fields) ∧ ¬ HasTimes row) :
    speedRows known a hours (rows.filter keep) = speedRows known a hours rows := by
  refine Fault.bind_mapM_filter (fun row hrow hleft => ?_)
    fun seconds => do .ok (valueRow (← a.apply seconds))
  obtain ⟨⟨fields, rfl⟩, htimes⟩ := h row hrow hleft
  exact pairSeconds_of_not_hasTimes htimes

/-- Without an error there is no figure exactly if no row has two times that can be read. -/
theorem speedRows_cases {a : Aggregate} {rows : List Value} {made : Rows}
    (h : speedRows known a hours rows = .ok made) :
    ∃ v, made = valueRow v ∧ (v = .null ∨ ∃ x, v = .double x) ∧
      (v = .null ↔ ∀ row ∈ rows, ¬ HasTimes row) := by
  obtain ⟨seconds, hseconds, h⟩ := Fault.bind_eq_ok_iff.mp h
  obtain ⟨v, hv, h⟩ := Fault.bind_eq_ok_iff.mp h
  cases h
  have hnone : seconds.filterMap id = [] ↔ ∀ row ∈ rows, ¬ HasTimes row := by
    rw [List.filterMap_eq_nil_iff]
    constructor
    · intro hall row hrow
      obtain ⟨x, hx⟩ := Fault.exists_mapM_eq_ok_iff.mp ⟨_, hseconds⟩ row hrow
      rcases pairSeconds_cases hx with ⟨-, htimes⟩ | ⟨⟨_, rfl, -⟩, -⟩
      · exact htimes
      · cases hall _ ((Fault.mem_of_mapM hseconds).mpr ⟨row, hrow, hx⟩)
    · intro hall x hx
      obtain ⟨row, hrow, hx⟩ := (Fault.mem_of_mapM hseconds).mp hx
      rcases pairSeconds_cases hx with ⟨rfl, -⟩ | ⟨-, htimes⟩
      · rfl
      · exact absurd htimes (hall row hrow)
  refine ⟨v, rfl, ?_, ?_⟩
  · rcases apply_cases hv with ⟨-, rfl⟩ | ⟨-, hx⟩
    · exact .inl rfl
    · exact .inr hx
  · rw [← hnone]
    rcases apply_cases hv with ⟨hnil, rfl⟩ | ⟨hne, x, rfl⟩
    · exact ⟨fun _ => hnil, fun _ => rfl⟩
    · exact ⟨nofun, fun hnil => absurd hnil hne⟩

variable {f : Filters} {settings : Fields} {plan : FormulaPlan}

theorem isSpeed_combine (h : speedToLeadPlan f settings = .ok plan) (known : Zones)
    (results : Results) :
    IsSpeed known fun rows => plan.combine known (Function.update results "pairs" (.list rows)) := by
  obtain ⟨pairs, -, h⟩ := Fault.bind_eq_ok_iff.mp h
  cases h
  have haccount : ∀ rows, Function.update results "pairs" rows "account" = results "account" :=
    fun _ => Function.update_of_ne (by decide) _ _
  have hpairs : ∀ rows, Function.update results "pairs" rows "pairs" = rows :=
    fun _ => Function.update_self _ _ _
  dsimp only
  simp only [haccount, hpairs]
  split
  all_goals
    refine isSpeed_bind fun account => isSpeed_bind fun zone => isSpeed_bind fun raw =>
      isSpeed_bind fun windows => ?_
    exact .inr ⟨_, _, fun _ => rfl⟩

/-- Speed to lead ignores the order of the pairs. Whatever the account's row and the settings are,
pairs in another order give the same average or median, none, or an error in both cases. Rows
without two times that can be read may be left out, and if there is no error the figure is missing
exactly if there are no other rows. -/
theorem speedToLead_ignores_order (h : speedToLeadPlan f settings = .ok plan) (known : Zones)
    (results : Results) (rows : List Value) :
    let answer rows := plan.combine known (Function.update results "pairs" (.list rows))
    (∀ others, rows.Perm others → (answer others).toOption = (answer rows).toOption) ∧
    (∀ keep : Value → Bool,
      (∀ row ∈ rows, keep row = false → (∃ fields, row = .object fields) ∧ ¬ HasTimes row) →
      answer (rows.filter keep) = answer rows) ∧
    ∀ made, answer rows = .ok made → ∃ v, made = valueRow v ∧ (v = .null ∨ ∃ x, v = .double x) ∧
      (v = .null ↔ ∀ row ∈ rows, ¬ HasTimes row) := by
  intro answer
  rcases isSpeed_combine h known results with ⟨e, herror⟩ | ⟨a, hours, hanswer⟩
  · have herror : ∀ rows, answer rows = .error e := herror
    simp only [herror]
    exact ⟨fun _ _ => trivial, fun _ _ => trivial, nofun⟩
  · have hanswer : ∀ rows, answer rows = speedRows known a hours rows := hanswer
    simp only [hanswer]
    exact ⟨fun _ => speedRows_perm, fun _ => speedRows_filter, fun _ => speedRows_cases⟩

def pair (lead dial : String) : Value :=
  .object [("lead_created_at", .text lead), ("first_dial_at", .text dial)]

theorem speedToLead_ignores_order_pairs :
    let slow := pair "2024-01-02T10:00:00Z" "2024-01-02T10:05:00Z"
    let quick := pair "2024-01-03T10:00:00Z" "2024-01-03T10:00:07Z"
    let unread := pair "yesterday" "2024-01-03T10:00:07Z"
    let f := Filters.between "north" "2024-01-01" "2024-01-31" [] []
    ∃ plan, speedToLeadPlan f [] = .ok plan ∧ ∀ known results,
      let answer rows := plan.combine known (Function.update results "pairs" (.list rows))
      (answer [quick, unread, slow]).toOption = (answer [slow, unread, quick]).toOption := by
  intro slow quick unread f
  obtain ⟨plan, hplan⟩ : ∃ plan, speedToLeadPlan f [] = .ok plan := ⟨_, rfl⟩
  refine ⟨plan, hplan, fun known results => ?_⟩
  exact (speedToLead_ignores_order hplan known results [slow, unread, quick]).1 _
    (List.reverse_perm [quick, unread, slow])

end Funnel.Plan
