import Funnel.Proofs.Series.Partition
import Mathlib.Algebra.BigOperators.Group.List.Basic
import Mathlib.Algebra.GroupWithZero.Nat

/-!
# Counting day by day

The windows of a range list its days once and in order, so what is counted over the days of each
window adds up to what is counted over the range.
-/

set_option autoImplicit false

namespace Funnel

open Calendar

namespace Calendar.Date

def through (first last : Date) : List Date :=
  (List.range' first.dayNumber (last.dayNumber + 1 - first.dayNumber)).filterMap fun n =>
    ofDayNumber? (n : Nat)

theorem through_append {a b c d : Date} (hab : a ≤ b) (h : b.dayNumber + 1 = c.dayNumber)
    (hcd : c ≤ d) : a.through b ++ c.through d = a.through d := by
  rw [le_iff] at hab hcd
  have hlength : d.dayNumber + 1 - a.dayNumber =
      (b.dayNumber + 1 - a.dayNumber) + (d.dayNumber + 1 - c.dayNumber) := by omega
  have hstart : c.dayNumber = a.dayNumber + (b.dayNumber + 1 - a.dayNumber) := by omega
  rw [through, through, through, ← List.filterMap_append, hlength, ← List.range'_append_1, ← hstart]

end Calendar.Date

theorem flatMap_through {ws : List BucketWindow} {first last : Date}
    (hfirst : ws.head?.map (·.start) = some first)
    (hlast : ws.getLast?.map (·.finish) = some last)
    (hadjacent : ws.IsChain fun v w => v.finish.dayNumber + 1 = w.start.dayNumber)
    (hne : ∀ w ∈ ws, w.start ≤ w.finish) :
    first ≤ last ∧ ws.flatMap (fun w => w.start.through w.finish) = first.through last := by
  induction ws generalizing first with
  | nil => cases hfirst
  | cons w ws ih =>
    obtain rfl : w.start = first := Option.some.inj hfirst
    obtain ⟨hw, hrest⟩ := List.forall_mem_cons.mp hne
    cases ws with
    | nil =>
      obtain rfl : w.finish = last := Option.some.inj hlast
      exact ⟨hw, by rw [List.flatMap_cons, List.flatMap_nil, List.append_nil]⟩
    | cons v ws =>
      obtain ⟨hnext, hchain⟩ := List.isChain_cons_cons.mp hadjacent
      rw [List.getLast?_cons_cons] at hlast
      obtain ⟨hle, hdays⟩ := ih rfl hlast hchain hrest
      refine ⟨?_, ?_⟩
      · have hstart : w.start.dayNumber ≤ w.finish.dayNumber := hw
        have hfinish : v.start.dayNumber ≤ last.dayNumber := hle
        rw [Date.le_iff]
        omega
      · rw [List.flatMap_cons, hdays, Date.through_append hw hnext hle]

/-- What is counted on the days from one to another. -/
def tally (count : Date → Nat) (first last : Date) : Nat := ((first.through last).map count).sum

theorem IsPartition.tally {start finish : Date} {g : Granularity} {ws : List BucketWindow}
    (h : IsPartition start finish g ws) (count : Date → Nat) :
    (ws.map fun w => tally count w.start w.finish).sum = tally count start finish := by
  obtain ⟨-, hdays⟩ := flatMap_through h.first h.last h.adjacent h.nonempty
  rw [Funnel.tally, ← hdays, List.map_flatMap, List.flatMap_def, List.sum_flatten, List.map_map]
  rfl

/-- Several counts are counted one by one or day by day. -/
theorem sum_tally {α : Type} (xs : List α) (count : α → Date → Nat) (first last : Date) :
    (xs.map fun x => tally (count x) first last).sum =
      tally (fun d => (xs.map fun x => count x d).sum) first last := by
  induction xs with
  | nil => exact List.sum_map_zero.symm
  | cons x xs ih =>
    simp only [List.map_cons, List.sum_cons, ih]
    exact List.sum_map_add.symm

end Funnel
