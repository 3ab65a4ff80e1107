import Funnel.Proofs.Fault
import Funnel.Proofs.Named
import Funnel.Proofs.Value.Shown
import Funnel.Result

/-!
# Sound results

However the rows of the store look, a result that is made of them has the breakdown it was made for,
keys in every row, and finite numbers. Only a chart can have gaps, and only where they were asked
for. With names filled in, every person is shown under some name.
-/

set_option autoImplicit false

namespace Funnel

open Calendar Number

theorem isFinite_zero : isFinite 0.0 = true := by decide

theorem isFinite_one : isFinite 1.0 = true := by decide

theorem Value.isFinite_of_number? {v : Value} {x : Float} (h : v.number? = .ok (some x)) :
    isFinite x = true := by
  have hfinite : ∀ y, finite? y = some x → isFinite x = true := fun _ => isFinite_of_finite?
  cases v with
  | bool b =>
    simp only [number?, Except.ok.injEq, Option.some.injEq] at h
    rw [← h]
    split
    · exact isFinite_one
    · exact isFinite_zero
  | int n =>
    simp only [number?] at h
    split at h
    · rename_i y hy
      simp only [Except.ok.injEq, Option.some.injEq] at h
      subst h
      exact isFinite_of_finite? hy
    · cases h
  | double y => exact hfinite y (Except.ok.inj h)
  | decimal d =>
    simp only [number?] at h
    split at h
    · exact hfinite _ (Except.ok.inj h)
    · cases h
  | text s =>
    obtain ⟨y, -, hy⟩ := Option.bind_eq_some_iff.mp (Except.ok.inj h)
    exact hfinite y hy
  | null => cases h
  | date d => cases h
  | moment m => cases h
  | list items => cases h
  | object fields => cases h

theorem Value.isFinite_orZero {x : Option Float} (h : ∀ y ∈ x, isFinite y = true) :
    isFinite (orZero x) = true := by
  unfold orZero
  split
  · rename_i y
    split
    · exact isFinite_zero
    · exact h y rfl
  · exact isFinite_zero

namespace Result

/-- What a result shows: finite numbers, and keys in every row. A chart has gaps only if it may. -/
def Sound (gap : Bool) : Result → Prop
  | .total value => isFinite value = true
  | .rep rows => ∀ r ∈ rows, r.repId ≠ "" ∧ isFinite r.value = true
  | .setter rows => ∀ r ∈ rows, r.setterId ≠ "" ∧ isFinite r.value = true
  | .link rows => ∀ r ∈ rows, (r.setterId ≠ "" ∧ r.repId ≠ "") ∧ isFinite r.value = true
  | .time rows => ∀ r ∈ rows, (r.value = none → gap = true) ∧ ∀ v ∈ r.value, isFinite v = true

def Shown (name : Option String) : Prop := ∃ s, name = some s ∧ s ≠ ""

def Displayed : Result → Prop
  | .total _ | .time _ => True
  | .rep rows => ∀ r ∈ rows, Shown r.repName
  | .setter rows => ∀ r ∈ rows, Shown r.setterName
  | .link rows => ∀ r ∈ rows, Shown r.setterName ∧ Shown r.repName

theorem sound_empty (gap : Bool) (b : Breakdown) : (empty b).Sound gap := by
  cases b with
  | total => exact isFinite_zero
  | rep => exact nofun
  | setter => exact nofun
  | link => exact nofun
  | time => exact nofun

/-- A chart without gaps may as well have been allowed some. -/
theorem Sound.of_false {r : Result} (h : r.Sound false) (gap : Bool) : r.Sound gap := by
  cases r with
  | time rows =>
    intro row hrow
    exact ⟨fun hnone => absurd ((h row hrow).1 hnone) Bool.false_ne_true, (h row hrow).2⟩
  | total value => exact h
  | rep rows => exact h
  | setter rows => exact h
  | link rows => exact h

theorem ne_empty_of_keyOf {row : Value} {name key : String}
    (h : keyOf row name = .ok (some key)) : key ≠ "" := by
  obtain ⟨v, -, hv⟩ := Fault.bind_eq_ok_iff.mp h
  split at hv
  · cases hv
  · cases hv
  · rename_i hne
    cases hv
    exact Value.toText_ne_empty hne

theorem isFinite_of_numberOf {row : Value} {x : Float} (h : numberOf row = .ok x) :
    isFinite x = true := by
  obtain ⟨v, -, hv⟩ := Fault.bind_eq_ok_iff.mp h
  obtain ⟨y, hy, hx⟩ := Fault.bind_eq_ok_iff.mp hv
  cases hx
  refine Value.isFinite_orZero fun z hz => ?_
  cases hz
  exact Value.isFinite_of_number? hy

variable {row : Value}

/-- The row of a person comes from a key and a number. -/
theorem personRow?_eq_some {Row : Type} {make : String → Option String → Float → Row}
    {idField nameField : String} {r : Row}
    (h : personRow? make idField nameField row = .ok (some r)) :
    ∃ id name value, keyOf row idField = .ok (some id) ∧ numberOf row = .ok value ∧
      r = make id name value := by
  obtain ⟨key, hkey, h⟩ := Fault.bind_eq_ok_iff.mp h
  cases key with
  | none => cases h
  | some id =>
    obtain ⟨name, -, h⟩ := Fault.bind_eq_ok_iff.mp h
    obtain ⟨value, hvalue, h⟩ := Fault.bind_eq_ok_iff.mp h
    obtain ⟨-, -, h⟩ := Fault.bind_eq_ok_iff.mp h
    cases h
    exact ⟨id, name.asText?, value, hkey, hvalue, rfl⟩

theorem linkRow?_eq_some {r : LinkRow} (h : linkRow? row = .ok (some r)) :
    keyOf row "setter_id" = .ok (some r.setterId) ∧ keyOf row "rep_id" = .ok (some r.repId) ∧
      numberOf row = .ok r.value := by
  obtain ⟨setter, hsetter, h⟩ := Fault.bind_eq_ok_iff.mp h
  obtain ⟨rep, hrep, h⟩ := Fault.bind_eq_ok_iff.mp h
  split at h
  · obtain ⟨setterName, -, h⟩ := Fault.bind_eq_ok_iff.mp h
    obtain ⟨repName, -, h⟩ := Fault.bind_eq_ok_iff.mp h
    obtain ⟨value, hvalue, h⟩ := Fault.bind_eq_ok_iff.mp h
    obtain ⟨-, -, h⟩ := Fault.bind_eq_ok_iff.mp h
    cases h
    exact ⟨hsetter, hrep, hvalue⟩
  · cases h

theorem isFinite_of_labelled? {row : Value} {p : String × Option Float}
    (h : labelled? row = .ok (some p)) : ∀ x ∈ p.2, isFinite x = true := by
  obtain ⟨label, -, h⟩ := Fault.bind_eq_ok_iff.mp h
  split at h
  · obtain ⟨v, -, h⟩ := Fault.bind_eq_ok_iff.mp h
    obtain ⟨value, hvalue, h⟩ := Fault.bind_eq_ok_iff.mp h
    cases h
    rintro x rfl
    exact Value.isFinite_of_number? hvalue
  · cases h

theorem sound_orMissing {v : Option Float} (h : ∀ x ∈ v, isFinite x = true) (gap : Bool) :
    (v.or (missing gap) = none → gap = true) ∧ ∀ x ∈ v.or (missing gap), isFinite x = true := by
  cases v with
  | some x => exact ⟨nofun, h⟩
  | none =>
    cases gap with
    | true => exact ⟨fun _ => rfl, nofun⟩
    | false =>
      refine ⟨nofun, ?_⟩
      rintro x ⟨rfl⟩
      exact isFinite_zero

theorem sound_chart {labels : Named (Option Float)}
    (h : ∀ p ∈ labels, ∀ x ∈ p.2, isFinite x = true) (series : Option (List Date)) (gap : Bool) :
    (Result.time (chart labels series gap)).Sound gap := by
  intro r hr
  cases series with
  | none =>
    obtain ⟨p, hp, rfl⟩ := List.mem_map.mp hr
    exact sound_orMissing (h p (List.mem_mergeSort.mp hp)) gap
  | some days =>
    obtain ⟨d, -, rfl⟩ := List.mem_map.mp hr
    refine sound_orMissing ?_ gap
    cases hfind : labels.find? d.iso with
    | none => exact nofun
    | some v => exact h _ (Named.mem_of_find? hfind)

theorem sound_shape {b : Breakdown} {rows : Value} {series : Option (List Date)} {gap : Bool}
    {r : Result} (h : shape b rows series gap = .ok r) : r.breakdown = b ∧ r.Sound gap := by
  cases b with
  | total =>
    obtain ⟨value, hvalue, h⟩ := Fault.bind_eq_ok_iff.mp h
    cases h
    refine ⟨rfl, ?_⟩
    unfold totalOf at hvalue
    split at hvalue
    · obtain ⟨row, -, hvalue⟩ := Fault.bind_eq_ok_iff.mp hvalue
      exact isFinite_of_numberOf hvalue
    · cases hvalue
      exact isFinite_zero
  | rep =>
    obtain ⟨all, -, h⟩ := Fault.bind_eq_ok_iff.mp h
    obtain ⟨kept, hkept, h⟩ := Fault.bind_eq_ok_iff.mp h
    cases h
    refine ⟨rfl, Fault.forall_of_mapM (fun row r hr => ?_) hkept⟩
    obtain ⟨id, name, value, hid, hvalue, rfl⟩ := personRow?_eq_some hr
    exact ⟨ne_empty_of_keyOf hid, isFinite_of_numberOf hvalue⟩
  | setter =>
    obtain ⟨all, -, h⟩ := Fault.bind_eq_ok_iff.mp h
    obtain ⟨kept, hkept, h⟩ := Fault.bind_eq_ok_iff.mp h
    cases h
    refine ⟨rfl, Fault.forall_of_mapM (fun row r hr => ?_) hkept⟩
    obtain ⟨id, name, value, hid, hvalue, rfl⟩ := personRow?_eq_some hr
    exact ⟨ne_empty_of_keyOf hid, isFinite_of_numberOf hvalue⟩
  | link =>
    obtain ⟨all, -, h⟩ := Fault.bind_eq_ok_iff.mp h
    obtain ⟨kept, hkept, h⟩ := Fault.bind_eq_ok_iff.mp h
    cases h
    refine ⟨rfl, Fault.forall_of_mapM (fun row r hr => ?_) hkept⟩
    obtain ⟨hsetter, hrep, hvalue⟩ := linkRow?_eq_some hr
    exact ⟨⟨ne_empty_of_keyOf hsetter, ne_empty_of_keyOf hrep⟩, isFinite_of_numberOf hvalue⟩
  | time =>
    obtain ⟨all, -, h⟩ := Fault.bind_eq_ok_iff.mp h
    obtain ⟨kept, hkept, h⟩ := Fault.bind_eq_ok_iff.mp h
    cases h
    have hkept : ∀ p ∈ kept.filterMap id, ∀ x ∈ p.2, isFinite x = true :=
      Fault.forall_of_mapM (fun _ _ => isFinite_of_labelled?) hkept
    have hlabels : ∀ p ∈ byLabel (kept.filterMap id), ∀ x ∈ p.2, isFinite x = true :=
      @Named.forall_values_putAll _ (fun v => ∀ x ∈ v, isFinite x = true) _ _
        (List.forall_mem_nil _) hkept
    exact ⟨rfl, sound_chart hlabels series gap⟩

theorem displayName_ne_empty (names : Named String) {id : String} (h : id ≠ "") :
    displayName names id ≠ "" := by
  unfold displayName
  split
  · split
    · exact h
    · assumption
  · exact h

theorem shown_nameOr (names : Named String) {id : String} (h : id ≠ "") (name : Option String) :
    Shown (nameOr names id name) := by
  unfold nameOr
  split
  · exact ⟨_, rfl, displayName_ne_empty names h⟩
  · exact ⟨_, rfl, displayName_ne_empty names h⟩
  · rename_i s hs
    refine ⟨s, rfl, ?_⟩
    rintro rfl
    exact hs rfl

theorem breakdown_withNames (names : Named String) (r : Result) :
    (r.withNames names).breakdown = r.breakdown := by cases r <;> rfl

theorem Sound.withNames {gap : Bool} {r : Result} (h : r.Sound gap) (names : Named String) :
    (r.withNames names).Sound gap := by
  cases r with
  | total value => exact h
  | time rows => exact h
  | rep rows =>
    intro row hrow
    obtain ⟨old, hold, rfl⟩ := List.mem_map.mp hrow
    exact h old hold
  | setter rows =>
    intro row hrow
    obtain ⟨old, hold, rfl⟩ := List.mem_map.mp hrow
    exact h old hold
  | link rows =>
    intro row hrow
    obtain ⟨old, hold, rfl⟩ := List.mem_map.mp hrow
    exact h old hold

/-- Whatever names were found, everyone is shown under a name. -/
theorem Sound.displayed {gap : Bool} {r : Result} (h : r.Sound gap) (names : Named String) :
    (r.withNames names).Displayed := by
  cases r with
  | total value => trivial
  | time rows => trivial
  | rep rows =>
    intro row hrow
    obtain ⟨old, hold, rfl⟩ := List.mem_map.mp hrow
    exact shown_nameOr names (h old hold).1 _
  | setter rows =>
    intro row hrow
    obtain ⟨old, hold, rfl⟩ := List.mem_map.mp hrow
    exact shown_nameOr names (h old hold).1 _
  | link rows =>
    intro row hrow
    obtain ⟨old, hold, rfl⟩ := List.mem_map.mp hrow
    exact ⟨shown_nameOr names (h old hold).1.1 _, shown_nameOr names (h old hold).1.2 _⟩

theorem eq_nil_of_sorted_eq_nil {ids : List String}
    (h : (ids.eraseDups.mergeSort fun a b => decide (a ≤ b)) = []) : ids = [] := by
  rw [List.eq_nil_iff_forall_not_mem]
  intro id hid
  have hmem : id ∈ ids.eraseDups.mergeSort fun a b => decide (a ≤ b) := by
    rw [List.mem_mergeSort, List.mem_eraseDups]
    exact hid
  rw [h] at hmem
  cases hmem

theorem displayed_of_userIds_eq_nil {r : Result} (h : r.userIds = []) : r.Displayed := by
  have hids := eq_nil_of_sorted_eq_nil h
  cases r with
  | total value => trivial
  | time rows => trivial
  | rep rows =>
    rw [List.map_eq_nil_iff.mp hids]
    exact List.forall_mem_nil _
  | setter rows =>
    rw [List.map_eq_nil_iff.mp hids]
    exact List.forall_mem_nil _
  | link rows =>
    rw [List.map_eq_nil_iff.mp (List.append_eq_nil_iff.mp hids).1]
    exact List.forall_mem_nil _

end Result

end Funnel
