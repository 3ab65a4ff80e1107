import Funnel.Filter.Standard

/-!
# Checked filters

Filters against which nothing is to be said have an account and two days in order.
-/

set_option autoImplicit false

namespace Funnel.Filters

open Calendar

theorem eq_nil_of_ite_eq_nil {c : Bool} {reason : String}
    (h : (if c then [] else [reason]) = []) : c = true := by
  cases c
  · cases h
  · rfl

theorem exists_of_given {s : Option String} (h : given s = true) : ∃ t, s = some t ∧ t ≠ "" := by
  cases s with
  | none => simp [given] at h
  | some t => exact ⟨t, rfl, by simpa [given] using h⟩

theorem exists_dates_of_rangeReasons {s e : String} (h : rangeReasons s e = []) :
    ∃ start finish, dateOfText? s = some start ∧ dateOfText? e = some finish ∧
      start ≤ finish := by
  unfold rangeReasons at h
  split at h
  · rename_i start finish hs he
    refine ⟨start, finish, hs, he, ?_⟩
    split at h
    · cases h
    · rename_i hnot
      exact Nat.le_of_not_lt hnot
  · cases h

theorem days_of_texts {f : Filters} {first last : String} {start finish : Date}
    (hrange : f.dateRange = some ⟨some first, some last⟩)
    (hstart : dateOfText? first = some start) (hfinish : dateOfText? last = some finish) :
    f.days = .ok (start, finish) := by
  rw [days, bounds, hrange]
  simp only [Option.bind_some, hstart, hfinish]
  rfl

/-- What is known of filters that nothing is wrong with. -/
structure Checked (f : Filters) (start finish : Date) : Prop where
  days : f.days = .ok (start, finish)
  ordered : start ≤ finish
  account : ∃ id, f.accountId = some id ∧ id ≠ ""

theorem checked_of_reasons {f : Filters} (h : f.reasons = []) :
    ∃ start finish, f.Checked start finish := by
  unfold reasons at h
  simp only [List.append_eq_nil_iff] at h
  obtain ⟨⟨⟨hs, he⟩, ha⟩, hrange⟩ := h
  obtain ⟨s, hs, hs'⟩ := exists_of_given (eq_nil_of_ite_eq_nil hs)
  obtain ⟨e, he, he'⟩ := exists_of_given (eq_nil_of_ite_eq_nil he)
  have haccount := exists_of_given (eq_nil_of_ite_eq_nil ha)
  rw [hs, he] at hrange
  simp only [hs', he', or_self, if_false] at hrange
  obtain ⟨start, finish, hstart, hfinish, hle⟩ := exists_dates_of_rangeReasons hrange
  refine ⟨start, finish, ?_, hle, haccount⟩
  cases hr : f.dateRange with
  | none =>
    rw [range, hr] at hs
    cases hs
  | some r =>
    obtain ⟨first, last⟩ := r
    rw [range, hr] at hs he
    obtain rfl : first = some s := hs
    obtain rfl : last = some e := he
    exact days_of_texts hr hstart hfinish

def between (account start finish : String) (reps setters : List String) : Filters :=
  ⟨some ⟨some start, some finish⟩, some account, reps, setters⟩

end Funnel.Filters
