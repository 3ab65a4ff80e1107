import Funnel.Value

/-!
# Texts of values

Only the empty text is shown as nothing at all: whatever else the store holds has a text with at
least one character.
-/

set_option autoImplicit false

namespace Funnel

open Calendar Number

theorem append_ne_empty_of_left {a : String} (h : a ≠ "") (b : String) : a ++ b ≠ "" := by
  intro hab
  exact h (String.append_eq_empty_iff.mp hab).1

theorem append_ne_empty_of_right (a : String) {b : String} (h : b ≠ "") : a ++ b ≠ "" := by
  intro hab
  exact h (String.append_eq_empty_iff.mp hab).2

theorem ofList_ne_empty {cs : List Char} (h : cs ≠ []) : String.ofList cs ≠ "" := by
  intro hcs
  rw [String.ofList_eq_empty_iff] at hcs
  exact h hcs

theorem toString_nat_ne_empty (n : Nat) : toString n ≠ "" := by
  rw [Nat.toString_eq_repr]
  intro h
  have hdigits := congrArg String.toList h
  rw [Nat.toList_repr, String.toList_empty] at hdigits
  exact Nat.toDigits_ne_nil hdigits

theorem toString_int_ne_empty (n : Int) : toString n ≠ "" := by
  cases n with
  | ofNat n => exact toString_nat_ne_empty n
  | negSucc n => exact append_ne_empty_of_right _ (toString_nat_ne_empty (n + 1))

theorem write_ne_empty (f : GeneralFormat) (d : Digits) : f.write d ≠ "" := by
  unfold GeneralFormat.write
  simp only
  split
  · split
    · exact ofList_ne_empty (List.cons_ne_nil _ _)
    · split
      · apply ofList_ne_empty
        simp [Nat.toDigits_ne_nil]
      · exact ofList_ne_empty (by simp)
  · exact ofList_ne_empty (by simp)

theorem showDouble_ne_empty (x : Float) : showDouble x ≠ "" := by
  unfold showDouble
  split
  · decide
  · split <;> decide
  · simp only
    split
    · exact append_ne_empty_of_left (by decide) _
    · split
      · decide
      · exact write_ne_empty _ _

theorem Number.Decimal.toText_ne_empty (d : Decimal) : d.toText ≠ "" := by
  cases d with
  | infinite negative => exact append_ne_empty_of_right _ (by decide)
  | notANumber negative signaling payload =>
    refine append_ne_empty_of_left (append_ne_empty_of_right _ ?_) _
    split <;> decide
  | finite negative coefficient exponent =>
    refine append_ne_empty_of_right _ (ofList_ne_empty ?_)
    apply List.append_ne_nil_of_left_ne_nil
    generalize (if exponent ≤ 0 ∧ -6 < exponent + ((Nat.toDigits 10 coefficient).length : Int) then
      exponent + ((Nat.toDigits 10 coefficient).length : Int) else 1) = point
    split
    · simp
    · split
      · simp [Nat.toDigits_ne_nil]
      · simp

theorem Calendar.Date.iso_ne_empty (d : Date) : d.iso ≠ "" := by
  unfold iso
  have hdash : padded 4 d.year ++ "-" ≠ "" := append_ne_empty_of_right _ (by decide)
  exact append_ne_empty_of_left (append_ne_empty_of_left (append_ne_empty_of_left hdash _) _) _

theorem Value.toText_ne_empty {v : Value} (h : v ≠ .text "") : v.toText ≠ "" := by
  cases v with
  | null => decide
  | bool b => cases b <;> decide
  | int n => exact toString_int_ne_empty n
  | double x => exact showDouble_ne_empty x
  | decimal d => exact d.toText_ne_empty
  | text s =>
    rintro hs
    exact h (congrArg Value.text hs)
  | date d => exact d.iso_ne_empty
  | moment m =>
    have hdate := append_ne_empty_of_left m.date.iso_ne_empty " "
    exact append_ne_empty_of_left (append_ne_empty_of_left hdate _) _
  | list items => exact append_ne_empty_of_right _ (by decide)
  | object fields => exact append_ne_empty_of_right _ (by decide)

end Funnel
