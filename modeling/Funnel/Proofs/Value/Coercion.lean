import Funnel.Proofs.Number.Numeral
import Funnel.Proofs.Result

/-!
# Which values can be read as numbers

Every value is read as a finite number, a flag or nothing, but for two kinds: a whole number beyond
the largest double, and the decimal that signals that it is not a number. A whole number is read
like its text, up to the largest double.
-/

set_option autoImplicit false

namespace Funnel.Value

open Number Text

/-- The values that have no reading as a number, not even that they are none. -/
def Unreadable : Value → Prop
  | .int n => overflow ≤ n.natAbs
  | .decimal (.notANumber _ signaling _) => signaling = true
  | _ => False

theorem isFinite_ofInt_iff (n : Int) : isFinite (ofInt n) = true ↔ n.natAbs < overflow :=
  isFinite_nearest_one_iff (decide (n < 0)) n.natAbs

theorem finite?_ofInt (n : Int) :
    finite? (ofInt n) = if n.natAbs < overflow then some (ofInt n) else none :=
  if_congr (isFinite_ofInt_iff n) rfl rfl

/-- A whole number is read as the nearest double, or is out of range. -/
theorem number?_int (n : Int) :
    (Value.int n).number? =
      if n.natAbs < overflow then .ok (some (ofInt n)) else .error .outOfRange := by
  rw [number?, finite?_ofInt]
  split <;> rename_i h <;> split at h <;> simp_all

theorem trim_toString (n : Int) : trim (toString n) = toString n := by
  rw [trim, toList_toString, trimChars_wholeChars, ← toList_toString, String.ofList_toList]

/-- The text of a whole number is read as the nearest double too, but it is never out of range. -/
theorem number?_text_toString (n : Int) :
    (Value.text (toString n)).number? =
      .ok (if n.natAbs < overflow then some (ofInt n) else none) := by
  rw [number?, trim_toString, readDouble?_toString, Option.bind_some, finite?_ofInt]

theorem number?_int_eq_text_iff (n : Int) :
    (Value.int n).number? = (Value.text (toString n)).number? ↔ n.natAbs < overflow := by
  rw [number?_int, number?_text_toString]
  split <;> simp_all

theorem number?_ok_iff (v : Value) : (∃ x, v.number? = .ok x) ↔ ¬ v.Unreadable := by
  cases v with
  | int n =>
    rw [number?_int, Unreadable, Nat.not_le]
    split <;> simp_all
  | decimal d =>
    cases d with
    | notANumber negative signaling payload =>
      cases signaling <;> simp [number?, Unreadable, Decimal.toDouble?]
    | finite negative coefficient exponent => exact ⟨fun _ h => h, fun _ => ⟨_, rfl⟩⟩
    | infinite negative => exact ⟨fun _ h => h, fun _ => ⟨_, rfl⟩⟩
  | _ => exact ⟨fun _ h => h, fun _ => ⟨_, rfl⟩⟩

/-- A flag that is read as a number is read whenever the number is. -/
theorem exists_isNonzero_iff (e : Except Fault (Option Float)) :
    (∃ b, (do
      match ← e with
      | some x => .ok (!(x == 0))
      | none => .ok false : Except Fault Bool) = .ok b) ↔ ∃ x, e = .ok x := by
  cases e with
  | error fault => constructor <;> rintro ⟨_, h⟩ <;> cases h
  | ok x => cases x <;> exact ⟨fun _ => ⟨_, rfl⟩, fun _ => ⟨_, rfl⟩⟩

theorem flag_ok_iff (v : Value) : (∃ b, v.flag = .ok b) ↔ ¬ v.Unreadable := by
  have hnumber : (∃ b, (do
      match ← v.number? with
      | some x => .ok (!(x == 0))
      | none => .ok false : Except Fault Bool) = .ok b) ↔ ¬ v.Unreadable :=
    (exists_isNonzero_iff v.number?).trans v.number?_ok_iff
  cases v with
  | int _ | double _ | decimal _ | date _ | moment _ | list _ | object _ => exact hnumber
  | _ => exact ⟨fun _ h => h, fun _ => ⟨_, rfl⟩⟩

/-- Reading a value as a number or a flag fails for the unreadable values only; a number that is
read is finite. A whole number is read like its text exactly if it is not beyond the largest
double. -/
theorem coercion_fails_iff (v : Value) (n : Int) :
    ((∃ x, v.number? = .ok x ∧ ∀ y ∈ x, isFinite y = true) ↔ ¬ v.Unreadable) ∧
      ((∃ b, v.flag = .ok b) ↔ ¬ v.Unreadable) ∧
      ((Value.int n).number? = (Value.text (toString n)).number? ↔ n.natAbs < overflow) := by
  refine ⟨?_, flag_ok_iff v, number?_int_eq_text_iff n⟩
  rw [← number?_ok_iff]
  constructor
  · rintro ⟨x, hx, -⟩
    exact ⟨x, hx⟩
  · rintro ⟨x, hx⟩
    refine ⟨x, hx, ?_⟩
    rintro y rfl
    exact isFinite_of_number? hx

/-- A number with four hundred zeros is out of range as a number and as a flag, but nothing as a
text; a signaling decimal is neither a number nor none. -/
theorem not_coerced_of_unreadable :
    (Value.int (pow10 400)).number? = .error .outOfRange ∧
      (Value.text (toString (pow10 400 : Int))).number? = .ok none ∧
      (Value.int (pow10 400)).flag = .error .outOfRange ∧
      (Value.decimal (.notANumber false true "")).number? = .error .badValue ∧
      (Value.decimal (.notANumber false true "")).flag = .error .badValue := by
  have hhuge : ¬ (pow10 400 : Int).natAbs < overflow := by decide +kernel
  have hnumber : (Value.int (pow10 400)).number? = .error .outOfRange := by
    rw [number?_int, if_neg hhuge]
  have htext : (Value.text (toString (pow10 400 : Int))).number? = .ok none := by
    rw [number?_text_toString, if_neg hhuge]
  have hflag : (Value.int (pow10 400)).flag = .error .outOfRange := by
    simp only [flag, hnumber]
    rfl
  exact ⟨hnumber, htext, hflag, rfl, rfl⟩

end Funnel.Value
