import Funnel.Filter.Check
import Funnel.Proofs.Calendar.Months
import Funnel.Proofs.Value.Shown

/-!
# Dates as text and back

The text of a date has ten ASCII characters and reads back as the date, also as the end of a range
of days. Dates with the same text are therefore the same.
-/

set_option autoImplicit false

namespace Funnel.Calendar

open Number Text

theorem foldl_replicate_zero (n : Nat) :
    (List.replicate n '0').foldl (fun n c => 10 * n + (c.toNat - 48)) 0 = 0 := by
  induction n with
  | zero => rfl
  | succ n ih => exact ih

theorem natOfDigits_paddedDigits (width n : Nat) : natOfDigits (paddedDigits width n) = n := by
  unfold natOfDigits paddedDigits
  simp only [List.foldl_append, foldl_replicate_zero]
  exact Nat.ofDigitChars_ten_toDigits

theorem length_paddedDigits {width n : Nat} (hwidth : 0 < width) (h : n < pow10 width) :
    (paddedDigits width n).length = width := by
  have hlength := (Nat.length_toDigits_le_iff (b := 10) (by decide) hwidth).mpr h
  simp only [paddedDigits, List.length_append, List.length_replicate]
  omega

theorem isAsciiDigit_of_isDigit {c : Char} (h : c.isDigit = true) : isAsciiDigit c = true := by
  simp only [Char.isDigit, Bool.and_eq_true, decide_eq_true_eq] at h
  simp only [isAsciiDigit, Bool.and_eq_true, decide_eq_true_eq]
  exact ⟨h.1, h.2⟩

theorem isAsciiDigit_of_mem_paddedDigits {width n : Nat} {c : Char}
    (h : c ∈ paddedDigits width n) : isAsciiDigit c = true := by
  rcases List.mem_append.mp h with h | h
  · rw [List.eq_of_mem_replicate h]
    rfl
  · exact isAsciiDigit_of_isDigit (Nat.isDigit_of_mem_toDigits (by decide) (by decide) h)

theorem Iso.digits?_paddedDigits {width n : Nat} (hwidth : 0 < width) (h : n < pow10 width)
    (rest : List Char) : digits? width (paddedDigits width n ++ rest) = some (n, rest) := by
  have hlength := length_paddedDigits hwidth h
  have htake : (paddedDigits width n ++ rest).take width = paddedDigits width n :=
    List.take_left' hlength
  have hdrop : (paddedDigits width n ++ rest).drop width = rest := List.drop_left' hlength
  have hall : (paddedDigits width n).all isAsciiDigit = true :=
    List.all_eq_true.mpr fun _ => isAsciiDigit_of_mem_paddedDigits
  simp only [digits?, htake, hdrop, hlength, hall, and_self, if_true, natOfDigits_paddedDigits]

namespace Date

def isoChars (d : Date) : List Char :=
  paddedDigits 4 d.year ++ '-' :: (paddedDigits 2 d.month ++ '-' :: paddedDigits 2 d.day)

theorem iso_eq (d : Date) : d.iso = String.ofList d.isoChars := by
  have hdash : "-" = String.ofList ['-'] := rfl
  simp only [iso, padded, hdash, ← String.ofList_append, isoChars, List.append_assoc,
    List.cons_append, List.nil_append]

theorem toList_iso (d : Date) : d.iso.toList = d.isoChars := by
  rw [iso_eq, String.toList_ofList]

theorem day_lt (d : Date) : d.day < pow10 2 := by
  have hpow : pow10 2 = 100 := rfl
  have hday := d.day_spec.2.1
  have hlength : daysInMonth d.year d.month ≤ 31 := by
    unfold daysInMonth
    split
    · split <;> omega
    all_goals omega
  omega

theorem year_lt (d : Date) : d.year < pow10 4 := by
  have hpow : pow10 4 = 10000 := rfl
  have := d.month_spec.2.1
  omega

theorem month_lt (d : Date) : d.month < pow10 2 := by
  have hpow : pow10 2 = 100 := rfl
  have := d.month_spec.2.2.2.1
  omega

theorem length_isoChars (d : Date) : d.isoChars.length = 10 := by
  simp only [isoChars, List.length_append, List.length_cons,
    length_paddedDigits (by decide) d.year_lt, length_paddedDigits (by decide) d.month_lt,
    length_paddedDigits (by decide) d.day_lt]

theorem mem_isoChars {d : Date} {c : Char} (h : c ∈ d.isoChars) :
    isAsciiDigit c = true ∨ c = '-' := by
  simp only [isoChars, List.mem_append, List.mem_cons] at h
  rcases h with h | h | h | h | h
  · exact .inl (isAsciiDigit_of_mem_paddedDigits h)
  · exact .inr h
  · exact .inl (isAsciiDigit_of_mem_paddedDigits h)
  · exact .inr h
  · exact .inl (isAsciiDigit_of_mem_paddedDigits h)

end Date

theorem utf8ByteSize_ofList {cs : List Char} (h : ∀ c ∈ cs, c.toNat < 128) :
    (String.ofList cs).utf8ByteSize = cs.length := by
  induction cs with
  | nil => rfl
  | cons c cs ih =>
    have hchar : c.utf8Size = 1 := by
      rw [Char.utf8Size_eq_one_iff, UInt32.le_iff_toNat_le]
      have := h c List.mem_cons_self
      change c.toNat ≤ 127
      omega
    have hrest := ih fun x hx => h x (List.mem_cons_of_mem c hx)
    have hsplit : String.ofList (c :: cs) = String.ofList [c] ++ String.ofList cs := by
      rw [← String.ofList_append]
      rfl
    have hone : (String.ofList [c]).utf8ByteSize = 1 := by
      rw [← String.singleton_eq_ofList, String.utf8ByteSize_singleton, hchar]
    rw [hsplit, String.utf8ByteSize_append, hone, hrest, List.length_cons, Nat.add_comm]

namespace Date

theorem utf8ByteSize_iso (d : Date) : d.iso.utf8ByteSize = 10 := by
  rw [iso_eq, utf8ByteSize_ofList, length_isoChars]
  intro c hc
  rcases mem_isoChars hc with h | rfl
  · simp only [isAsciiDigit, Bool.and_eq_true, decide_eq_true_eq] at h
    omega
  · decide

/-- A chart labels its rows with at most ten characters: the text of a date is kept whole. -/
theorem take_iso (d : Date) : String.ofList (d.iso.toList.take 10) = d.iso := by
  rw [toList_iso, List.take_of_length_le (Nat.le_of_eq d.length_isoChars), iso_eq]

end Date

theorem Iso.peek_cons (c : Char) (cs : List Char) : peek (c :: cs) = c := rfl

theorem Iso.leadingDate?_isoChars (size : Nat) (d : Date) :
    leadingDate? size d.isoChars = some d := by
  have hyear := digits?_paddedDigits (by decide) d.year_lt
    ('-' :: (paddedDigits 2 d.month ++ '-' :: paddedDigits 2 d.day))
  have hmonth := digits?_paddedDigits (by decide) d.month_lt ('-' :: paddedDigits 2 d.day)
  have hday := digits?_paddedDigits (by decide) d.day_lt []
  rw [List.append_nil] at hday
  have hweek : peek (paddedDigits 2 d.month ++ '-' :: paddedDigits 2 d.day) ≠ 'W' := by
    cases hdigits : paddedDigits 2 d.month with
    | nil =>
      rw [List.nil_append, peek_cons]
      decide
    | cons c cs =>
      have hc : isAsciiDigit c = true :=
        isAsciiDigit_of_mem_paddedDigits (hdigits ▸ List.mem_cons_self)
      rintro rfl
      exact absurd hc (by decide)
  unfold leadingDate? Date.isoChars
  simp only [hyear, Option.bind_eq_bind, Option.bind_some, peek_cons, beq_self_eq_true, if_true,
    List.drop_succ_cons, List.drop_zero, if_neg hweek, hmonth, ne_eq, not_true_eq_false,
    and_false, if_false, hday]
  exact d.ofCivil?_self

theorem Iso.date?_iso (d : Date) : date? d.iso = some d := by
  rw [date?, if_pos (.inr (.inr d.utf8ByteSize_iso)), d.toList_iso]
  exact leadingDate?_isoChars _ d

theorem Date.iso_injective {d e : Date} (h : d.iso = e.iso) : d = e :=
  Option.some.inj ((Iso.date?_iso d).symm.trans (h ▸ Iso.date?_iso e))

theorem isBlank_of_isAsciiDigit {c : Char} (h : isAsciiDigit c = true) : isBlank c = false := by
  simp only [isAsciiDigit, Bool.and_eq_true, decide_eq_true_eq] at h
  exact isBlank_eq_false (by omega)

theorem isBlank_of_mem_isoChars {d : Date} {c : Char} (h : c ∈ d.isoChars) :
    isBlank c = false := by
  rcases Date.mem_isoChars h with h | rfl
  · exact isBlank_of_isAsciiDigit h
  · decide

theorem trim_iso (d : Date) : trim d.iso = d.iso := by
  rw [trim, d.toList_iso, trimChars_of_forall fun c => isBlank_of_mem_isoChars, d.iso_eq]

end Calendar

open Calendar

/-- The text of a date names the date. -/
theorem dateOfText?_iso (d : Date) : dateOfText? d.iso = some d := by
  have hgiven : Value.isGiven (.text d.iso) = true := by
    simpa [Value.isGiven] using d.iso_ne_empty
  unfold dateOfText? Value.date?
  rw [if_pos hgiven]
  simp only [Value.toText, trim_iso, Iso.date?_iso]

end Funnel
