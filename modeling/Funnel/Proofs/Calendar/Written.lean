import Funnel.Proofs.Engine.Pointwise
import Funnel.Proofs.Filter.Disguise

/-!
# Moments as text and back

The ISO text of a moment reads back as the moment, also with blanks around it and with an offset of
zero spelled `Z`; without an offset it is in UTC. The date of the text is the date as written. Only
an offset of less than a second is lost: it is read as UTC.
-/

set_option autoImplicit false

namespace Funnel.Calendar

open Number Text

namespace Iso

def secondChars (second micros : Nat) : List Char :=
  ':' :: (paddedDigits 2 second ++ if micros = 0 then [] else '.' :: paddedDigits 6 micros)

def timeChars (hour minute : Nat) (rest : List Char) : List Char :=
  paddedDigits 2 hour ++ ':' :: (paddedDigits 2 minute ++ rest)

variable {hour minute second micros : Nat} {next : Char}

theorem after_colon {c : Char} {cs : List Char} :
    after true next (':' :: c :: cs) = .field (c :: cs) := rfl

theorem after_point {c : Char} {cs : List Char} :
    after true next ('.' :: c :: cs) = .fraction (c :: cs) := rfl

theorem exists_cons_paddedDigits {width n : Nat} (hwidth : 0 < width) (h : n < pow10 width)
    (rest : List Char) : ∃ c cs, isAsciiDigit c = true ∧ paddedDigits width n ++ rest = c :: cs := by
  have hlength := length_paddedDigits hwidth h
  cases hdigits : paddedDigits width n with
  | nil =>
    rw [hdigits] at hlength
    exact absurd hlength (Nat.ne_of_lt hwidth)
  | cons c cs =>
    exact ⟨c, cs ++ rest, isAsciiDigit_of_mem_paddedDigits (hdigits ▸ List.mem_cons_self), rfl⟩

theorem fraction?_paddedDigits (h : micros < pow10 6) :
    fraction? next (paddedDigits 6 micros) = some (micros, next != '\x00') := by
  have hlength := length_paddedDigits (by decide) h
  have hdigits := digits?_paddedDigits (by decide) h []
  rw [List.append_nil] at hdigits
  have hone : pow10 (6 - 6) = 1 := rfl
  unfold fraction?
  simp only [hlength, Nat.min_self, hdigits, Option.bind_eq_bind, Option.bind_some,
    List.dropWhile_nil, if_true, hone, Nat.mul_one]
  rfl

/-- What follows the minutes of a time decides how it is read. -/
theorem timeFields?_timeChars (hhour : hour < pow10 2) (hminute : minute < pow10 2)
    (rest : List Char) :
    timeFields? next (timeChars hour minute rest) =
      match after true next rest with
      | .broken => none
      | .done leftover => some ⟨hour, minute, 0, 0, leftover⟩
      | .fraction r => (fraction? next r).map fun (us, left) => ⟨hour, minute, 0, us, left⟩
      | .field r =>
        (digits? 2 r).bind fun (second, r) =>
          match after true next r with
          | .broken => none
          | .done leftover => some ⟨hour, minute, second, 0, leftover⟩
          | .fraction r | .field r =>
            (fraction? next r).map fun (us, left) => ⟨hour, minute, second, us, left⟩ := by
  obtain ⟨c, cs, -, hcs⟩ := exists_cons_paddedDigits (by decide) hminute rest
  have hread := digits?_paddedDigits (by decide) hminute rest
  unfold timeFields? timeChars
  rw [digits?_paddedDigits (by decide) hhour]
  rw [hcs] at hread ⊢
  simp only [Option.bind_eq_bind, Option.bind_some, List.cons_ne_nil, if_false, peek_cons,
    beq_self_eq_true, after_colon]
  exact congrArg (Option.bind · _) hread

theorem timeFields?_minutes (hhour : hour < pow10 2) (hminute : minute < pow10 2) :
    timeFields? next (timeChars hour minute []) =
      some ⟨hour, minute, 0, 0, next != '\x00'⟩ :=
  timeFields?_timeChars hhour hminute []

theorem timeFields?_seconds (hhour : hour < pow10 2) (hminute : minute < pow10 2)
    (hsecond : second < pow10 2) (hmicros : micros < pow10 6) :
    timeFields? next (timeChars hour minute (secondChars second micros)) =
      some ⟨hour, minute, second, micros, next != '\x00'⟩ := by
  rw [timeFields?_timeChars hhour hminute]
  unfold secondChars
  by_cases hzero : micros = 0
  · have hread := digits?_paddedDigits (by decide) hsecond []
    obtain ⟨c, cs, -, hcs⟩ := exists_cons_paddedDigits (by decide) hsecond []
    rw [if_pos hzero, hzero]
    rw [hcs] at hread ⊢
    simp only [after_colon, hread, Option.bind_some]
    rfl
  · have hread := digits?_paddedDigits (by decide) hsecond ('.' :: paddedDigits 6 micros)
    obtain ⟨c, cs, -, hcs⟩ :=
      exists_cons_paddedDigits (by decide) hsecond ('.' :: paddedDigits 6 micros)
    obtain ⟨d, ds, -, hds⟩ := exists_cons_paddedDigits (by decide) hmicros []
    have hfraction := @fraction?_paddedDigits micros next hmicros
    rw [List.append_nil] at hds
    rw [if_neg hzero]
    rw [hcs] at hread ⊢
    rw [hds] at hread hfraction
    simp only [after_colon, hread, Option.bind_some, after_point, hfraction, Option.map_some]

def clockChars (micros : Nat) : List Char :=
  let seconds := micros / microsPerSecond
  timeChars (seconds / 3600) (seconds / 60 % 60)
    (secondChars (seconds % 60) (micros % microsPerSecond))

def offsetChars (offset : Int) : List Char :=
  let seconds := offset.natAbs / microsPerSecond
  let part := offset.natAbs % microsPerSecond
  (if offset < 0 then '-' else '+') :: timeChars (seconds / 3600) (seconds / 60 % 60)
    (if seconds % 60 = 0 ∧ part = 0 then [] else secondChars (seconds % 60) part)

/-- The fields of a time of less than a day have two digits each, and its fraction has six. -/
theorem fields_lt {n : Nat} (h : n < microsPerDay) :
    n / microsPerSecond / 3600 < pow10 2 ∧ n / microsPerSecond / 60 % 60 < pow10 2 ∧
      n / microsPerSecond % 60 < pow10 2 ∧ n % microsPerSecond < pow10 6 := by
  have htwo : pow10 2 = 100 := rfl
  have hsix : pow10 6 = 1000000 := rfl
  simp only [microsPerSecond, microsPerDay] at *
  omega

theorem timeFields?_clockChars (h : micros < microsPerDay) :
    timeFields? next (clockChars micros) =
      some ⟨micros / microsPerSecond / 3600, micros / microsPerSecond / 60 % 60,
        micros / microsPerSecond % 60, micros % microsPerSecond, next != '\x00'⟩ := by
  obtain ⟨hhour, hminute, hsecond, hmicros⟩ := fields_lt h
  exact timeFields?_seconds hhour hminute hsecond hmicros

theorem ofFields?_clock (h : micros < microsPerDay) (offset : Option Int) :
    ClockTime.ofFields? (micros / microsPerSecond / 3600) (micros / microsPerSecond / 60 % 60)
      (micros / microsPerSecond % 60) (micros % microsPerSecond) offset =
        some ⟨micros, h, offset⟩ := by
  have hfields : micros / microsPerSecond / 3600 < 24 ∧ micros / microsPerSecond / 60 % 60 < 60 ∧
      micros / microsPerSecond % 60 < 60 ∧ micros % microsPerSecond < microsPerSecond := by
    simp only [microsPerSecond, microsPerDay] at *
    omega
  rw [ClockTime.ofFields?, dif_pos hfields]
  simp only [Option.some.injEq, ClockTime.mk.injEq, and_true]
  simp only [microsPerSecond]
  omega

/-- An offset of less than a second counts as none at all. -/
def readOffset (offset : Int) : Int := if offset.natAbs < microsPerSecond then 0 else offset

theorem offsetOfFields?_offset {offset : Int} (h : offset.natAbs < microsPerDay)
    (leftover : Bool) :
    offsetOfFields? (decide (offset < 0))
      ⟨offset.natAbs / microsPerSecond / 3600, offset.natAbs / microsPerSecond / 60 % 60,
        offset.natAbs / microsPerSecond % 60, offset.natAbs % microsPerSecond, leftover⟩ =
          some (readOffset offset) := by
  have hseconds : offset.natAbs / microsPerSecond / 3600 * 3600 +
      offset.natAbs / microsPerSecond / 60 % 60 * 60 + offset.natAbs / microsPerSecond % 60 =
        offset.natAbs / microsPerSecond := by omega
  have hmicros : offset.natAbs / microsPerSecond * microsPerSecond +
      offset.natAbs % microsPerSecond = offset.natAbs := Nat.div_add_mod' _ _
  have hday : (offset.natAbs : Int) < microsPerDay := by omega
  have hzero : offset.natAbs / microsPerSecond = 0 ↔ offset.natAbs < microsPerSecond :=
    Nat.div_eq_zero_iff_lt (by decide)
  unfold offsetOfFields? readOffset
  simp only [hseconds, hmicros, hzero, if_pos hday]
  split
  · rfl
  · by_cases hneg : offset < 0
    · simp only [hneg, decide_true, if_true, Option.some.injEq]
      omega
    · simp only [hneg, decide_false, Bool.false_eq_true, if_false, Option.some.injEq]
      omega

theorem mem_timeChars {c : Char} {hour minute : Nat} {rest : List Char}
    (h : c ∈ timeChars hour minute rest) : isAsciiDigit c = true ∨ c = ':' ∨ c ∈ rest := by
  simp only [timeChars, List.mem_append, List.mem_cons] at h
  rcases h with h | h | h | h
  · exact .inl (isAsciiDigit_of_mem_paddedDigits h)
  · exact .inr (.inl h)
  · exact .inl (isAsciiDigit_of_mem_paddedDigits h)
  · exact .inr (.inr h)

theorem mem_secondChars {c : Char} (h : c ∈ secondChars second micros) :
    isAsciiDigit c = true ∨ c = ':' ∨ c = '.' := by
  simp only [secondChars, List.mem_append, List.mem_cons] at h
  rcases h with h | h | h
  · exact .inr (.inl h)
  · exact .inl (isAsciiDigit_of_mem_paddedDigits h)
  · split at h
    · cases h
    · rcases List.mem_cons.mp h with h | h
      · exact .inr (.inr h)
      · exact .inl (isAsciiDigit_of_mem_paddedDigits h)

theorem mem_clockChars {c : Char} (h : c ∈ clockChars micros) :
    isAsciiDigit c = true ∨ c = ':' ∨ c = '.' := by
  rcases mem_timeChars h with h | h | h
  · exact .inl h
  · exact .inr (.inl h)
  · exact mem_secondChars h

theorem mem_offsetChars {c : Char} {offset : Int} (h : c ∈ offsetChars offset) :
    isAsciiDigit c = true ∨ c ∈ ['-', '+', ':', '.'] := by
  rcases List.mem_cons.mp h with rfl | h
  · refine .inr ?_
    split <;> decide
  · rcases mem_timeChars h with h | rfl | h
    · exact .inl h
    · exact .inr (by decide)
    · split at h
      · cases h
      · rcases mem_secondChars h with h | rfl | rfl
        · exact .inl h
        · exact .inr (by decide)
        · exact .inr (by decide)

theorem not_isOffsetSign_of_mem_clockChars {c : Char} (h : c ∈ clockChars micros) :
    (!isOffsetSign c) = true := by
  rcases mem_clockChars h with h | rfl | rfl
  · have hne : ∀ sign, isAsciiDigit sign = false → (c == sign) = false := by
      intro sign hsign
      refine beq_eq_false_iff_ne.mpr ?_
      rintro rfl
      exact Bool.false_ne_true (hsign.symm.trans h)
    rw [isOffsetSign, hne '+' (by decide), hne '-' (by decide), hne 'Z' (by decide)]
    rfl
  · rfl
  · rfl

/-- A time of day ends where its offset begins. -/
theorem span_clockChars (zone : List Char) (hzone : ∀ c ∈ zone.head?, isOffsetSign c = true) :
    (clockChars micros ++ zone).takeWhile (fun c => !isOffsetSign c) = clockChars micros ∧
      (clockChars micros ++ zone).dropWhile (fun c => !isOffsetSign c) = zone := by
  have htime := fun c (hc : c ∈ clockChars micros) => not_isOffsetSign_of_mem_clockChars hc
  rw [List.takeWhile_append_of_pos htime, List.dropWhile_append_of_pos htime]
  cases zone with
  | nil => exact ⟨List.append_nil _, rfl⟩
  | cons sign zone =>
    have hsign : (!isOffsetSign sign) = false := by
      rw [hzone sign rfl]
      rfl
    rw [List.takeWhile_cons_of_neg (by rw [hsign]; exact Bool.false_ne_true),
      List.dropWhile_cons_of_neg (by rw [hsign]; exact Bool.false_ne_true)]
    exact ⟨List.append_nil _, rfl⟩

def zoneChars : Option Int → List Char
  | none => []
  | some offset => offsetChars offset

theorem timeFields?_offset {n : Nat} (h : n < microsPerDay) :
    timeFields? '\x00' (timeChars (n / microsPerSecond / 3600) (n / microsPerSecond / 60 % 60)
      (if n / microsPerSecond % 60 = 0 ∧ n % microsPerSecond = 0 then []
        else secondChars (n / microsPerSecond % 60) (n % microsPerSecond))) =
      some ⟨n / microsPerSecond / 3600, n / microsPerSecond / 60 % 60, n / microsPerSecond % 60,
        n % microsPerSecond, false⟩ := by
  obtain ⟨hhour, hminute, hsecond, hmicros⟩ := fields_lt h
  split
  · rename_i hzero
    rw [timeFields?_minutes hhour hminute, hzero.1, hzero.2]
    rfl
  · exact timeFields?_seconds hhour hminute hsecond hmicros

theorem clock?_clockChars (h : micros < microsPerDay) {offset : Option Int}
    (hoffset : ∀ o ∈ offset, o.natAbs < microsPerDay) :
    clock? (clockChars micros ++ zoneChars offset) =
      some ⟨micros, h, offset.map readOffset⟩ := by
  unfold clock?
  cases offset with
  | none =>
    obtain ⟨htime, hzone⟩ := @span_clockChars micros [] (by intro c hc; cases hc)
    simp only [zoneChars, htime, hzone, timeFields?_clockChars h, Option.bind_eq_bind,
      Option.bind_some, ofFields?_clock h]
    rfl
  | some o =>
    have ho := hoffset o rfl
    obtain ⟨htime, hzone⟩ := @span_clockChars micros (offsetChars o) (by
      intro c hc
      cases hc
      split <;> rfl)
    have hread := timeFields?_offset ho
    have hvalue := offsetOfFields?_offset ho false
    simp only [zoneChars, htime, hzone]
    unfold offsetChars
    by_cases hneg : o < 0
    · simp only [hneg, decide_true] at hvalue
      simp only [hneg, if_true, timeFields?_clockChars h, Option.bind_eq_bind, Option.bind_some,
        hread, Bool.false_eq_true, if_false, beq_self_eq_true, hvalue, ofFields?_clock h]
      rfl
    · have hplus : ('+' == '-') = false := rfl
      simp only [hneg, decide_false] at hvalue
      simp only [hneg, if_false, timeFields?_clockChars h, Option.bind_eq_bind, Option.bind_some,
        hread, Bool.false_eq_true, ofFields?_clock h, hplus, hvalue]
      rfl

end Iso

namespace Moment

variable {m : Moment} {s : String}

def isoChars (m : Moment) : List Char :=
  m.date.isoChars ++ 'T' :: (Iso.clockChars m.micros ++ Iso.zoneChars m.offset)

/-- The offset is less than a day, as that of every moment with a zone. -/
def OffsetInDay (m : Moment) : Prop := ∀ o ∈ m.offset, o.natAbs < microsPerDay

/-- The moment with the offset that is read from its text. -/
def reread (m : Moment) : Moment := { m with offset := m.offset.map Iso.readOffset }

theorem clockText_eq (micros : Nat) : clockText micros = String.ofList (Iso.clockChars micros) := by
  have hcolon : ":" = String.ofList [':'] := rfl
  have hpoint : "." = String.ofList ['.'] := rfl
  have hempty : "" = String.ofList [] := rfl
  simp only [clockText, padded, hcolon, hpoint, hempty, ← String.ofList_append,
    ← apply_ite String.ofList, Iso.clockChars, Iso.timeChars, Iso.secondChars, List.append_assoc,
    List.cons_append, List.nil_append]

theorem offsetText_eq (offset : Int) :
    offsetText offset = String.ofList (Iso.offsetChars offset) := by
  have hcolon : ":" = String.ofList [':'] := rfl
  have hpoint : "." = String.ofList ['.'] := rfl
  have hplus : "+" = String.ofList ['+'] := rfl
  have hminus : "-" = String.ofList ['-'] := rfl
  have hempty : "" = String.ofList [] := rfl
  unfold offsetText Iso.offsetChars Iso.timeChars Iso.secondChars
  simp only [padded, hcolon, hpoint, hplus, hminus, hempty]
  by_cases hneg : offset < 0 <;>
    by_cases hpart : offset.natAbs % microsPerSecond = 0 <;>
    by_cases hsecond : offset.natAbs / microsPerSecond % 60 = 0 <;>
    simp only [hneg, hpart, hsecond, if_true, if_false, and_self, and_true, and_false,
      ← String.ofList_append, List.append_assoc, List.cons_append, List.nil_append,
      List.append_nil]

theorem iso_eq (m : Moment) : m.iso = String.ofList m.isoChars := by
  have hsep : "T" = String.ofList ['T'] := rfl
  have hempty : "" = String.ofList [] := rfl
  unfold iso text isoChars
  rw [Date.iso_eq, clockText_eq, hsep]
  cases m.offset with
  | none =>
    simp only [hempty, ← String.ofList_append, List.append_assoc, List.cons_append,
      List.nil_append, Iso.zoneChars]
  | some o =>
    simp only [offsetText_eq, ← String.ofList_append, List.append_assoc, List.cons_append,
      List.nil_append, Iso.zoneChars]

/-- A text that begins with a date in the extended form has ten characters of its date. -/
theorem dateLength_isoChars (d : Date) (rest : List Char) :
    Iso.dateLength (d.isoChars ++ rest) = 10 := by
  have hyear := length_paddedDigits (by decide) d.year_lt
  obtain ⟨c, cs, hc, hmonth⟩ := Iso.exists_cons_paddedDigits (by decide) d.month_lt
    ('-' :: paddedDigits 2 d.day ++ rest)
  have hchars : d.isoChars ++ rest = paddedDigits 4 d.year ++ '-' :: c :: cs := by
    rw [← hmonth]
    simp only [Date.isoChars, List.append_assoc, List.cons_append]
  have hlength : (d.isoChars ++ rest).length ≠ 7 := by
    rw [List.length_append, d.length_isoChars]
    omega
  have hdash : (d.isoChars ++ rest).getD 4 '\x00' = '-' := by
    rw [hchars, List.getD_eq_getElem?_getD, List.getElem?_append_right (Nat.le_of_eq hyear), hyear]
    rfl
  have hweek : (d.isoChars ++ rest).getD 5 '\x00' ≠ 'W' := by
    rw [hchars, List.getD_eq_getElem?_getD, List.getElem?_append_right (by omega), hyear]
    rintro rfl
    exact absurd hc (by decide)
  unfold Iso.dateLength
  simp only [hlength, hdash, hweek, if_false, if_true]

theorem moment?_iso (hm : m.OffsetInDay) : Iso.moment? m.iso = some m.reread := by
  have hdate := m.date.length_isoChars
  have hlength : ¬m.isoChars.length < 7 := by
    rw [isoChars, List.length_append, hdate]
    omega
  have hused : Iso.dateLength m.isoChars = 10 := dateLength_isoChars m.date _
  have htake : m.isoChars.take 10 = m.date.isoChars := List.take_left' hdate
  have hdrop : m.isoChars.drop 10 = 'T' :: (Iso.clockChars m.micros ++ Iso.zoneChars m.offset) :=
    List.drop_left' hdate
  unfold Iso.moment?
  simp only [iso_eq, String.toList_ofList, hlength, if_false, hused, htake, hdrop,
    Iso.leadingDate?_isoChars, Iso.clock?_clockChars m.lt_day hm, Option.bind_eq_bind,
    Option.bind_some]
  rfl

/-- The text of a moment in UTC, with its offset written as a letter. -/
def zulu (m : Moment) : String := m.date.iso ++ "T" ++ clockText m.micros ++ "Z"

/-- The ways to write a moment: its ISO text, with `Z` for an offset of zero, and either of them
with blanks around. -/
inductive Spelled (m : Moment) : String → Prop where
  | iso : Spelled m m.iso
  | zulu (hzero : m.offset = some 0) : Spelled m m.zulu
  | pad {before after : List Char} (hbefore : ∀ c ∈ before, isBlank c = true)
      (hafter : ∀ c ∈ after, isBlank c = true) {s : String} (h : Spelled m s) :
      Spelled m (Identifier.pad before after s)

theorem zulu_eq (m : Moment) :
    m.zulu = String.ofList (m.date.isoChars ++ 'T' :: (Iso.clockChars m.micros ++ ['Z'])) := by
  have hsep : "T" = String.ofList ['T'] := rfl
  have hzulu : "Z" = String.ofList ['Z'] := rfl
  simp only [zulu, Date.iso_eq, clockText_eq, hsep, hzulu, ← String.ofList_append,
    List.append_assoc, List.cons_append, List.nil_append]

def marks : List Char := ['-', '+', ':', '.', 'T']

theorem mem_isoChars {c : Char} (h : c ∈ m.isoChars) : isAsciiDigit c = true ∨ c ∈ marks := by
  rcases List.mem_append.mp h with h | h
  · rcases Date.mem_isoChars h with h | rfl
    · exact .inl h
    · exact .inr (by decide)
  rcases List.mem_cons.mp h with rfl | h
  · exact .inr (by decide)
  rcases List.mem_append.mp h with h | h
  · rcases Iso.mem_clockChars h with h | rfl | rfl
    · exact .inl h
    · exact .inr (by decide)
    · exact .inr (by decide)
  · cases hoffset : m.offset with
    | none =>
      rw [hoffset] at h
      cases h
    | some o =>
      rw [hoffset] at h
      rcases Iso.mem_offsetChars h with h | h
      · exact .inl h
      · exact .inr (List.mem_append_left ['T'] h)

theorem isBlank_of_mem_isoChars {c : Char} (h : c ∈ m.isoChars) : isBlank c = false := by
  rcases mem_isoChars h with h | h
  · exact isBlank_of_isAsciiDigit h
  · have hmarks : marks.all (fun c => !isBlank c) = true := by decide
    exact Bool.not_eq_true' _ |>.mp (List.all_eq_true.mp hmarks c h)

theorem trim_iso (m : Moment) : trim m.iso = m.iso := by
  rw [trim, iso_eq, String.toList_ofList, trimChars_of_forall fun c => isBlank_of_mem_isoChars]

theorem trim_zulu (m : Moment) : trim m.zulu = m.zulu := by
  rw [trim, zulu_eq, String.toList_ofList, trimChars_eq_self]
  · intro c hc
    have hdate : m.date.isoChars ≠ [] := by
      intro hnil
      have := m.date.length_isoChars
      rw [hnil] at this
      cases this
    rw [List.head?_append_of_ne_nil _ hdate] at hc
    exact Calendar.isBlank_of_mem_isoChars (List.mem_of_head? hc)
  · intro c hc
    rw [← List.cons_append, ← List.append_assoc, List.getLast?_concat] at hc
    cases hc
    decide

theorem spellOutZulu_iso (m : Moment) : Value.spellOutZulu m.iso = m.iso := by
  have hnone : 'Z' ∉ m.isoChars := fun h => by
    rcases mem_isoChars h with h | h
    · exact absurd h (by decide)
    · exact absurd h (by decide)
  unfold Value.spellOutZulu
  split
  · rename_i hlast
    rw [iso_eq, String.toList_ofList] at hlast
    refine absurd ?_ hnone
    rw [← List.mem_reverse, hlast]
    exact List.mem_cons_self
  · rfl

theorem spellOutZulu_zulu (hzero : m.offset = some 0) : Value.spellOutZulu m.zulu = m.iso := by
  have hlast : "+00:00" = String.ofList (Iso.offsetChars 0) := by decide
  unfold Value.spellOutZulu
  rw [zulu_eq, String.toList_ofList, ← List.cons_append, ← List.append_assoc,
    List.reverse_append, List.reverse_singleton, List.singleton_append]
  simp only [List.reverse_reverse, hlast, iso_eq, isoChars, hzero, Iso.zoneChars,
    ← String.ofList_append, List.append_assoc, List.cons_append]

theorem Spelled.trim (h : m.Spelled s) :
    Text.trim s = m.iso ∨ m.offset = some 0 ∧ Text.trim s = m.zulu := by
  induction h with
  | iso => exact .inl m.trim_iso
  | zulu hzero => exact .inr ⟨hzero, m.trim_zulu⟩
  | pad hbefore hafter _ ih => rwa [Identifier.trim_pad hbefore hafter]

theorem Spelled.spellOutZulu (h : m.Spelled s) : Value.spellOutZulu (Text.trim s) = m.iso := by
  rcases h.trim with htext | ⟨hzero, htext⟩
  · rw [htext, spellOutZulu_iso]
  · rw [htext, spellOutZulu_zulu hzero]

theorem Spelled.long (h : m.Spelled s) : 10 < (Text.trim s).utf8ByteSize := by
  have hsep : ("T" : String).utf8ByteSize = 1 := rfl
  rcases h.trim with htext | ⟨-, htext⟩
  all_goals
    rw [htext]
    simp only [Moment.iso, Moment.text, Moment.zulu, String.utf8ByteSize_append,
      Date.utf8ByteSize_iso, hsep]
    omega

theorem Spelled.date?_trim (h : m.Spelled s) : Iso.date? (Text.trim s) = none := by
  have hlong := h.long
  rw [Iso.date?, if_neg (by omega)]

theorem Spelled.isGiven (h : m.Spelled s) : Value.isGiven (.text s) = true := by
  have hne : s ≠ "" := by
    rintro rfl
    exact absurd h.long (by decide)
  simpa [Value.isGiven] using hne

/-- A spelling is read as the moment, with UTC for an offset that is unknown. -/
theorem Spelled.timestamp? (h : m.Spelled s) (hm : m.OffsetInDay) :
    Value.timestamp? (.text s) = some m.reread.assumeUtc := by
  unfold Value.timestamp?
  rw [if_pos h.isGiven]
  simp only [Value.toText, h.spellOutZulu, moment?_iso hm, Option.map_some]

theorem Spelled.date? (h : m.Spelled s) (hm : m.OffsetInDay) :
    Value.date? (.text s) = some m.date := by
  unfold Value.date?
  rw [if_pos h.isGiven]
  simp only [Value.toText, h.date?_trim, h.spellOutZulu, moment?_iso hm, Option.map_some]
  rfl

/-- The offset is there and less than a second, and not zero. -/
def OffsetBelowSecond (m : Moment) : Prop :=
  ∃ o ∈ m.offset, o ≠ 0 ∧ o.natAbs < microsPerSecond

theorem reread_of_not_below (h : ¬m.OffsetBelowSecond) : m.reread = m := by
  have hmap : m.offset.map Iso.readOffset = m.offset := by
    cases hoffset : m.offset with
    | none => rfl
    | some o =>
      rw [Option.map_some, Iso.readOffset]
      split
      · rename_i hlt
        have hzero : o = 0 := by
          by_contra hne
          exact h ⟨o, hoffset, hne, hlt⟩
        rw [hzero]
      · rfl
  rw [reread, hmap]

theorem reread_of_below (h : m.OffsetBelowSecond) : m.reread = { m with offset := some 0 } := by
  obtain ⟨o, ho, -, hlt⟩ := h
  rw [reread, Option.mem_def.mp ho, Option.map_some, Iso.readOffset, if_pos hlt]

/-- Every spelling of a moment is read as its instant and offset, in UTC where the offset is
unknown, unless the offset is less than a second: that is read as zero. The date that is read from
it is the date as written. Dates are read from their text, so filters that are rebuilt for two days
are about these days, and every query that they stand in is bounded by them. -/
theorem read_spelled (m : Moment) (s : String) (hm : m.OffsetInDay) (h : m.Spelled s) :
    (¬m.OffsetBelowSecond → ∃ n, Value.timestamp? (.text s) = some n ∧
      n.date = m.date ∧ n.micros = m.micros ∧ n.offset = some (m.offset.getD 0) ∧
      n.instant = m.instant) ∧
    (m.OffsetBelowSecond → Value.timestamp? (.text s) = some { m with offset := some 0 }) ∧
    Value.date? (.text s) = some m.date ∧
    (∀ d : Date, Value.date? (.text d.iso) = some d) ∧
    ∀ (f : Filters) (first last : Date),
      (Engine.narrowed f first last).days = .ok (first, last) ∧
        ∀ t qualifier users, Standard.apply (Engine.narrowed f first last) t qualifier users =
          .ok (Standard.conditions (Engine.narrowed f first last) first last t qualifier users) := by
  refine ⟨fun hbelow => ?_, fun hbelow => ?_, h.date? hm, dateOfText?_iso, fun f first last => ?_⟩
  · refine ⟨m.assumeUtc, ?_, rfl, rfl, rfl, m.instant_assumeUtc⟩
    rw [h.timestamp? hm, reread_of_not_below hbelow]
  · rw [h.timestamp? hm, reread_of_below hbelow]
    rfl
  · have hdays := Engine.days_narrowed f first last
    refine ⟨hdays, fun t qualifier users => ?_⟩
    rw [Standard.apply, hdays]
    rfl

def earlyMidnight : Moment :=
  onDay ⟨738886, by decide, by decide⟩ { ClockTime.midnight with offset := some 19800000000 }

theorem read_spelled_earlyMidnight :
    earlyMidnight.OffsetInDay ∧
      earlyMidnight.Spelled " 2024-01-01T00:00:00+05:30\n" ∧
      Value.timestamp? (.text " 2024-01-01T00:00:00+05:30\n") = some earlyMidnight := by
  have hm : earlyMidnight.OffsetInDay := by
    intro o ho
    cases ho
    decide
  have hs : earlyMidnight.Spelled " 2024-01-01T00:00:00+05:30\n" :=
    @Spelled.pad _ [' '] ['\n'] (List.forall_mem_singleton.mpr (by decide))
      (List.forall_mem_singleton.mpr (by decide)) _ .iso
  have hbelow : ¬earlyMidnight.OffsetBelowSecond := by
    rintro ⟨o, ho, -, hlt⟩
    cases ho
    exact absurd hlt (by decide)
  obtain ⟨n, hn, hdate, hmicros, hoffset, -⟩ := (read_spelled _ _ hm hs).1 hbelow
  refine ⟨hm, hs, ?_⟩
  rw [hn]
  cases n
  cases hdate
  cases hmicros
  cases hoffset
  rfl

/-- Midnight of 2024-01-01 at an offset of half a second: its text is read as midnight in UTC. -/
theorem not_read_half_second :
    ¬∀ (m : Moment) (s : String), m.OffsetInDay → m.Spelled s →
      ∃ n, Value.timestamp? (.text s) = some n ∧ n.instant = m.instant ∧
        n.offset = some (m.offset.getD 0) := by
  intro hall
  let m : Moment := ⟨⟨738886, by decide, by decide⟩, 0, by decide, some 500000⟩
  have hm : m.OffsetInDay := by
    intro o ho
    cases ho
    decide
  have hbelow : m.OffsetBelowSecond := ⟨500000, rfl, by decide, by decide⟩
  obtain ⟨n, hn, -, hoffset⟩ := hall m m.iso hm .iso
  have hread : Value.timestamp? (.text m.iso) = some { m with offset := some 0 } := by
    rw [Spelled.iso.timestamp? hm, reread_of_below hbelow]
    rfl
  rw [hread] at hn
  cases hn
  exact absurd hoffset (by decide)

end Moment

end Funnel.Calendar
