import Funnel.Query.Guard

/-!
# Keywords that write

The search for a keyword says where it stands: as a whole word, in whatever case. A keyword stands
on one side of a gap, never across it, so that a text cut at gaps has no more keywords than its
parts.
-/

set_option autoImplicit false

namespace Funnel

def endsInWord (afterWord : Bool) (cs : List Char) : Bool :=
  cs.foldl (fun _ c => Text.isWord c) afterWord

/-- A word stands in a text, in whatever case and with no word character on either side. What was
read before the text may end in one. -/
def StandsAfter (afterWord : Bool) (word : String) (cs : List Char) : Prop :=
  ∃ before found rest, cs = before ++ found ∧ endsInWord afterWord before = false ∧
    Text.dropWord? word.toList found = some rest ∧ rest.head?.any Text.isWord = false

def StandsIn (word : String) (cs : List Char) : Prop := StandsAfter false word cs

theorem standsAfter_cons_iff {afterWord : Bool} {word : String} {c : Char} {cs : List Char} :
    StandsAfter afterWord word (c :: cs) ↔
      (afterWord = false ∧ ∃ rest, Text.dropWord? word.toList (c :: cs) = some rest ∧
        rest.head?.any Text.isWord = false) ∨
      StandsAfter (Text.isWord c) word cs := by
  constructor
  · rintro ⟨before, found, rest, hcs, hends, hdrop, hrest⟩
    cases before with
    | nil =>
      rw [List.nil_append] at hcs
      subst hcs
      exact .inl ⟨hends, rest, hdrop, hrest⟩
    | cons b before =>
      obtain ⟨rfl, rfl⟩ := List.cons.inj hcs
      exact .inr ⟨before, found, rest, rfl, hends, hdrop, hrest⟩
  · rintro (⟨hafter, rest, hdrop, hrest⟩ | ⟨before, found, rest, rfl, hends, hdrop, hrest⟩)
    · exact ⟨[], c :: cs, rest, rfl, hafter, hdrop, hrest⟩
    · exact ⟨c :: before, found, rest, rfl, hends, hdrop, hrest⟩

theorem writeKeywordAt?_eq_none_iff (cs : List Char) :
    writeKeywordAt? cs = none ↔ ∀ w ∈ writeKeywords, ¬ ∃ rest,
      Text.dropWord? w.toList cs = some rest ∧ rest.head?.any Text.isWord = false := by
  rw [writeKeywordAt?, List.findSome?_eq_none_iff]
  apply forall₂_congr
  intro w _
  cases Text.dropWord? w.toList cs with
  | none => simp
  | some rest => cases h : rest.head?.any Text.isWord <;> simp [h]

theorem not_standsAfter_nil {afterWord : Bool} {word : String} (hword : word ∈ writeKeywords) :
    ¬ StandsAfter afterWord word [] := by
  rintro ⟨before, found, rest, hcs, -, hdrop, -⟩
  obtain ⟨-, rfl⟩ := List.append_eq_nil_iff.mp hcs.symm
  have hnone : ∀ w ∈ writeKeywords, Text.dropWord? w.toList [] = none := by decide
  rw [hnone word hword] at hdrop
  cases hdrop

/-- The search goes on past a character with what it says about the place after it. -/
theorem writeKeyword?_eq_none_iff (afterWord : Bool) (cs : List Char) :
    writeKeyword? afterWord cs = none ↔ ∀ w ∈ writeKeywords, ¬ StandsAfter afterWord w cs := by
  induction cs generalizing afterWord with
  | nil =>
    constructor
    · intro _ w hw
      exact not_standsAfter_nil hw
    · intro _
      rfl
  | cons c cs ih =>
    have hhere : (if afterWord then none else writeKeywordAt? (c :: cs)) = none ↔
        ∀ w ∈ writeKeywords, ¬ (afterWord = false ∧ ∃ rest,
          Text.dropWord? w.toList (c :: cs) = some rest ∧ rest.head?.any Text.isWord = false) := by
      cases afterWord with
      | true => simp
      | false => simpa using writeKeywordAt?_eq_none_iff (c :: cs)
    simp only [standsAfter_cons_iff, not_or, forall_and]
    rw [← hhere, ← ih]
    rw [writeKeyword?]
    split
    · next w hfound => simp [hfound]
    · next hnone => simp [hnone]

def gaps : List Char := [' ', ',', '(', ')', ':', '.']

theorem forall_mem_gaps {P : Char → Prop} :
    (∀ c ∈ gaps, P c) ↔ P ' ' ∧ P ',' ∧ P '(' ∧ P ')' ∧ P ':' ∧ P '.' := by
  simp [gaps]

section

variable {c : Char} (hc : c ∈ gaps)
include hc

theorem dropWord?_append_gap {word : List Char} (hword : ∀ d ∈ word, Text.foldChar c ≠ d)
    (a b : List Char) :
    (∃ rest, Text.dropWord? word (a ++ c :: b) = some rest ∧
      rest.head?.any Text.isWord = false) ↔
    ∃ rest, Text.dropWord? word a = some rest ∧ rest.head?.any Text.isWord = false := by
  have hnot : ∀ c ∈ gaps, Text.isWord c = false := forall_mem_gaps.mpr (by decide)
  induction word generalizing a with
  | nil =>
    cases a with
    | nil => simp [Text.dropWord?, hnot c hc]
    | cons x a => simp [Text.dropWord?]
  | cons d word ih =>
    cases a with
    | nil =>
      have hd := hword d List.mem_cons_self
      simp [Text.dropWord?, hd]
    | cons x a =>
      rw [List.cons_append, Text.dropWord?, Text.dropWord?]
      split
      · exact ih (fun e he => hword e (List.mem_cons_of_mem d he)) a
      · simp

theorem writeKeywordAt?_append_gap (a b : List Char) :
    writeKeywordAt? (a ++ c :: b) = none ↔ writeKeywordAt? a = none := by
  have hletters : ∀ w ∈ writeKeywords,
      gaps.all (fun c => w.toList.all (Text.foldChar c != ·)) = true := by decide
  rw [writeKeywordAt?_eq_none_iff, writeKeywordAt?_eq_none_iff]
  apply forall₂_congr
  intro w hw
  have hword := List.all_eq_true.mp (List.all_eq_true.mp (hletters w hw) c hc)
  exact not_congr (dropWord?_append_gap hc (fun d hd => bne_iff_ne.mp (hword d hd)) a b)

/-- A keyword stands on one side of a gap, never across it. -/
theorem writeKeyword?_append_gap (afterWord : Bool) (a b : List Char) :
    writeKeyword? afterWord (a ++ c :: b) = none ↔
      writeKeyword? afterWord a = none ∧ writeKeyword? false b = none := by
  have hnot : ∀ c ∈ gaps, Text.isWord c = false := forall_mem_gaps.mpr (by decide)
  induction a generalizing afterWord with
  | nil =>
    have hat : writeKeywordAt? (c :: b) = none := by
      rw [← List.nil_append (c :: b), writeKeywordAt?_append_gap hc]
      decide
    have hgap : writeKeyword? afterWord (c :: b) = writeKeyword? false b := by
      rw [writeKeyword?, hat, ite_self, hnot c hc]
    simp [hgap, writeKeyword?]
  | cons x a ih =>
    rw [List.cons_append, writeKeyword?, writeKeyword?, ← List.cons_append]
    cases afterWord with
    | true => exact ih (Text.isWord x)
    | false =>
      have hat := writeKeywordAt?_append_gap hc (x :: a) b
      cases h : writeKeywordAt? (x :: a) with
      | none =>
        rw [hat.mpr h]
        exact ih (Text.isWord x)
      | some w =>
        cases h' : writeKeywordAt? (x :: a ++ c :: b) with
        | none =>
          rw [hat.mp h'] at h
          cases h
        | some w' => simp

end

/-- The characters of names are word characters that the guard does not take away. -/
theorem isWord_of_isNameChar {c : Char} (h : Placeholder.isNameChar c = true) :
    Text.isWord c = true ∧ Text.isBlank c = false ∧ c ≠ ';' := by
  have hascii : ∀ n : Fin 128, Placeholder.isNameChar (Char.ofNat n) = true →
      Text.isWord (Char.ofNat n) = true ∧ Text.isBlank (Char.ofNat n) = false ∧
        Char.ofNat n ≠ ';' := by
    decide
  have hlt : c.toNat < 128 := by
    have hmost : ∀ d : Char, c ≤ d → d.toNat < 128 → c.toNat < 128 :=
      fun d hle hd => Nat.lt_of_le_of_lt hle hd
    simp only [Placeholder.isNameChar, Placeholder.isNameStart, Bool.or_eq_true,
      Bool.and_eq_true, decide_eq_true_eq, beq_iff_eq] at h
    rcases h with ((⟨-, h⟩ | ⟨-, h⟩) | rfl) | ⟨-, h⟩
    · exact hmost 'z' h (by decide)
    · exact hmost 'Z' h (by decide)
    · decide
    · exact hmost '9' h (by decide)
  have := hascii ⟨c.toNat, hlt⟩
  rw [Char.ofNat_toNat] at this
  exact this h

theorem eq_append_of_dropWord? {word cs rest : List Char} (h : Text.dropWord? word cs = some rest) :
    ∃ front, cs = front ++ rest ∧ front.map Text.foldChar = word := by
  induction word generalizing cs with
  | nil =>
    rw [Text.dropWord?, Option.some.injEq] at h
    exact ⟨[], h, rfl⟩
  | cons d word ih =>
    cases cs with
    | nil => cases h
    | cons c cs =>
      rw [Text.dropWord?, Option.ite_none_right_eq_some] at h
      obtain ⟨rfl, h⟩ := h
      obtain ⟨front, rfl, rfl⟩ := ih h
      exact ⟨c :: front, rfl, rfl⟩

theorem suffix_of_dropWord? {word cs rest : List Char} (h : Text.dropWord? word cs = some rest) :
    rest <:+ cs := by
  obtain ⟨front, rfl, -⟩ := eq_append_of_dropWord? h
  exact List.suffix_append front rest

theorem writeKeyword?_inWord {cs : List Char} (h : ∀ c ∈ cs, Text.isWord c = true) :
    writeKeyword? true cs = none := by
  induction cs with
  | nil => rfl
  | cons c cs ih =>
    rw [writeKeyword?, h c List.mem_cons_self]
    exact ih fun d hd => h d (List.mem_cons_of_mem c hd)

/-- No keyword that writes has an underscore in it. -/
theorem writeKeyword?_of_underscore {cs : List Char} (h : ∀ c ∈ cs, Text.isWord c = true)
    (hunderscore : '_' ∈ cs) : writeKeyword? false cs = none := by
  have hletters : ∀ w ∈ writeKeywords, Text.foldChar '_' ∉ w.toList := by decide
  have hat : writeKeywordAt? cs = none := by
    rw [writeKeywordAt?_eq_none_iff]
    rintro w hw ⟨rest, hdrop, hrest⟩
    obtain ⟨front, rfl, hfront⟩ := eq_append_of_dropWord? hdrop
    cases rest with
    | nil =>
      rw [List.append_nil] at hunderscore
      exact hletters w hw (hfront ▸ List.mem_map_of_mem hunderscore)
    | cons c rest =>
      rw [List.head?_cons, Option.any_some, h c (List.mem_append_right _ List.mem_cons_self)]
        at hrest
      cases hrest
  cases cs with
  | nil => rfl
  | cons c cs =>
    simp only [writeKeyword?, Bool.false_eq_true, if_false, hat, h c List.mem_cons_self]
    exact writeKeyword?_inWord fun d hd => h d (List.mem_cons_of_mem c hd)

end Funnel
