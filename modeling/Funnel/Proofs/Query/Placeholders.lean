import Funnel.Filter.Condition
import Funnel.Proofs.Query.Words

/-!
# Placeholders of a text

Placeholders are found piece by piece: a separator ends the name before it and starts none, so the
placeholders of a rendered query are those of its fragments. A dollar sign followed by a name is one
placeholder and nothing else.
-/

set_option autoImplicit false

namespace Funnel.Placeholder

open Fragment

theorem spanName_append_cons {c : Char} (hc : isNameChar c = false) (a b : List Char) :
    spanName (a ++ c :: b) = ((spanName a).1, (spanName a).2 ++ c :: b) := by
  induction a with
  | nil => simp [spanName, hc]
  | cons x a ih =>
    simp only [spanName, Prod.mk.injEq] at ih
    by_cases hx : isNameChar x = true
    · simp [spanName, hx, ih.1, ih.2]
    · simp [spanName, hx]

theorem isNameStart_of_isNameChar {c : Char} (hc : isNameChar c = false) :
    isNameStart c = false := by
  simp only [isNameChar, Bool.or_eq_false_iff] at hc
  exact hc.1

theorem pieces_cons_of_ne {c : Char} (hc : c ≠ '$') (cs : List Char) :
    pieces (c :: cs) = .other c :: pieces cs := by
  rw [pieces]
  intro x r h
  exact absurd h hc

theorem pieces_dollar_cons {c : Char} (hc : isNameStart c = false) (cs : List Char) :
    pieces ('$' :: c :: cs) = .other '$' :: pieces (c :: cs) := by
  rw [pieces]
  simp [hc]

/-- Reading goes on afresh at a character that belongs to no name. -/
theorem pieces_append_cons {c : Char} (hc : isNameChar c = false) (a b : List Char) :
    pieces (a ++ c :: b) = pieces a ++ pieces (c :: b) := by
  fun_induction pieces a with
  | case1 => rfl
  | case2 x r hx ih =>
    rw [List.cons_append, List.cons_append, pieces, if_pos hx, spanName_append_cons hc,
      List.cons_append, ih]
  | case3 x r hx ih =>
    rw [List.cons_append, List.cons_append, pieces_dollar_cons (by simpa using hx),
      List.cons_append, ← ih, List.cons_append]
  | case4 x r hne ih =>
    rw [List.cons_append, List.cons_append, ← ih]
    by_cases hx : x = '$'
    · -- A dollar sign at the very end: what follows it decides, and it starts no name.
      cases r with
      | nil =>
        rw [hx, List.nil_append]
        exact pieces_dollar_cons (isNameStart_of_isNameChar hc) b
      | cons y r => exact absurd rfl (hne y r hx)
    · exact pieces_cons_of_ne hx _

theorem scan_append_cons {c : Char} (hc : isNameChar c = false) (a b : List Char) :
    scan (a ++ c :: b) = scan a ++ scan (c :: b) := by
  rw [scan, pieces_append_cons hc, List.filterMap_append]
  rfl

theorem scan_cons_of_ne {c : Char} (hc : c ≠ '$') (cs : List Char) : scan (c :: cs) = scan cs := by
  rw [scan, pieces_cons_of_ne hc]
  rfl

theorem names_append_of_startsApart (a : String) {b : String} (h : StartsApart b) :
    names (a ++ b) = names a ++ names b := by
  obtain ⟨c, cs, hb, hc⟩ := h
  simp only [names, String.toList_append, hb]
  rw [scan_append_cons hc, List.map_append]

theorem names_append_of_endsApart {a : String} (h : EndsApart a) (b : String) :
    names (a ++ b) = names a ++ names b := by
  obtain ⟨cs, c, ha, hc, hdollar⟩ := h
  have hlast : scan (cs ++ [c]) = scan cs := by
    rw [scan_append_cons hc, scan_cons_of_ne hdollar]
    simp [scan, pieces]
  simp only [names, String.toList_append, ha]
  rw [hlast, List.append_assoc, List.singleton_append, scan_append_cons hc,
    scan_cons_of_ne hdollar, List.map_append]

theorem names_of_no_dollar {s : String} (h : '$' ∉ s.toList) : names s = [] := by
  have hscan : ∀ cs : List Char, '$' ∉ cs → scan cs = [] := by
    intro cs
    induction cs with
    | nil => intro _; simp [scan, pieces]
    | cons c cs ih =>
      intro hcs
      rw [scan_cons_of_ne (fun hc => hcs (by simp [hc]))]
      exact ih fun hm => hcs (List.mem_cons_of_mem c hm)
  rw [names, hscan _ h]
  rfl

/-- The placeholders of a rendered query are those of its fragments. -/
theorem splits_names : Splits names where
  cut := by
    intro s hs a b
    have hend : EndsApart (a ++ s) := by
      obtain ⟨cs, c, hcs, hc⟩ := endsApart_of_mem_separators hs
      exact ⟨a.toList ++ cs, c, by simp [hcs], hc⟩
    have hnone : ∀ x ∈ separators, '$' ∉ x.toList := by decide
    rw [names_append_of_endsApart hend,
      names_append_of_startsApart a (startsApart_of_mem_separators hs),
      names_of_no_dollar (hnone s hs), List.append_nil]
  empty := names_of_no_dollar (by decide)
  clauseWord := by
    intro k hk
    have hnone : ∀ x ∈ clauseWords, '$' ∉ x.toList := by decide
    exact names_of_no_dollar (hnone k hk)

/-- A text that a placeholder can have as its name. -/
def Nameable (n : String) : Prop := IsName n.toList

theorem names_dollar_append {n : String} (h : Nameable n) : names ("$" ++ n) = [n] := by
  obtain ⟨c, r, hn, hc, hr⟩ := h
  have hall : ∀ x ∈ r, isNameChar x = true := by simpa using hr
  have htake : r.takeWhile isNameChar = r := by
    simpa using @List.takeWhile_append_of_pos _ isNameChar r [] hall
  have hdrop : r.dropWhile isNameChar = [] := by
    simpa using @List.dropWhile_append_of_pos _ isNameChar r [] hall
  have hscan : scan ("$" ++ n).toList = [n.toList] := by
    rw [String.toList_append, hn]
    change scan ('$' :: c :: r) = [c :: r]
    rw [scan, pieces, if_pos hc, spanName, htake, hdrop]
    simp [pieces]
  rw [names, hscan]
  simp

theorem flatMap_names_map {ask : String → String} {ns : List String}
    (h : ∀ n ∈ ns, names (ask n) = [n]) : (ns.map ask).flatMap names = ns := by
  induction ns with
  | nil => rfl
  | cons n ns ih =>
    rw [List.map_cons, List.flatMap_cons, h n List.mem_cons_self,
      ih fun x hx => h x (List.mem_cons_of_mem n hx)]
    rfl

theorem isNameChar_of_isDigit {c : Char} (h : c.isDigit = true) : isNameChar c = true := by
  simp only [Char.isDigit, Bool.and_eq_true, decide_eq_true_eq] at h
  have h0 : '0' ≤ c := h.1
  have h9 : c ≤ '9' := h.2
  simp [isNameChar, h0, h9]

theorem toList_toString_nat (i : Nat) : (toString i).toList = Nat.toDigits 10 i := by
  rw [Nat.toString_eq_repr, Nat.toList_repr]

theorem nameable_numbered {name : String} (h : Nameable name) (i : Nat) :
    Nameable (numbered name i) := by
  obtain ⟨c, r, hn, hc, hr⟩ := h
  refine ⟨c, r ++ '_' :: Nat.toDigits 10 i, ?_, hc, ?_⟩
  · simp [numbered, hn]
  · rw [List.all_append, hr, Bool.true_and, List.all_cons]
    simp only [Bool.and_eq_true, List.all_eq_true]
    refine ⟨by decide, ?_⟩
    intro d hd
    exact isNameChar_of_isDigit (Nat.isDigit_of_mem_toDigits (by decide) (by decide) hd)

theorem toString_nat_injective {i j : Nat} (h : toString i = toString j) : i = j := by
  have hdigits : Nat.toDigits 10 i = Nat.toDigits 10 j := by
    rw [← toList_toString_nat, ← toList_toString_nat, h]
  rw [← Nat.ofDigitChars_ten_toDigits (n := i), hdigits, Nat.ofDigitChars_ten_toDigits]

theorem numbered_injective {name : String} {i j : Nat} (h : numbered name i = numbered name j) :
    i = j := by
  apply toString_nat_injective
  rw [← String.toList_inj]
  have := congrArg String.toList h
  simpa [numbered] using this

end Funnel.Placeholder
