import Funnel.Proofs.Query.Placeholders

/-!
# Plain texts

A plain text takes no parameters, offers no alternative, looks nothing up and closes its own
parentheses. Such texts can be put next to each other at any character that belongs to no word, so
that a text made of plain parts is plain without being read again.
-/

set_option autoImplicit false

namespace Funnel.Fragment

open Placeholder

/-- A text that offers no alternative and looks nothing up. -/
structure Quiet (s : String) : Prop where
  noOr : Lacks "OR" s
  noSelect : Lacks "SELECT" s

/-- A quiet text whose parentheses are its own. -/
structure Bare (s : String) : Prop extends Quiet s where
  balanced : Balanced s

/-- A quiet text without parameters whose parentheses are its own. -/
structure Plain (s : String) : Prop extends Bare s where
  noDollar : '$' ∉ s.toList

theorem lacks_append_of_startsApart {word a b : String} (ha : Lacks word a) (hb : Lacks word b)
    (h : StartsApart b) : Lacks word (a ++ b) := by
  unfold Lacks occurrences at ha hb ⊢
  rw [words_append_of_startsApart a h, List.filter_append, ha, hb]
  rfl

theorem lacks_append_of_endsApart {word a b : String} (ha : Lacks word a) (hb : Lacks word b)
    (h : EndsApart a) : Lacks word (a ++ b) := by
  unfold Lacks occurrences at ha hb ⊢
  rw [words_append_of_endsApart h, List.filter_append, ha, hb]
  rfl

theorem startsApart_append {a : String} (h : StartsApart a) (b : String) :
    StartsApart (a ++ b) := by
  obtain ⟨c, cs, ha, hc⟩ := h
  exact ⟨c, cs ++ b.toList, by simp [ha], hc⟩

theorem endsApart_append (a : String) {b : String} (h : EndsApart b) : EndsApart (a ++ b) := by
  obtain ⟨cs, c, hb, hc⟩ := h
  exact ⟨a.toList ++ cs, c, by simp [hb], hc⟩

theorem startsApart_ofList {c : Char} {cs : List Char} (h : isNameChar c = false) :
    StartsApart (String.ofList (c :: cs)) :=
  ⟨c, cs, String.toList_ofList, h⟩

theorem endsApart_ofList {cs : List Char}
    (h : cs.getLast?.any (fun c => !isNameChar c && c != '$') = true) :
    EndsApart (String.ofList cs) := by
  obtain ⟨c, hlast, hc⟩ := (Option.any_eq_true _ _).mp h
  obtain ⟨front, rfl⟩ := List.getLast?_eq_some_iff.mp hlast
  exact ⟨front, c, String.toList_ofList, by simpa using hc⟩

theorem wordsFrom_of_all {cs : List Char} (h : ∀ c ∈ cs, isNameChar c = true)
    (current : List Char) : wordsFrom current cs = finished (cs.reverse ++ current) := by
  induction cs generalizing current with
  | nil => rfl
  | cons c cs ih =>
    rw [wordsFrom, if_pos (h c List.mem_cons_self),
      ih (fun x hx => h x (List.mem_cons_of_mem c hx)), List.reverse_cons, List.append_assoc]
    rfl

theorem words_dollar_append {n : String} (h : Nameable n) : words ("$" ++ n) = [n.toList] := by
  obtain ⟨c, r, hn, hc, hr⟩ := h
  have hall : ∀ x ∈ n.toList, isNameChar x = true := by
    rw [hn]
    intro x hx
    rcases List.mem_cons.mp hx with rfl | hx
    · simp [isNameChar, hc]
    · exact List.all_eq_true.mp hr x hx
  have hne : n.toList.reverse ≠ [] := by simp [hn]
  have hdollar : ("$" ++ n).toList = '$' :: n.toList := by
    rw [String.toList_append]
    rfl
  have hskip : wordsFrom [] ('$' :: n.toList) = wordsFrom [] n.toList := rfl
  rw [words, hdollar, hskip, wordsFrom_of_all hall, List.append_nil, finished, if_neg hne,
    List.reverse_reverse]

theorem quiet_append_of_startsApart {a b : String} (ha : Quiet a) (hb : Quiet b)
    (h : StartsApart b) : Quiet (a ++ b) :=
  ⟨lacks_append_of_startsApart ha.noOr hb.noOr h,
    lacks_append_of_startsApart ha.noSelect hb.noSelect h⟩

theorem quiet_append_of_endsApart {a b : String} (ha : Quiet a) (hb : Quiet b)
    (h : EndsApart a) : Quiet (a ++ b) :=
  ⟨lacks_append_of_endsApart ha.noOr hb.noOr h,
    lacks_append_of_endsApart ha.noSelect hb.noSelect h⟩

/-- Between two texts that touch no word, nothing new comes to stand. -/
theorem quiet_insert {before after x : String} (hbefore : Quiet before) (hx : Quiet x)
    (hafter : Quiet after) (hends : EndsApart before) (hstarts : StartsApart after) :
    Quiet (before ++ x ++ after) :=
  quiet_append_of_startsApart (quiet_append_of_endsApart hbefore hx hends) hafter hstarts

theorem quiet_intercalate {s : String} (hs : s ∈ separators) {xs : List String}
    (h : ∀ x ∈ xs, Quiet x) : Quiet (s.intercalate xs) := by
  constructor
  · rw [Lacks, splits_or.intercalate hs, List.flatMap_eq_nil_iff]
    exact fun x hx => (h x hx).noOr
  · rw [Lacks, cuts_select.intercalate hs, List.flatMap_eq_nil_iff]
    exact fun x hx => (h x hx).noSelect

theorem quiet_dollar_append {n : String} (h : Nameable n)
    (hor : n.toList.map Char.toUpper ≠ "OR".toList)
    (hselect : n.toList.map Char.toUpper ≠ "SELECT".toList) : Quiet ("$" ++ n) := by
  constructor
  · rw [Lacks, occurrences, words_dollar_append h]
    exact List.filter_cons_of_neg (by rwa [decide_eq_true_eq])
  · rw [Lacks, occurrences, words_dollar_append h]
    exact List.filter_cons_of_neg (by rwa [decide_eq_true_eq])

/-- The names of a numbered list are no keywords, since a keyword has no underscore. -/
theorem quiet_dollar_numbered {name : String} (h : Nameable name) (i : Nat) :
    Quiet ("$" ++ numbered name i) := by
  have hmem : '_' ∈ (numbered name i).toList.map Char.toUpper := by
    refine List.mem_map.mpr ⟨'_', ?_, by decide⟩
    simp [numbered]
  refine quiet_dollar_append (nameable_numbered h i) ?_ ?_
  · intro heq
    rw [heq] at hmem
    exact absurd hmem (by decide)
  · intro heq
    rw [heq] at hmem
    exact absurd hmem (by decide)

/-- What makes a text quiet, read off its characters. -/
def QuietChars (cs : List Char) : Prop :=
  (∀ w ∈ wordsFrom [] cs, w.map Char.toUpper ≠ ['O', 'R']) ∧
    ∀ w ∈ wordsFrom [] cs, w.map Char.toUpper ≠ ['S', 'E', 'L', 'E', 'C', 'T']

instance (cs : List Char) : Decidable (QuietChars cs) :=
  inferInstanceAs (Decidable (_ ∧ _))

theorem lacksOr_ofList {cs : List Char}
    (h : ∀ w ∈ wordsFrom [] cs, w.map Char.toUpper ≠ ['O', 'R']) :
    Lacks "OR" (String.ofList cs) := by
  have hor : "OR".toList = ['O', 'R'] := String.toList_ofList
  rw [Lacks, occurrences, words, hor, String.toList_ofList, List.filter_eq_nil_iff]
  intro w hw
  rw [decide_eq_true_eq]
  exact h w hw

theorem lacksSelect_ofList {cs : List Char}
    (h : ∀ w ∈ wordsFrom [] cs, w.map Char.toUpper ≠ ['S', 'E', 'L', 'E', 'C', 'T']) :
    Lacks "SELECT" (String.ofList cs) := by
  have hselect : "SELECT".toList = ['S', 'E', 'L', 'E', 'C', 'T'] := String.toList_ofList
  rw [Lacks, occurrences, words, hselect, String.toList_ofList, List.filter_eq_nil_iff]
  intro w hw
  rw [decide_eq_true_eq]
  exact h w hw

theorem quiet_ofList {cs : List Char} (h : QuietChars cs) : Quiet (String.ofList cs) :=
  ⟨lacksOr_ofList h.1, lacksSelect_ofList h.2⟩

theorem noDollar_ofList {cs : List Char} (h : '$' ∉ cs) : '$' ∉ (String.ofList cs).toList := by
  rw [String.toList_ofList]
  exact h

theorem plain_ofList {cs : List Char} (h : QuietChars cs ∧ '$' ∉ cs ∧ depth? 0 cs = some 0) :
    Plain (String.ofList cs) where
  toQuiet := quiet_ofList h.1
  noDollar := noDollar_ofList h.2.1
  balanced := by rw [Balanced, String.toList_ofList]; exact h.2.2

theorem Plain.names_eq_nil {s : String} (h : Plain s) : names s = [] :=
  names_of_no_dollar h.noDollar

theorem plain_append_of_startsApart {a b : String} (ha : Plain a) (hb : Plain b)
    (h : StartsApart b) : Plain (a ++ b) where
  toQuiet := quiet_append_of_startsApart ha.toQuiet hb.toQuiet h
  noDollar := by
    rw [String.toList_append, List.mem_append]
    exact not_or.mpr ⟨ha.noDollar, hb.noDollar⟩
  balanced := balanced_append ha.balanced hb.balanced

theorem plain_append_of_endsApart {a b : String} (ha : Plain a) (hb : Plain b)
    (h : EndsApart a) : Plain (a ++ b) where
  toQuiet := quiet_append_of_endsApart ha.toQuiet hb.toQuiet h
  noDollar := by
    rw [String.toList_append, List.mem_append]
    exact not_or.mpr ⟨ha.noDollar, hb.noDollar⟩
  balanced := balanced_append ha.balanced hb.balanced

theorem plain_insert {before after x : String} (hbefore : Quiet before) (hx : Plain x)
    (hafter : Quiet after) (hends : EndsApart before) (hstarts : StartsApart after)
    (hbalanced : Balanced (before ++ after))
    (hdollar : '$' ∉ before.toList ∧ '$' ∉ after.toList) : Plain (before ++ x ++ after) where
  toQuiet := quiet_insert hbefore hx.toQuiet hafter hends hstarts
  noDollar := by
    rw [String.toList_append, String.toList_append, List.mem_append, List.mem_append]
    exact not_or.mpr ⟨not_or.mpr ⟨hdollar.1, hx.noDollar⟩, hdollar.2⟩
  balanced := balanced_insert hbalanced hx.balanced

example : Plain "COUNT(*) FILTER (WHERE LOWER(call_outcome) = 'show')" := plain_ofList (by decide)

end Funnel.Fragment
