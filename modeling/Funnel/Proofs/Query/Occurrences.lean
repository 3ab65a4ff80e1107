import Funnel.Proofs.Query.Placeholders

/-!
# Where placeholders stand

A placeholder stands in a text where a dollar sign is followed by a name that does not go on. The
scan from left to right finds exactly these, and in a rendered query they are those of its
fragments: a fragment may end in a dollar sign or in a name, what comes after it is a separator.
-/

set_option autoImplicit false

namespace Funnel.Placeholder

/-- A name stands behind a dollar sign and ends there. -/
def Stands (n s : String) : Prop :=
  ∃ before after, s.toList = before ++ '$' :: (n.toList ++ after) ∧ Nameable n ∧
    ∀ c ∈ after.head?, isNameChar c = false

variable {n : List Char} {s : String}

/-- A name is read up to the character at which it ends. -/
theorem spanName_append {after : List Char} (hn : n.all isNameChar = true)
    (hend : ∀ c ∈ after.head?, isNameChar c = false) : spanName (n ++ after) = (n, after) := by
  have hall : ∀ c ∈ n, isNameChar c = true := List.all_eq_true.mp hn
  have hstop : after.takeWhile isNameChar = [] ∧ after.dropWhile isNameChar = after := by
    cases after with
    | nil => exact ⟨rfl, rfl⟩
    | cons c after =>
      have hc : isNameChar c = false := hend c rfl
      simp [hc]
  rw [spanName, List.takeWhile_append_of_pos hall, List.dropWhile_append_of_pos hall, hstop.1,
    hstop.2, List.append_nil]

/-- What is found stands in the text: no placeholder is made up. -/
theorem exists_of_mem_scan {cs : List Char} (h : n ∈ scan cs) :
    ∃ before after, cs = before ++ '$' :: (n ++ after) ∧ IsName n ∧
      ∀ c ∈ after.head?, isNameChar c = false := by
  unfold scan at h
  fun_induction pieces cs with
  | case1 => cases h
  | case2 c r hc ih =>
    rcases List.mem_cons.mp h with rfl | h
    · refine ⟨[], (spanName r).2, ?_, ⟨c, (spanName r).1, rfl, hc, ?_⟩,
        Text.head?_dropWhile⟩
      · simp only [spanName, List.nil_append, List.cons_append, List.takeWhile_append_dropWhile]
      · exact List.all_takeWhile
    · obtain ⟨before, after, hr, hn, hend⟩ := ih h
      refine ⟨'$' :: c :: (spanName r).1 ++ before, after, ?_, hn, hend⟩
      rw [List.append_assoc, ← hr]
      simp only [spanName, List.cons_append, List.takeWhile_append_dropWhile]
  | case3 c r hc ih =>
    obtain ⟨before, after, hr, hn, hend⟩ := ih h
    exact ⟨'$' :: before, after, congrArg _ hr, hn, hend⟩
  | case4 c r hne ih =>
    obtain ⟨before, after, hr, hn, hend⟩ := ih h
    exact ⟨c :: before, after, congrArg _ hr, hn, hend⟩

/-- What stands in a text is found, whatever is around it. -/
theorem mem_scan_of_stands {before after : List Char} (hn : IsName n)
    (hend : ∀ c ∈ after.head?, isNameChar c = false) :
    n ∈ scan (before ++ '$' :: (n ++ after)) := by
  obtain ⟨c, r, rfl, hc, hr⟩ := hn
  have hdollar : isNameChar '$' = false := by decide
  have hfirst : scan ('$' :: (c :: r ++ after)) = (c :: r) :: scan after := by
    rw [List.cons_append, scan, pieces, if_pos hc, spanName_append hr hend]
    rfl
  rw [scan_append_cons hdollar, hfirst]
  exact List.mem_append_right _ List.mem_cons_self

theorem mem_names_iff {n : String} : n ∈ names s ↔ Stands n s := by
  unfold names
  rw [List.mem_map]
  constructor
  · rintro ⟨cs, hcs, rfl⟩
    obtain ⟨before, after, hs, hn, hend⟩ := exists_of_mem_scan hcs
    refine ⟨before, after, ?_, ?_, hend⟩
    · rw [hs, String.toList_ofList]
    · rwa [Nameable, String.toList_ofList]
  · rintro ⟨before, after, hs, hn, hend⟩
    refine ⟨n.toList, ?_, String.ofList_toList⟩
    rw [hs]
    exact mem_scan_of_stands hn hend

/-- The names that are scanned for are those that stand in a text. The placeholders of a rendered
query are those of its fragments, in their order and as often. So a name stands in the text of the
query exactly if it stands in a fragment. -/
theorem rendered_placeholders : (∀ n s, n ∈ names s ↔ Stands n s) ∧ ∀ q : Select,
    names q.render = q.fragments.flatMap names ∧
      ∀ n, Stands n q.render ↔ ∃ f ∈ q.fragments, Stands n f := by
  refine ⟨fun _ _ => mem_names_iff, ?_⟩
  intro q
  have hsame : names q.render = q.fragments.flatMap names := flatMap_fragments_select splits_names q
  refine ⟨hsame, ?_⟩
  intro n
  rw [← mem_names_iff, hsame, List.mem_flatMap]
  simp only [mem_names_iff]

/-- Fragments that end in a dollar sign, a name and a lone dollar sign before a clause. -/
example : (names (Select.mk ["$a", "b$", "c$d1"] "e$" [⟨"f", "g = $h", some "$k"⟩]
    [.within "m$n" (.simple ["x"] "y$" [])] ["$z"] [] ["$1"]
    [.mk "$w" (.unionAll [.simple ["$u"] "v" [], .simple ["1"] "t$s" []])]).render) =
      ["w", "u", "s", "a", "d1", "k", "h", "n", "z"] := by
  rw [flatMap_fragments_select splits_names]
  decide +kernel

end Funnel.Placeholder
