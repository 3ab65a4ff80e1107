import Funnel.Proofs.Query.Guard
import Funnel.Proofs.Query.Placeholders
import Funnel.Proofs.Query.Productions
import Mathlib.Data.List.TakeWhile

/-!
# Texts that the grammar derives

Gaps part whatever a production puts side by side. So no keyword that writes comes to stand in a
derived text, its placeholders can be made NULL part by part, and the guard hands a derived
statement on as it is, whatever the parser does with anything else.
-/

set_option autoImplicit false

namespace Funnel

open Sql Placeholder

def startsInGap (s : String) : Bool := s.toList.head?.all gaps.contains

def endsInGap (s : String) : Bool := s.toList.getLast?.all gaps.contains

/-- Texts with a gap where they meet, unless one of them is empty. -/
def Parted (a b : String) : Prop := endsInGap a = true ∨ startsInGap b = true

theorem Parted.cases {a b : String} (h : Parted a b) :
    a.toList = [] ∨ b.toList = [] ∨
      ∃ c ∈ gaps, (∃ cs, a.toList = cs ++ [c]) ∨ ∃ cs, b.toList = c :: cs := by
  rcases h with h | h
  · rcases List.eq_nil_or_concat a.toList with ha | ⟨cs, c, ha⟩
    · exact .inl ha
    · rw [List.concat_eq_append] at ha
      rw [endsInGap, ha, List.getLast?_concat] at h
      exact .inr (.inr ⟨c, List.elem_iff.mp h, .inl ⟨cs, ha⟩⟩)
  · cases hb : b.toList with
    | nil => exact .inr (.inl rfl)
    | cons c cs =>
      rw [startsInGap, hb] at h
      exact .inr (.inr ⟨c, List.elem_iff.mp h, .inr ⟨cs, rfl⟩⟩)

theorem replace_append_gap {c : Char} (hc : c ∈ gaps) (replacement a b : List Char) :
    replace replacement (a ++ c :: b) = replace replacement a ++ c :: replace replacement b := by
  have hgaps : ∀ c ∈ gaps, isNameChar c = false ∧ c ≠ '$' := forall_mem_gaps.mpr (by decide)
  obtain ⟨hname, hdollar⟩ := hgaps c hc
  unfold replace
  rw [pieces_append_cons hname, pieces_cons_of_ne hdollar, List.flatMap_append]
  rfl

theorem replace_nil (replacement : List Char) : replace replacement [] = [] := by
  simp [replace, pieces]

theorem placeholdersAsNull_append {a b : String} (h : Parted a b) :
    placeholdersAsNull (a ++ b) = placeholdersAsNull a ++ placeholdersAsNull b := by
  unfold placeholdersAsNull
  rw [String.toList_append, ← String.ofList_append]
  apply congrArg
  rcases h.cases with ha | hb | ⟨c, hc, ⟨cs, ha⟩ | ⟨cs, hb⟩⟩
  · rw [ha, replace_nil]
    rfl
  · rw [hb, replace_nil, List.append_nil, List.append_nil]
  · rw [ha, List.append_assoc, List.singleton_append, replace_append_gap hc,
      replace_append_gap hc, replace_nil, List.append_assoc]
    rfl
  · have hstart := replace_append_gap hc "NULL".toList [] cs
    rw [List.nil_append, replace_nil, List.nil_append] at hstart
    rw [hb, replace_append_gap hc, hstart]

theorem placeholdersAsNull_of_noDollar {s : String} (h : '$' ∉ s.toList) :
    placeholdersAsNull s = s := by
  have hreplace : ∀ cs : List Char, '$' ∉ cs → replace "NULL".toList cs = cs := by
    intro cs
    induction cs with
    | nil => intro _; exact replace_nil _
    | cons c cs ih =>
      intro hcs
      rw [List.mem_cons, not_or] at hcs
      rw [replace, pieces_cons_of_ne (Ne.symm hcs.1), List.flatMap_cons]
      exact congrArg (c :: ·) (ih hcs.2)
  rw [placeholdersAsNull, hreplace _ h, String.ofList_toList]

theorem noKeyword_append {a b : String} (h : Parted a b)
    (ha : writeKeyword? false a.toList = none) (hb : writeKeyword? false b.toList = none) :
    writeKeyword? false (a ++ b).toList = none := by
  rw [String.toList_append]
  rcases h.cases with hnil | hnil | ⟨c, hc, ⟨cs, hgap⟩ | ⟨cs, hgap⟩⟩
  · rwa [hnil]
  · rwa [hnil, List.append_nil]
  · rw [hgap] at ha ⊢
    rw [List.append_assoc, List.singleton_append]
    exact (writeKeyword?_append_gap hc _ _ _).mpr
      ⟨((writeKeyword?_append_gap hc _ _ _).mp ha).1, hb⟩
  · rw [hgap] at hb ⊢
    rw [← List.nil_append (c :: cs), writeKeyword?_append_gap hc] at hb
    exact (writeKeyword?_append_gap hc _ _ _).mpr ⟨ha, hb.2⟩

/-- A text that stays as it is when blanks and semicolons are taken from its ends, and in which no
keyword that writes stands. -/
structure Tidy (s : String) : Prop where
  first : ∃ c cs, s.toList = c :: cs ∧ Text.isBlank c = false
  last : ∃ cs c, s.toList = cs ++ [c] ∧ Text.isBlank c = false ∧ c ≠ ';'
  noKeyword : writeKeyword? false s.toList = none

namespace Sql

def startsFirm (s : String) : Bool := s.toList.head?.all (!Text.isBlank ·)

def endsFirm (s : String) : Bool := s.toList.getLast?.all fun c => !Text.isBlank c && c != ';'

/-- Whether a text holds neither a keyword that writes nor a placeholder. -/
def isHarmless (s : String) : Bool :=
  (writeKeyword? false s.toList).isNone && !s.toList.contains '$'

def standsAlone (s : String) : Bool := s != "" && startsFirm s && endsFirm s && isHarmless s

def encloses (before after : String) : Bool :=
  startsFirm before && endsInGap before && startsInGap after && endsFirm after &&
    isHarmless before && isHarmless after

def separates (s : String) : Bool := s != "" && startsInGap s && endsInGap s && isHarmless s

/-- Whether a production keeps what it puts side by side apart, and adds no harm. -/
def Shape.isTidy : Shape → Bool
  | .fixed _ s => standsAlone s
  | .around _ before _ after => encloses before after
  | .between _ _ text _ => separates text

theorem Production.isTidy {r : Shape} (h : Production r) : r.isTidy = true := by
  have hfixed : ∀ l ∈ [names, labels, constants, durations], ∀ s ∈ l, standsAlone s = true := by
    decide +kernel
  have hcalls : ∀ c ∈ calls, encloses c.1 c.2 = true := by decide +kernel
  have hends : ∀ s ∈ tests, encloses "" s = true := by decide +kernel
  have hjoins : ∀ s ∈ ["JOIN ", "LEFT JOIN ", "INNER JOIN "], encloses s "" = true := by
    decide +kernel
  have hbetween : ∀ s ∈ comparisons ++ lists.map (·.2.2) ++ clauses.map (·.2.2.1),
      separates s = true := by decide +kernel
  simp only [List.forall_mem_append, List.forall_mem_map, List.forall_mem_cons] at hbetween hfixed
  cases h with
  | name h => exact hfixed.1 _ h
  | label h => exact hfixed.2.1 _ h
  | constant h => exact hfixed.2.2.1 _ h
  | duration h => exact hfixed.2.2.2.1 _ h
  | call h => exact hcalls (_, _) h
  | comparison h => exact hbetween.1.1 _ h
  | test h => exact hends _ h
  | more h => exact hbetween.1.2 (_, _, _) h
  | join h => exact hjoins _ h
  | clause h => exact hbetween.2 (_, _, _, _) h
  | _ => rfl

theorem noKeyword_of_isHarmless {s : String} (h : isHarmless s = true) :
    writeKeyword? false s.toList = none := by
  rw [isHarmless, Bool.and_eq_true, Option.isNone_iff_eq_none] at h
  exact h.1

theorem placeholdersAsNull_of_isHarmless {s : String} (h : isHarmless s = true) :
    placeholdersAsNull s = s := by
  rw [isHarmless, Bool.and_eq_true, Bool.not_eq_true'] at h
  exact placeholdersAsNull_of_noDollar fun hmem => by simp [hmem] at h

end Sql

theorem Tidy.around {before s after : String} (hs : Tidy s)
    (hbefore : startsFirm before = true ∧ endsInGap before = true ∧ isHarmless before = true)
    (hafter : startsInGap after = true ∧ endsFirm after = true ∧ isHarmless after = true) :
    Tidy (before ++ s ++ after) where
  first := by
    obtain ⟨c, cs, hc, hblank⟩ := hs.first
    cases h : before.toList with
    | nil => exact ⟨c, cs ++ after.toList, by simp [h, hc], hblank⟩
    | cons d ds =>
      refine ⟨d, ds ++ s.toList ++ after.toList, by simp [h], ?_⟩
      simpa [startsFirm, h] using hbefore.1
  last := by
    obtain ⟨cs, c, hc, hfirm⟩ := hs.last
    rcases List.eq_nil_or_concat after.toList with h | ⟨ds, d, h⟩
    · exact ⟨before.toList ++ cs, c, by simp [h, hc], hfirm⟩
    · rw [List.concat_eq_append] at h
      refine ⟨before.toList ++ s.toList ++ ds, d, by simp [h], ?_⟩
      simpa [endsFirm, h] using hafter.2.1
  noKeyword :=
    noKeyword_append (.inr hafter.1)
      (noKeyword_append (.inl hbefore.2.1) (noKeyword_of_isHarmless hbefore.2.2) hs.noKeyword)
      (noKeyword_of_isHarmless hafter.2.2)

theorem startsInGap_append {a : String} (hne : a ≠ "") (h : startsInGap a = true) (b : String) :
    startsInGap (a ++ b) = true := by
  obtain ⟨c, cs, hc⟩ := List.exists_cons_of_ne_nil (mt String.toList_eq_nil_iff.mp hne)
  rw [startsInGap, String.toList_append, hc]
  simpa [startsInGap, hc] using h

theorem Tidy.between {s text t : String} (hs : Tidy s) (ht : Tidy t) (hne : text ≠ "")
    (hgaps : startsInGap text = true ∧ endsInGap text = true) (hharmless : isHarmless text = true) :
    Tidy (s ++ text ++ t) where
  first := by
    obtain ⟨c, cs, hc, hblank⟩ := hs.first
    exact ⟨c, cs ++ text.toList ++ t.toList, by simp [hc], hblank⟩
  last := by
    obtain ⟨cs, c, hc, hfirm⟩ := ht.last
    exact ⟨s.toList ++ text.toList ++ cs, c, by simp [hc], hfirm⟩
  noKeyword := by
    have hmore := noKeyword_append (.inl hgaps.2) (noKeyword_of_isHarmless hharmless) ht.noKeyword
    rw [String.append_assoc]
    exact noKeyword_append (.inr (startsInGap_append hne hgaps.1 t)) hs.noKeyword hmore

namespace Sql

variable {holes : String → Prop} {p : Part} {s : String}

theorem Derives.tidy (h : Derives holes p s) (hholes : ∀ t, holes t → Tidy t) : Tidy s := by
  induction h with
  | hole h => exact hholes _ h
  | @fixed p s h =>
    have hcheck := h.isTidy
    simp only [Shape.isTidy, standsAlone, Bool.and_eq_true, bne_iff_ne] at hcheck
    obtain ⟨⟨⟨hne, hstart⟩, hend⟩, hharmless⟩ := hcheck
    have hlist := mt String.toList_eq_nil_iff.mp hne
    obtain ⟨c, cs, hc⟩ := List.exists_cons_of_ne_nil hlist
    obtain ⟨ds, d, hd⟩ := (List.eq_nil_or_concat s.toList).resolve_left hlist
    rw [List.concat_eq_append] at hd
    refine ⟨⟨c, cs, hc, ?_⟩, ⟨ds, d, hd, ?_⟩, noKeyword_of_isHarmless hharmless⟩
    · simpa [startsFirm, hc] using hstart
    · simpa [endsFirm, hd] using hend
  | around h hs ih =>
    have hcheck := h.isTidy
    simp only [Shape.isTidy, encloses, Bool.and_eq_true] at hcheck
    obtain ⟨⟨⟨⟨⟨hfirm, hends⟩, hstarts⟩, hlast⟩, hbefore⟩, hafter⟩ := hcheck
    exact ih.around ⟨hfirm, hends, hbefore⟩ ⟨hstarts, hlast, hafter⟩
  | between h hs ht ihs iht =>
    have hcheck := h.isTidy
    simp only [Shape.isTidy, separates, Bool.and_eq_true, bne_iff_ne] at hcheck
    obtain ⟨⟨⟨hne, hstarts⟩, hends⟩, hharmless⟩ := hcheck
    exact ihs.between iht hne ⟨hstarts, hends⟩ hharmless

theorem Derives.null (h : Derives holes p s)
    (hholes : ∀ t, holes t → placeholdersAsNull t = "NULL") :
    Derives (· = "NULL") p (placeholdersAsNull s) := by
  induction h with
  | hole h => exact .hole (hholes _ h)
  | fixed h =>
    have hcheck := h.isTidy
    simp only [Shape.isTidy, standsAlone, Bool.and_eq_true] at hcheck
    rw [placeholdersAsNull_of_isHarmless hcheck.2]
    exact .fixed h
  | around h hs ih =>
    have hcheck := h.isTidy
    simp only [Shape.isTidy, encloses, Bool.and_eq_true] at hcheck
    obtain ⟨⟨⟨⟨⟨-, hends⟩, hstarts⟩, -⟩, hbefore⟩, hafter⟩ := hcheck
    rw [placeholdersAsNull_append (.inr hstarts), placeholdersAsNull_append (.inl hends),
      placeholdersAsNull_of_isHarmless hbefore, placeholdersAsNull_of_isHarmless hafter]
    exact .around h ih
  | @between p q r text s t h hs ht ihs iht =>
    have hcheck := h.isTidy
    simp only [Shape.isTidy, separates, Bool.and_eq_true, bne_iff_ne] at hcheck
    obtain ⟨⟨⟨hne, hstarts⟩, hends⟩, hharmless⟩ := hcheck
    have htext := startsInGap_append hne hstarts t
    rw [String.append_assoc, placeholdersAsNull_append (.inr htext),
      placeholdersAsNull_append (.inl hends), placeholdersAsNull_of_isHarmless hharmless,
      ← String.append_assoc]
    exact .between h ihs iht

/-- A placeholder whose name has an underscore, so that the name is no keyword. -/
def IsPlaceholder (s : String) : Prop := ∃ n, Nameable n ∧ '_' ∈ n.toList ∧ s = "$" ++ n

theorem isPlaceholder_ofList {c : Char} {r : List Char}
    (h : isNameStart c = true ∧ r.all isNameChar = true ∧ '_' ∈ c :: r) :
    IsPlaceholder ("$" ++ String.ofList (c :: r)) :=
  ⟨_, ⟨c, r, String.toList_ofList, h.1, h.2.1⟩, by rw [String.toList_ofList]; exact h.2.2, rfl⟩

theorem toList_dollar_append (n : String) : ("$" ++ n).toList = '$' :: n.toList := by
  rw [String.toList_append]
  exact congrArg (· ++ n.toList) String.toList_ofList

theorem IsPlaceholder.null (h : IsPlaceholder s) : placeholdersAsNull s = "NULL" := by
  obtain ⟨n, ⟨c, r, hn, hc, hr⟩, -, rfl⟩ := h
  have htake : r.takeWhile isNameChar = r := List.takeWhile_eq_self_iff.mpr (List.all_eq_true.mp hr)
  have hdrop : r.dropWhile isNameChar = [] := List.dropWhile_eq_nil_iff.mpr (List.all_eq_true.mp hr)
  have hpieces : pieces ('$' :: c :: r) = [.name (c :: r)] := by
    rw [pieces, if_pos hc, spanName, htake, hdrop, pieces]
  rw [placeholdersAsNull, toList_dollar_append, hn, replace, hpieces]
  simp

theorem IsPlaceholder.tidy (h : IsPlaceholder s) : Tidy s := by
  obtain ⟨n, ⟨c, r, hn, hc, hr⟩, hunderscore, rfl⟩ := h
  have hnames : ∀ d ∈ c :: r, isNameChar d = true := by
    intro d hd
    rcases List.mem_cons.mp hd with rfl | hd
    · simp [isNameChar, hc]
    · exact List.all_eq_true.mp hr d hd
  have hlist : ("$" ++ n).toList = '$' :: c :: r := by rw [toList_dollar_append, hn]
  obtain ⟨ds, d, hlast⟩ := (List.eq_nil_or_concat (c :: r)).resolve_left (List.cons_ne_nil _ _)
  rw [List.concat_eq_append] at hlast
  have hd : d ∈ c :: r := hlast ▸ List.mem_append_right _ (List.mem_singleton_self d)
  have hend := (isWord_of_isNameChar (hnames d hd)).2
  refine ⟨⟨'$', c :: r, hlist, by decide⟩, ⟨'$' :: ds, d, ?_, hend⟩, ?_⟩
  · rw [hlist, hlast]
    rfl
  · have hat : writeKeywordAt? ('$' :: c :: r) = none := by
      have hfirst : ∀ w ∈ writeKeywords, w.toList ≠ [] ∧ w.toList.head? ≠ some '$' := by decide
      rw [writeKeywordAt?_eq_none_iff]
      rintro w hw ⟨rest, hdrop, -⟩
      obtain ⟨_ | ⟨e, front⟩, hsplit, hfront⟩ := eq_append_of_dropWord? hdrop
      · exact (hfirst w hw).1 hfront.symm
      · obtain ⟨rfl, -⟩ := List.cons.inj hsplit
        exact (hfirst w hw).2 (by rw [← hfront]; rfl)
    rw [hn] at hunderscore
    rw [hlist, writeKeyword?, hat]
    exact writeKeyword?_of_underscore (fun e he => (isWord_of_isNameChar (hnames e he)).1)
      hunderscore

end Sql

theorem Tidy.text {s : String} (h : Tidy s) :
    dropSemicolons (Text.trimChars s.toList) = s.toList := by
  obtain ⟨c, cs, hfirst, hblank⟩ := h.first
  obtain ⟨ds, d, hlast, hfirm, hsemicolon⟩ := h.last
  have htrim : Text.trimChars s.toList = s.toList := by
    apply Text.trimChars_eq_self
    · intro x hx
      rw [hfirst] at hx
      cases hx
      exact hblank
    · intro x hx
      rw [hlast, List.getLast?_concat] at hx
      cases hx
      exact hfirm
  rw [htrim, dropSemicolons, hlast, List.reverse_concat,
    List.dropWhile_cons_of_neg (by simpa using hsemicolon)]
  simp

/-- The guard hands on every statement that the grammar derives. -/
theorem guard_of_derives {parse : Parser} (hparse : parse.ReadsQueries) {s : String}
    (h : Derives IsPlaceholder .statement s) : guard parse s = .ok s := by
  have htidy := h.tidy fun _ => IsPlaceholder.tidy
  obtain ⟨c, cs, hfirst, hblank⟩ := htidy.first
  refine guard_eq_ok_iff.mpr ⟨?_, htidy.text.symm, ?_, ?_⟩
  · intro hnil
    have := htidy.text
    rw [hnil, hfirst] at this
    cases this
  · exact (writeKeyword?_eq_none_iff false _).mp htidy.noKeyword
  · exact hparse _ (h.null fun _ => IsPlaceholder.null)

/-- What the texts of some parts start with. -/
def Sql.Part.openings : Part → List String
  | .selected | .sourced | .joined | .filtered | .grouped | .held | .union | .rows => ["SELECT "]
  | .front => ["WITH "]
  | .statement => ["SELECT ", "WITH "]
  | _ => []

/-- Whether a production keeps the openings of its parts. -/
def Sql.Shape.isOpened : Shape → Bool
  | .fixed p _ => p.openings.isEmpty
  | .around p before q _ =>
      p.openings.isEmpty || p.openings.any (·.toList.isPrefixOf before.toList) ||
      before == "" && !q.openings.isEmpty && q.openings.all (p.openings.contains ·)
  | .between p q _ _ => p.openings.isEmpty ||
      !q.openings.isEmpty && q.openings.all (p.openings.contains ·)

namespace Sql

theorem Production.isOpened {r : Shape} (h : Production r) : r.isOpened = true := by
  have hlists : ∀ l ∈ lists, (Shape.same l.1 l.2.1).isOpened = true ∧
      (Shape.between l.1 l.2.1 l.2.2 l.1).isOpened = true := by
    decide
  have hclauses : ∀ c ∈ clauses, (Shape.same c.1 c.2.1).isOpened = true ∧
      (Shape.between c.1 c.2.1 c.2.2.1 c.2.2.2).isOpened = true := by
    decide
  cases h with
  | first h => exact (hlists (_, _, _) h).1
  | more h => exact (hlists (_, _, _) h).2
  | without h => exact (hclauses (_, _, _, _) h).1
  | clause h => exact (hclauses (_, _, _, _) h).2
  | select | sourceOnly | front => decide
  | _ => rfl

theorem Derives.opens {holes : String → Prop} {p : Part} {s : String} (h : Derives holes p s)
    (hp : p.openings ≠ []) : ∃ w ∈ p.openings, w.toList <+: s.toList := by
  induction h with
  | hole h => exact absurd rfl hp
  | fixed h => exact absurd (List.isEmpty_iff.mp h.isOpened) hp
  | @around p q before after s h hs ih =>
    have hcheck := h.isOpened
    simp only [Shape.isOpened, Bool.or_eq_true, Bool.and_eq_true, List.isEmpty_iff, hp, false_or,
      List.any_eq_true, List.isPrefixOf_iff_prefix, beq_iff_eq, Bool.not_eq_true',
      List.isEmpty_eq_false_iff, List.all_eq_true, List.contains_iff_mem] at hcheck
    rcases hcheck with ⟨w, hw, hprefix⟩ | ⟨⟨rfl, hq⟩, hall⟩
    · refine ⟨w, hw, hprefix.trans ?_⟩
      simp [String.append_assoc]
    · obtain ⟨w, hw, hprefix⟩ := ih hq
      refine ⟨w, hall w hw, hprefix.trans ?_⟩
      simp
  | @between p q r text s t h hs ht ih _ =>
    have hcheck := h.isOpened
    simp only [Shape.isOpened, Bool.or_eq_true, Bool.and_eq_true, List.isEmpty_iff, hp, false_or,
      Bool.not_eq_true', List.isEmpty_eq_false_iff, List.all_eq_true,
      List.contains_iff_mem] at hcheck
    obtain ⟨hq, hall⟩ := hcheck
    obtain ⟨w, hw, hprefix⟩ := ih hq
    refine ⟨w, hall w hw, hprefix.trans ?_⟩
    simp [String.append_assoc]

theorem readsQueries_byOpening : Parser.ReadsQueries byOpening := by
  intro s h
  obtain ⟨w, hw, hprefix⟩ := h.opens (by decide)
  have hopens : ["SELECT ", "WITH "].any (·.toList.isPrefixOf s.toList) = true :=
    List.any_eq_true.mpr ⟨w, hw, List.isPrefixOf_iff_prefix.mpr hprefix⟩
  exact ⟨_, if_pos hopens, rfl⟩

end Sql

end Funnel
