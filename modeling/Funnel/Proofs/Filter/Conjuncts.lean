import Funnel.Proofs.Catalog.Texts
import Funnel.Proofs.Filter.Conditions

/-!
# Standard conditions as conjuncts

Every standard condition stands on its own between two ANDs: it offers no alternative and closes its
own parentheses. The only thing it may look up is the time zone of the account.
-/

set_option autoImplicit false

namespace Funnel

namespace Fragment

/-- A text that stands on its own between two ANDs. -/
def Conjunct (s : String) : Prop := Lacks "OR" s ∧ Balanced s

/-- The query that a text may hold: the account's own time zone. -/
def zoneLookup : String := "(SELECT business_timezone FROM accounts WHERE id = $account_id)"

/-- A text that looks nothing up, or only the time zone of the account. -/
def Modest (s : String) : Prop :=
  Lacks "SELECT" s ∨ ∃ before after, s = before ++ zoneLookup ++ after ∧
    Lacks "SELECT" before ∧ Lacks "SELECT" after

/-- A text that can be added to a WHERE clause without widening it. -/
def Narrows (s : String) : Prop := Conjunct s ∧ Modest s

theorem Bare.conjunct {s : String} (h : Bare s) : Conjunct s := ⟨h.noOr, h.balanced⟩

theorem Bare.modest {s : String} (h : Bare s) : Modest s := .inl h.noSelect

theorem Bare.narrows {s : String} (h : Bare s) : Narrows s := ⟨h.conjunct, h.modest⟩

theorem conjunct_append {a b : String} (ha : Conjunct a) (hb : Conjunct b) (h : StartsApart b) :
    Conjunct (a ++ b) :=
  ⟨lacks_append_of_startsApart ha.1 hb.1 h, balanced_append ha.2 hb.2⟩

theorem modest_append {a b : String} (ha : Modest a) (hb : Lacks "SELECT" b)
    (h : StartsApart b) : Modest (a ++ b) := by
  rcases ha with ha | ⟨before, after, rfl, hbefore, hafter⟩
  · exact .inl (lacks_append_of_startsApart ha hb h)
  · exact .inr ⟨before, after ++ b, String.append_assoc, hbefore,
      lacks_append_of_startsApart hafter hb h⟩

theorem append_modest {a b : String} (ha : Lacks "SELECT" a) (h : EndsApart a) (hb : Modest b) :
    Modest (a ++ b) := by
  rcases hb with hb | ⟨before, after, rfl, hbefore, hafter⟩
  · exact .inl (lacks_append_of_endsApart ha hb h)
  · refine .inr ⟨a ++ before, after, ?_, lacks_append_of_endsApart ha hbefore h, hafter⟩
    simp only [String.append_assoc]

/-- A name under which a value can be bound: its placeholder is quiet and has no parentheses. -/
structure Param (n : String) : Prop where
  nameable : Placeholder.Nameable n
  quiet : Quiet ("$" ++ n)

theorem balanced_dollar_append {n : String} (h : Placeholder.Nameable n) :
    Balanced ("$" ++ n) := by
  obtain ⟨c, r, hn, hc, hr⟩ := h
  apply balanced_of_no_parentheses
  intro x hx
  have hname : x = '$' ∨ Placeholder.isNameChar x = true := by
    rw [String.toList_append, hn] at hx
    rcases List.mem_cons.mp hx with rfl | hx
    · exact .inl rfl
    · rcases List.mem_cons.mp hx with rfl | hx
      · exact .inr (by simp [Placeholder.isNameChar, hc])
      · exact .inr (List.all_eq_true.mp hr x hx)
  constructor
  · rintro rfl
    exact absurd hname (by decide)
  · rintro rfl
    exact absurd hname (by decide)

theorem Param.bare {n : String} (h : Param n) : Bare ("$" ++ n) :=
  ⟨h.quiet, balanced_dollar_append h.nameable⟩

theorem startsApart_dollar (n : String) : StartsApart ("$" ++ n) :=
  startsApart_append (startsApart_ofList (by decide)) n

theorem param_ofList {c : Char} {r : List Char}
    (h : Placeholder.isNameStart c = true ∧ r.all Placeholder.isNameChar = true)
    (hor : (c :: r).map Char.toUpper ≠ ['O', 'R'])
    (hselect : (c :: r).map Char.toUpper ≠ ['S', 'E', 'L', 'E', 'C', 'T']) :
    Param (String.ofList (c :: r)) := by
  have hname : Placeholder.Nameable (String.ofList (c :: r)) :=
    ⟨c, r, String.toList_ofList, h⟩
  refine ⟨hname, quiet_dollar_append hname ?_ ?_⟩
  · rw [String.toList_ofList, String.toList_ofList]
    exact hor
  · rw [String.toList_ofList, String.toList_ofList]
    exact hselect

theorem Param.numbered {name : String} (h : Param name) (i : Nat) : Param (numbered name i) :=
  ⟨Placeholder.nameable_numbered h.nameable i, quiet_dollar_numbered h.nameable i⟩

end Fragment

open Fragment

namespace Standard

theorem param_account : Param "account_id" := param_ofList (by decide) (by decide) (by decide)

theorem param_rep : Param "rep_user_id" := param_ofList (by decide) (by decide) (by decide)

theorem param_reps : Param "rep_user_ids" := param_ofList (by decide) (by decide) (by decide)

theorem param_setter : Param "setter_user_id" := param_ofList (by decide) (by decide) (by decide)

theorem param_setters : Param "setter_user_ids" :=
  param_ofList (by decide) (by decide) (by decide)

theorem plain_qualify {column : String} {qualifier : Option String} (hc : Plain column)
    (hq : ∀ a ∈ qualifier, Plain a) : Plain (qualify column qualifier) := by
  unfold qualify
  split
  · exact hc
  · exact hc
  · rename_i a _
    have hdot : Plain "." := plain_ofList (by decide)
    refine plain_append_of_endsApart (plain_append_of_startsApart (hq a rfl) hdot ?_) hc ?_
    · exact startsApart_ofList (by decide)
    · exact endsApart_append a (endsApart_ofList (by decide))

theorem bare_equality {column n : String} (hc : Plain column) (hn : Param n) :
    Bare (equality column n) := by
  have hequals : Plain " = " := plain_ofList (by decide)
  have heq : equality column n = column ++ " = " ++ ("$" ++ n) := by
    rw [← String.toList_inj]
    simp [equality]
  have hleft : Plain (column ++ " = ") :=
    plain_append_of_startsApart hc hequals (startsApart_ofList (by decide))
  rw [heq]
  exact ⟨quiet_append_of_startsApart hleft.toQuiet hn.quiet (startsApart_dollar n),
    balanced_append hleft.balanced hn.bare.balanced⟩

theorem bare_membership {column name : String} (hc : Plain column) (hn : Param name)
    (count : Nat) : Bare (membership column name count) := by
  have hlist : ∀ x ∈ (List.range count).map fun i => "$" ++ numbered name i, Bare x := by
    intro x hx
    obtain ⟨i, -, rfl⟩ := List.mem_map.mp hx
    exact (hn.numbered i).bare
  have hquiet := quiet_intercalate (s := ", ") (by decide) fun x hx => (hlist x hx).toQuiet
  have hbalanced := balanced_intercalate (s := ", ") (by rfl) fun x hx => (hlist x hx).balanced
  have hempty : Balanced (column ++ " IN (" ++ ")") := by
    have hclosed : Balanced (" IN (" ++ ")") := by rfl
    rw [String.append_assoc]
    exact balanced_append hc.balanced hclosed
  refine ⟨⟨?_, ?_⟩, balanced_insert hempty hbalanced⟩
  · rw [Lacks, membership, splits_or.parenthesized _ _ (by decide), hc.noOr, hquiet.noOr]
    rfl
  · rw [Lacks, membership, cuts_select.parenthesized _ _ (by decide), hc.noSelect,
      hquiet.noSelect]
    rfl

theorem accountZone_eq : accountZone = "COALESCE(" ++ zoneLookup ++ ", 'UTC')" := by
  rw [← String.toList_inj, String.toList_append, String.toList_append, accountZone, zoneLookup,
    String.toList_ofList, String.toList_ofList, String.toList_ofList, String.toList_ofList]
  rfl

theorem conjunct_accountZone : Conjunct accountZone := by
  refine ⟨lacksOr_ofList (by decide), ?_⟩
  rw [Fragment.Balanced, accountZone, String.toList_ofList]
  decide

theorem narrows_dayExpression {t : Table} (ht : t.PlainTexts) {qualifier : Option String}
    (hq : ∀ a ∈ qualifier, Plain a) : Narrows (dayExpression t qualifier) := by
  have hc := plain_qualify ht.dateColumn hq
  unfold dayExpression
  split
  · generalize qualify t.dateColumn qualifier = column at hc
    have hopen : EndsApart "(" := endsApart_ofList (by decide)
    have hat : Plain " AT TIME ZONE " := plain_ofList (by decide)
    have hclose : StartsApart ")::date" := startsApart_ofList (by decide)
    have hstart : Plain (column ++ " AT TIME ZONE ") :=
      plain_append_of_startsApart hc hat (startsApart_ofList (by decide))
    have hends : EndsApart (column ++ " AT TIME ZONE ") :=
      endsApart_append column (endsApart_ofList (by decide))
    have hinner : Conjunct (column ++ " AT TIME ZONE " ++ accountZone) :=
      ⟨lacks_append_of_endsApart hstart.noOr conjunct_accountZone.1 hends,
        balanced_append hstart.balanced conjunct_accountZone.2⟩
    have hclosed : Balanced ("(" ++ ")::date") := by rfl
    refine ⟨⟨?_, ?_⟩, .inr ⟨"(" ++ column ++ " AT TIME ZONE " ++ "COALESCE(",
      ", 'UTC')" ++ ")::date", ?_, ?_, ?_⟩⟩
    · have := lacks_append_of_endsApart (lacksOr_ofList (by decide)) hinner.1 hopen
      have := lacks_append_of_startsApart this (lacksOr_ofList (by decide)) hclose
      simpa only [String.append_assoc] using this
    · have := balanced_insert hclosed hinner.2
      simpa only [String.append_assoc] using this
    · simp only [accountZone_eq, String.append_assoc]
    · have := lacks_append_of_endsApart (lacksSelect_ofList (by decide)) hstart.noSelect hopen
      have := lacks_append_of_endsApart (b := "COALESCE(") this (lacksSelect_ofList (by decide))
        (endsApart_append "(" hends)
      simpa only [String.append_assoc] using this
    · exact lacks_append_of_startsApart (lacksSelect_ofList (by decide))
        (lacksSelect_ofList (by decide)) hclose
  · exact hc.narrows
  · exact hc.narrows

theorem narrows_of_mem_accountTexts {t : Table} (ht : t.PlainTexts) {qualifier : Option String}
    (hq : ∀ a ∈ qualifier, Plain a) : ∀ s ∈ accountTexts t qualifier, Narrows s := by
  have hday := narrows_dayExpression ht hq
  have haccount : Plain (qualify "account_id" qualifier) :=
    plain_qualify (plain_ofList (by decide)) hq
  have hbound : ∀ {bound : String}, Quiet bound → Balanced bound → StartsApart bound →
      Narrows (dayExpression t qualifier ++ bound) := by
    intro bound hquiet hbalanced hstarts
    exact ⟨conjunct_append hday.1 ⟨hquiet.noOr, hbalanced⟩ hstarts,
      modest_append hday.2 hquiet.noSelect hstarts⟩
  intro s hs
  simp only [accountTexts, List.mem_cons, List.not_mem_nil, or_false] at hs
  rcases hs with rfl | rfl | rfl
  · exact hbound (quiet_ofList (by decide)) (by rfl) (startsApart_ofList (by decide))
  · exact hbound (quiet_ofList (by decide)) (by rfl) (startsApart_ofList (by decide))
  · exact (bare_equality haccount param_account).narrows

theorem bare_of_mem_personTexts {column single many : String} (hc : Plain column)
    (hs : Param single) (hm : Param many) (count : Nat) :
    ∀ s ∈ personTexts column single many count, Bare s := by
  intro s h
  match count, h with
  | 1, h =>
    rw [List.mem_singleton.mp h]
    exact bare_equality hc hs
  | n + 2, h =>
    rw [List.mem_singleton.mp h]
    exact bare_membership hc hm (n + 2)

theorem bare_of_mem_userTexts {t : Table} (ht : t.PlainTexts) {qualifier : Option String}
    (hq : ∀ a ∈ qualifier, Plain a) (n : Headcount) : ∀ s ∈ userTexts t qualifier n, Bare s := by
  intro s hs
  rcases List.mem_append.mp hs with hs | hs
  · obtain ⟨c, hc, hs⟩ := List.mem_flatMap.mp hs
    have hplain := plain_qualify (ht.repColumn c (Option.mem_toList.mp hc)) hq
    exact bare_of_mem_personTexts hplain param_rep param_reps n.reps s hs
  · obtain ⟨c, hc, hs⟩ := List.mem_flatMap.mp hs
    have hplain := plain_qualify (ht.setterColumn c (Option.mem_toList.mp hc)) hq
    exact bare_of_mem_personTexts hplain param_setter param_setters n.setters s hs

theorem plain_unqualified : ∀ a ∈ (none : Option String), Plain a := nofun

theorem narrows_of_mem_texts {t : Table} (ht : t.PlainTexts) {qualifier : Option String}
    (hq : ∀ a ∈ qualifier, Plain a) (narrowed : Bool) (n : Headcount) :
    ∀ s ∈ texts t qualifier narrowed n, Narrows s := by
  intro s hs
  rcases List.mem_append.mp hs with hs | hs
  · exact narrows_of_mem_accountTexts ht hq s hs
  · split at hs
    · exact (bare_of_mem_userTexts ht hq n s hs).narrows
    · simp at hs

theorem account_mem_texts (t : Table) (qualifier : Option String) (narrowed : Bool)
    (n : Headcount) : equality (qualify "account_id" qualifier) "account_id" ∈
      texts t qualifier narrowed n :=
  List.mem_append_left _ (by simp [accountTexts])

end Standard

end Funnel
