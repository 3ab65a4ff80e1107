import Funnel.Proofs.Filter.Conjuncts

/-!
# Placeholders of the standard conditions

The standard conditions ask for the two days, the account and the people they are narrowed to. A
query that is made of them asks for just what is bound with them.
-/

set_option autoImplicit false

namespace Funnel

open Fragment

namespace Placeholder

theorem names_between {a b n : String} (ha : '$' ∉ a.toList) (hn : Nameable n)
    (hb : '$' ∉ b.toList) (hstarts : StartsApart b) : names (a ++ ("$" ++ n) ++ b) = [n] := by
  rw [names_append_of_startsApart _ hstarts, names_append_of_startsApart _ (startsApart_dollar n),
    names_of_no_dollar ha, names_of_no_dollar hb, names_dollar_append hn]
  rfl

theorem names_last {a n : String} (ha : '$' ∉ a.toList) (hn : Nameable n) :
    names (a ++ ("$" ++ n)) = [n] := by
  rw [names_append_of_startsApart _ (startsApart_dollar n), names_of_no_dollar ha,
    names_dollar_append hn]
  rfl

end Placeholder

namespace Standard

open Placeholder

theorem names_equality {column n : String} (hc : Plain column) (hn : Nameable n) :
    names (equality column n) = [n] := by
  have heq : equality column n = column ++ " = " ++ ("$" ++ n) := by
    rw [← String.toList_inj]
    simp [equality]
  have hleft : Plain (column ++ " = ") :=
    plain_append_of_startsApart hc (plain_ofList (by decide)) (startsApart_ofList (by decide))
  rw [heq, names_last hleft.noDollar hn]

theorem names_membership {column name : String} (hc : Plain column) (hn : Nameable name)
    (count : Nat) : names (membership column name count) =
      (List.range count).map (numbered name) := by
  have hnames : ∀ n ∈ (List.range count).map (numbered name), names ("$" ++ n) = [n] := by
    intro n h
    obtain ⟨i, -, rfl⟩ := List.mem_map.mp h
    exact names_dollar_append (nameable_numbered hn i)
  have hlist := flatMap_names_map hnames
  rw [List.map_map] at hlist
  rw [membership, splits_names.parenthesized _ _ (by decide),
    splits_names.intercalate (by decide), hc.names_eq_nil, List.nil_append]
  exact hlist

theorem flatMap_names_personTexts {column single many : String} (hc : Plain column)
    (hs : Nameable single) (hm : Nameable many) (count : Nat) :
    (personTexts column single many count).flatMap names = personNames single many count := by
  match count with
  | 0 => rfl
  | 1 => rw [personTexts, List.flatMap_singleton, names_equality hc hs]; rfl
  | n + 2 => rw [personTexts, List.flatMap_singleton, names_membership hc hm]; rfl

theorem flatMap_names_column {column : Option String} {qualifier : Option String}
    {single many : String} (hc : ∀ c ∈ column, Plain c) (hq : ∀ a ∈ qualifier, Plain a)
    (hs : Nameable single) (hm : Nameable many) (count : Nat) :
    (column.toList.flatMap fun c => personTexts (qualify c qualifier) single many count).flatMap
      names = column.toList.flatMap fun _ => personNames single many count := by
  cases column with
  | none => rfl
  | some c =>
    rw [Option.toList_some, List.flatMap_singleton, List.flatMap_singleton,
      flatMap_names_personTexts (plain_qualify (hc c rfl) hq) hs hm]

theorem flatMap_names_userTexts {t : Table} (ht : t.PlainTexts) {qualifier : Option String}
    (hq : ∀ a ∈ qualifier, Plain a) (n : Headcount) :
    (userTexts t qualifier n).flatMap names = repNames t n.reps ++ setterNames t n.setters := by
  rw [userTexts, List.flatMap_append,
    flatMap_names_column ht.repColumn hq param_rep.nameable param_reps.nameable,
    flatMap_names_column ht.setterColumn hq param_setter.nameable param_setters.nameable]
  rfl

theorem names_accountZone : names accountZone = ["account_id"] := by
  have hsplit : accountZone =
      "COALESCE((SELECT business_timezone FROM accounts WHERE id = " ++ ("$" ++ "account_id") ++
        "), 'UTC')" := rfl
  rw [hsplit]
  exact names_between (noDollar_ofList (by decide)) param_account.nameable
    (noDollar_ofList (by decide)) (startsApart_ofList (by decide))

theorem names_dayExpression {t : Table} (ht : t.PlainTexts) {qualifier : Option String}
    (hq : ∀ a ∈ qualifier, Plain a) :
    ∀ n ∈ names (dayExpression t qualifier), n = "account_id" := by
  have hc := plain_qualify ht.dateColumn hq
  have hopen : EndsApart "(" := endsApart_ofList (by decide)
  have hat : StartsApart " AT TIME ZONE " := startsApart_ofList (by decide)
  have hclose : StartsApart ")::date" := startsApart_ofList (by decide)
  have hends : EndsApart ("(" ++ qualify t.dateColumn qualifier ++ " AT TIME ZONE ") :=
    endsApart_append _ (endsApart_ofList (by decide))
  have hnone : '$' ∉ ("(" ++ qualify t.dateColumn qualifier ++ " AT TIME ZONE ").toList := by
    simp only [String.toList_append, List.mem_append, not_or]
    exact ⟨⟨noDollar_ofList (by decide), hc.noDollar⟩, noDollar_ofList (by decide)⟩
  intro n hn
  unfold dayExpression at hn
  split at hn
  · simp only at hn
    rw [names_append_of_startsApart _ hclose, names_append_of_endsApart hends,
      names_of_no_dollar hnone, names_accountZone, names_of_no_dollar (noDollar_ofList (by decide)),
      List.nil_append, List.append_nil] at hn
    exact List.mem_singleton.mp hn
  · rw [hc.names_eq_nil] at hn
    cases hn
  · rw [hc.names_eq_nil] at hn
    cases hn

theorem names_dayBound {a n : String} (ha : '$' ∉ a.toList) (hn : Param n) :
    names (a ++ ("$" ++ n) ++ "::date") = [n] :=
  names_between ha hn.nameable (noDollar_ofList (by decide)) (startsApart_ofList (by decide))

theorem mem_names_accountTexts {t : Table} (ht : t.PlainTexts) {qualifier : Option String}
    (hq : ∀ a ∈ qualifier, Plain a) (x : String) :
    x ∈ (accountTexts t qualifier).flatMap names ↔
      x ∈ ["start_date", "end_date", "account_id"] := by
  have hday := names_dayExpression ht hq x
  have haccount : Plain (qualify "account_id" qualifier) :=
    plain_qualify (plain_ofList (by decide)) hq
  have hfirst := names_append_of_startsApart (dayExpression t qualifier)
    (b := " >= $start_date::date") (startsApart_ofList (by decide))
  have hlast := names_append_of_startsApart (dayExpression t qualifier)
    (b := " <= $end_date::date") (startsApart_ofList (by decide))
  have hstart : names " >= $start_date::date" = ["start_date"] :=
    names_dayBound (a := " >= ") (n := "start_date") (noDollar_ofList (by decide))
      (param_ofList (by decide) (by decide) (by decide))
  have hend : names " <= $end_date::date" = ["end_date"] :=
    names_dayBound (a := " <= ") (n := "end_date") (noDollar_ofList (by decide))
      (param_ofList (by decide) (by decide) (by decide))
  simp only [accountTexts, List.flatMap_cons, List.flatMap_nil, hfirst, hlast, hstart, hend,
    names_equality haccount param_account.nameable, List.append_nil,
    List.mem_append, List.mem_cons, List.not_mem_nil, or_false]
  constructor
  · rintro ((h | h) | (h | h) | h)
    · exact .inr (.inr (hday h))
    · exact .inl h
    · exact .inr (.inr (hday h))
    · exact .inr (.inl h)
    · exact .inr (.inr h)
  · rintro (h | h | h)
    · exact .inl (.inr h)
    · exact .inr (.inl (.inr h))
    · exact .inr (.inr h)

theorem mem_names_texts {t : Table} (ht : t.PlainTexts) {qualifier : Option String}
    (hq : ∀ a ∈ qualifier, Plain a) (narrowed : Bool) (n : Headcount) (x : String) :
    x ∈ (texts t qualifier narrowed n).flatMap names ↔
      x ∈ ["start_date", "end_date", "account_id"] ∨
        narrowed = true ∧ x ∈ repNames t n.reps ++ setterNames t n.setters := by
  rw [texts, List.flatMap_append, List.mem_append, mem_names_accountTexts ht hq]
  cases narrowed with
  | true => rw [if_pos rfl, flatMap_names_userTexts ht hq]; simp
  | false => simp

end Standard

end Funnel
