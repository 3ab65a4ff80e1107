import Funnel.Proofs.Filter.Conjuncts
import Funnel.Proofs.Query.Phrases

/-!
# Standard conditions as phrases

The standard conditions of a query are conditions of the grammar: the two days and the account, and
the people that the query is narrowed to, however many they are.
-/

set_option autoImplicit false

namespace Funnel

open Sql

structure Table.Legible (t : Table) (qualifier : Option String) : Prop where
  account : Readable .value (qualify "account_id" qualifier)
  day : Readable .value (qualify t.dateColumn qualifier)
  rep : ∀ c ∈ t.repColumn, Readable .value (qualify c qualifier)
  setter : ∀ c ∈ t.setterColumn, Readable .value (qualify c qualifier)

theorem readable_qualify {column : String} {qualifier : Option String} (h : column ∈ Sql.names)
    (hq : ∀ a ∈ qualifier, a ∈ Sql.names) : Readable .value (qualify column qualifier) := by
  unfold qualify
  split
  · exact readable_column h
  · exact readable_column h
  · exact readable_member (hq _ rfl) h

def Table.boundColumns (t : Table) : List String :=
  "account_id" :: t.dateColumn :: (t.repColumn.toList ++ t.setterColumn.toList)

theorem Table.legible {t : Table} (ht : t ∈ all) {qualifier : Option String}
    (hq : ∀ a ∈ qualifier, a ∈ Sql.names) : t.Legible qualifier := by
  have hnames : ∀ t ∈ all, ∀ c ∈ t.boundColumns, c ∈ Sql.names := by decide +kernel
  have h := hnames t ht
  simp only [boundColumns, List.forall_mem_cons, List.forall_mem_append, Option.mem_toList] at h
  obtain ⟨haccount, hday, hrep, hsetter⟩ := h
  exact ⟨readable_qualify haccount hq, readable_qualify hday hq,
    fun c hc => readable_qualify (hrep c hc) hq, fun c hc => readable_qualify (hsetter c hc) hq⟩

theorem Table.legible_plain {t : Table} (ht : t ∈ all) : t.Legible none := legible ht nofun

theorem Table.legible_contacts : contacts.Legible (some "c") :=
  legible (by decide) (by simp [Sql.names])

theorem Table.legible_dials : dials.Legible (some "d") :=
  legible (by decide) (by simp [Sql.names])

theorem Table.legible_appointments : appointments.Legible (some "a") :=
  legible (by decide) (by simp [Sql.names])

namespace Standard

theorem isPlaceholder_account : IsPlaceholder ("$" ++ "account_id") :=
  isPlaceholder_ofList (by decide)

theorem isPlaceholder_numbered {name : String} (h : Placeholder.Nameable name) (i : Nat) :
    IsPlaceholder ("$" ++ numbered name i) := by
  have hunderscore : '_' ∈ "_".toList := by decide
  refine ⟨_, Placeholder.nameable_numbered h i, ?_, rfl⟩
  rw [numbered, String.toList_append, String.toList_append]
  exact List.mem_append_left _ (List.mem_append_right _ hunderscore)

theorem readable_equality {column n : String} (hc : Readable .value column)
    (hn : IsPlaceholder ("$" ++ n)) : Readable .condition (equality column n) := by
  have htext : equality column n = column ++ " = " ++ ("$" ++ n) := by
    rw [← String.toList_inj]
    simp [equality]
  rw [htext]
  exact readable_equals hc (readable_unknown hn)

theorem readable_membership {column name : String} (hc : Readable .value column)
    (hn : Placeholder.Nameable name) (count : Nat) :
    Readable .condition (membership column name (count + 1)) := by
  rw [membership, List.range_succ_eq_map, List.map_cons]
  refine readable_among hc fun q hq => ?_
  rw [← List.map_cons (f := fun i => "$" ++ numbered name i), ← List.range_succ_eq_map] at hq
  obtain ⟨i, -, rfl⟩ := List.mem_map.mp hq
  exact isPlaceholder_numbered hn i

theorem readable_of_mem_personTexts {column single many : String} (hc : Readable .value column)
    (hs : IsPlaceholder ("$" ++ single)) (hm : Placeholder.Nameable many) {count : Nat} :
    ∀ s ∈ personTexts column single many count, Readable .condition s := by
  intro s hs'
  match count, hs' with
  | 1, h =>
    rw [List.mem_singleton.mp h]
    exact readable_equality hc hs
  | k + 2, h =>
    rw [List.mem_singleton.mp h]
    exact readable_membership hc hm (k + 1)

theorem readable_of_mem_userTexts {t : Table} {qualifier : Option String}
    (h : t.Legible qualifier) (n : Headcount) :
    ∀ s ∈ userTexts t qualifier n, Readable .condition s := by
  have hrep : IsPlaceholder ("$" ++ "rep_user_id") := isPlaceholder_ofList (by decide)
  have hsetter : IsPlaceholder ("$" ++ "setter_user_id") := isPlaceholder_ofList (by decide)
  intro s hs
  rcases List.mem_append.mp hs with hs | hs
  · obtain ⟨c, hc, hs⟩ := List.mem_flatMap.mp hs
    exact readable_of_mem_personTexts (h.rep c (Option.mem_toList.mp hc)) hrep
      param_reps.nameable s hs
  · obtain ⟨c, hc, hs⟩ := List.mem_flatMap.mp hs
    exact readable_of_mem_personTexts (h.setter c (Option.mem_toList.mp hc)) hsetter
      param_setters.nameable s hs

def zoneQuery : Select := .simple ["business_timezone"] "accounts" [.sql "id = $account_id"]

theorem readable_ownAccount : Readable .condition "id = $account_id" := by
  have hid : Readable .value "id" := readable_column (by decide)
  exact readable_equality hid isPlaceholder_account

theorem readable_zoneQuery : Readable .rows zoneQuery.render := by
  have hzone : Readable .column "business_timezone" :=
    readable_output (readable_column (by decide))
  have hsource : Readable .source "accounts" := readable_source (by decide)
  refine readable_rows ⟨?_, hsource, nofun, ?_, nofun, nofun, nofun⟩
  · simpa using hzone
  · simpa [Condition.render] using readable_ownAccount

theorem readable_accountZone : Readable .value accountZone := by
  have htext : accountZone = "COALESCE(" ++ ("(" ++ zoneQuery.render ++ ")") ++ ", 'UTC')" := by
    decide +kernel
  rw [htext]
  exact readable_call (by decide) (.same .found (.around .subquery readable_zoneQuery))

theorem readable_dayExpression {t : Table} {qualifier : Option String}
    (h : t.Legible qualifier) : Readable .value (dayExpression t qualifier) := by
  unfold dayExpression
  cases t.dateKind with
  | «local» => exact h.day
  | date => exact h.day
  | timestamp =>
    have hzoned := Derives.between .zoned h.day readable_accountZone
    have hday := Derives.followed .date (.around .enclosed hzoned)
    have htext : ")::date" = ")" ++ "::date" := by decide
    rw [htext]
    simpa only [String.append_assoc] using hday

theorem readable_bound {s symbol n : String} (hs : Readable .value s)
    (hsymbol : symbol ∈ comparisons) (hn : IsPlaceholder ("$" ++ n)) :
    Readable .condition (s ++ (symbol ++ (("$" ++ n) ++ "::date"))) := by
  rw [← String.append_assoc]
  exact readable_compared hs (.followed .date (readable_unknown hn)) hsymbol

theorem readable_of_mem_accountTexts {t : Table} {qualifier : Option String}
    (h : t.Legible qualifier) : ∀ s ∈ accountTexts t qualifier, Readable .condition s := by
  have hday := readable_dayExpression h
  have hstart : IsPlaceholder ("$" ++ "start_date") := isPlaceholder_ofList (by decide)
  have hend : IsPlaceholder ("$" ++ "end_date") := isPlaceholder_ofList (by decide)
  simp only [accountTexts, List.forall_mem_cons]
  refine ⟨?_, ?_, ?_, List.forall_mem_nil _⟩
  · exact readable_bound hday (show " >= " ∈ comparisons by decide) hstart
  · exact readable_bound hday (show " <= " ∈ comparisons by decide) hend
  · exact readable_equality h.account isPlaceholder_account

theorem readable_of_mem_texts {t : Table} {qualifier : Option String} (h : t.Legible qualifier)
    (narrowed : Bool) (n : Headcount) :
    ∀ s ∈ texts t qualifier narrowed n, Readable .condition s := by
  intro s hs
  rcases List.mem_append.mp hs with hs | hs
  · exact readable_of_mem_accountTexts h s hs
  · cases narrowed with
    | false => cases hs
    | true => exact readable_of_mem_userTexts h n s hs

end Standard

end Funnel
