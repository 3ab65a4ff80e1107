import Funnel.Filter.Standard
import Funnel.Proofs.Named
import Funnel.Proofs.Query.Placeholders

/-!
# Standard conditions written out

The texts of the standard conditions depend on the table, on its qualifier and on how many people a
request names; the days, the account and the identifiers are only bound. Both the texts and the
parameters are given in full here, so that no later proof has to add conditions one by one.
-/

set_option autoImplicit false

namespace Funnel

namespace Applied

theorem sql_addAll (a : Applied) (cs : List Filtering) :
    (a.addAll cs).sql = a.sql ++ cs.map Filtering.render := by
  unfold addAll
  induction cs generalizing a with
  | nil => simp
  | cons c cs ih =>
    rw [List.foldl_cons, ih, sql_add, List.map_cons, List.append_assoc, List.singleton_append]

theorem params_addAll (a : Applied) (cs : List Filtering) :
    (a.addAll cs).params = Named.putAll a.params (cs.flatMap Filtering.bindings) := by
  unfold addAll
  induction cs generalizing a with
  | nil => rfl
  | cons c cs ih =>
    rw [List.foldl_cons, ih, List.flatMap_cons]
    simp only [add, Named.putAll, List.foldl_append]

end Applied

/-- How many reps and setters a request names. -/
structure Headcount where
  reps : Nat
  setters : Nat

def Filters.headcount (f : Filters) : Headcount :=
  ⟨(Identifier.kept f.repIds).length, (Identifier.kept f.setterIds).length⟩

namespace Standard

def equality (column name : String) : String := column ++ " = $" ++ name

def membership (column name : String) (count : Nat) : String :=
  column ++ " IN (" ++ ", ".intercalate ((List.range count).map fun i => "$" ++ numbered name i) ++
    ")"

/-- The texts that narrow a column to some people, by how many they are. -/
def personTexts (column single many : String) : (count : Nat) → List String
  | 0 => []
  | 1 => [equality column single]
  | n + 2 => [membership column many (n + 2)]

/-- The texts that narrow a table to some reps and some setters; a table without the column of one
kind is not narrowed to it. -/
def userTexts (t : Table) (qualifier : Option String) (n : Headcount) : List String :=
  (t.repColumn.toList.flatMap fun c =>
    personTexts (qualify c qualifier) "rep_user_id" "rep_user_ids" n.reps) ++
  t.setterColumn.toList.flatMap fun c =>
    personTexts (qualify c qualifier) "setter_user_id" "setter_user_ids" n.setters

def accountTexts (t : Table) (qualifier : Option String) : List String :=
  [dayExpression t qualifier ++ " >= $start_date::date",
    dayExpression t qualifier ++ " <= $end_date::date",
    equality (qualify "account_id" qualifier) "account_id"]

def texts (t : Table) (qualifier : Option String) (narrowed : Bool) (n : Headcount) :
    List String :=
  accountTexts t qualifier ++ if narrowed then userTexts t qualifier n else []

theorem render_compare (field symbol : String) (v : Value) (param : String) :
    Filtering.render ⟨field, .compare symbol, v, param, none⟩ =
      field ++ (" " ++ symbol ++ " $") ++ param := by
  rw [← String.toList_inj]
  simp [Filtering.render, Filtering.reference]

theorem render_compare_date (field symbol : String) (v : Value) (param : String) :
    Filtering.render ⟨field, .compare symbol, v, param, some "date"⟩ =
      field ++ (" " ++ symbol ++ " $" ++ param ++ "::date") := by
  rw [← String.toList_inj]
  simp [Filtering.render, Filtering.reference]

theorem render_oneOf (field : String) (ids : List String) (param : String) :
    Filtering.render ⟨field, .oneOf, .list (ids.map .text), param, none⟩ =
      membership field param ids.length := by
  simp only [Filtering.render, Filtering.bindings, Filtering.values, Value.entries, membership]
  rw [Except.toOption, Option.getD_some, names_numberedValues, List.map_map, List.length_map]
  rfl

theorem people_none (qualifier : Option String) (tokens : List String) (single many : String) :
    people none qualifier tokens single many = [] := by
  unfold people
  split <;> simp_all

theorem people_some (column : String) (qualifier : Option String) (tokens : List String)
    (single many : String) :
    people (some column) qualifier tokens single many =
      match Identifier.kept tokens with
      | [] => []
      | ids => [personCondition (qualify column qualifier) ids single many] := by
  unfold people
  cases Identifier.kept tokens <;> rfl

theorem render_people (column : Option String) (qualifier : Option String) (tokens : List String)
    (single many : String) :
    (people column qualifier tokens single many).map Filtering.render =
      column.toList.flatMap fun c =>
        personTexts (qualify c qualifier) single many (Identifier.kept tokens).length := by
  cases column with
  | none => rw [people_none]; rfl
  | some column =>
    rw [people_some]
    match Identifier.kept tokens with
    | [] => rfl
    | [id] =>
      simp only [personCondition, List.map_cons, List.map_nil, render_compare]
      rfl
    | id :: other :: ids =>
      simp only [personCondition, List.map_cons, List.map_nil]
      rw [← List.map_cons, ← List.map_cons, render_oneOf]
      rfl

theorem sql_users (f : Filters) (t : Table) (qualifier : Option String) :
    (users f t qualifier).sql = userTexts t qualifier f.headcount := by
  rw [users, Applied.sql_addAll, userConditions, List.map_append, render_people, render_people]
  rfl

theorem sql_conditions (f : Filters) (start finish : Calendar.Date) (t : Table)
    (qualifier : Option String) (narrowed : Bool) :
    (conditions f start finish t qualifier narrowed).sql =
      texts t qualifier narrowed f.headcount := by
  have haccount : (accountConditions f start finish t qualifier).map Filtering.render =
      accountTexts t qualifier := by
    simp only [accountConditions, List.map_cons, List.map_nil, render_compare,
      render_compare_date]
    rfl
  rw [conditions, Applied.sql_addAll, List.map_append, haccount, texts]
  cases narrowed with
  | false => rfl
  | true =>
    rw [if_pos rfl, if_pos rfl, userConditions, List.map_append, render_people, render_people]
    rfl

/-- The parameters that some people are bound to: one under its own name, several under numbered
names. -/
def personFields (single many : String) : (ids : List String) → Fields
  | [] => []
  | [id] => [(single, .text id)]
  | id :: other :: ids => numberedValues many ((id :: other :: ids).map .text)

def personNames (single many : String) : (count : Nat) → List String
  | 0 => []
  | 1 => [single]
  | n + 2 => (List.range (n + 2)).map (numbered many)

def userFields (f : Filters) (t : Table) : Fields :=
  (t.repColumn.toList.flatMap fun _ =>
    personFields "rep_user_id" "rep_user_ids" (Identifier.kept f.repIds)) ++
  t.setterColumn.toList.flatMap fun _ =>
    personFields "setter_user_id" "setter_user_ids" (Identifier.kept f.setterIds)

def accountFields (f : Filters) (start finish : Calendar.Date) : Fields :=
  [("start_date", .text start.iso), ("end_date", .text finish.iso),
    ("account_id", accountValue f)]

theorem names_personFields (single many : String) (ids : List String) :
    (personFields single many ids).names = personNames single many ids.length := by
  match ids with
  | [] => rfl
  | [id] => rfl
  | id :: other :: ids =>
    rw [personFields, names_numberedValues, List.length_map]
    rfl

theorem bindings_people (column : Option String) (qualifier : Option String)
    (tokens : List String) (single many : String) :
    (people column qualifier tokens single many).flatMap Filtering.bindings =
      column.toList.flatMap fun _ => personFields single many (Identifier.kept tokens) := by
  cases column with
  | none => rw [people_none]; rfl
  | some column =>
    rw [people_some]
    match Identifier.kept tokens with
    | [] => rfl
    | [id] => rfl
    | id :: other :: ids =>
      simp [personCondition, Filtering.bindings, Filtering.values, Value.entries,
        Except.toOption, personFields]

theorem bindings_userConditions (f : Filters) (t : Table) (qualifier : Option String) :
    (userConditions f t qualifier).flatMap Filtering.bindings = userFields f t := by
  rw [userConditions, List.flatMap_append, bindings_people, bindings_people, userFields]

theorem take_numbered {name : String} (h : 3 ≤ name.toList.length) (i : Nat) :
    (numbered name i).toList.take 3 = name.toList.take 3 := by
  rw [numbered, String.toList_append, String.toList_append, List.append_assoc,
    List.take_append_of_le_length h]

theorem take_of_mem_personNames {single many : String} (hlen : 3 ≤ many.toList.length)
    (hsame : single.toList.take 3 = many.toList.take 3) {count : Nat} {n : String}
    (h : n ∈ personNames single many count) : n.toList.take 3 = many.toList.take 3 := by
  match count, h with
  | 1, h =>
    rw [List.mem_singleton.mp h, hsame]
  | k + 2, h =>
    obtain ⟨i, -, rfl⟩ := List.mem_map.mp h
    exact take_numbered hlen i

theorem nodup_personNames (single many : String) (count : Nat) :
    (personNames single many count).Nodup := by
  match count with
  | 0 => exact List.nodup_nil
  | 1 => simp [personNames]
  | n + 2 =>
    rw [personNames, List.Nodup, List.pairwise_map]
    exact List.nodup_range.imp fun hij h => hij (Placeholder.numbered_injective h)

def repNames (t : Table) (reps : Nat) : List String :=
  t.repColumn.toList.flatMap fun _ => personNames "rep_user_id" "rep_user_ids" reps

def setterNames (t : Table) (setters : Nat) : List String :=
  t.setterColumn.toList.flatMap fun _ => personNames "setter_user_id" "setter_user_ids" setters

theorem names_flatMap_personFields (column : Option String) (single many : String)
    (ids : List String) :
    Named.names (column.toList.flatMap fun _ => personFields single many ids) =
      column.toList.flatMap fun _ => personNames single many ids.length := by
  cases column with
  | none => rfl
  | some column =>
    rw [Option.toList_some, List.flatMap_singleton, List.flatMap_singleton, names_personFields]

theorem names_userFields (f : Filters) (t : Table) :
    (userFields f t).names = repNames t (Identifier.kept f.repIds).length ++
      setterNames t (Identifier.kept f.setterIds).length := by
  rw [userFields, Named.names_append, names_flatMap_personFields, names_flatMap_personFields]
  rfl

theorem take_of_mem_repNames {t : Table} {reps : Nat} {n : String} (h : n ∈ repNames t reps) :
    n.toList.take 3 = ['r', 'e', 'p'] := by
  obtain ⟨_, _, hn⟩ := List.mem_flatMap.mp h
  exact take_of_mem_personNames (by decide) (by decide) hn

theorem take_of_mem_setterNames {t : Table} {setters : Nat} {n : String}
    (h : n ∈ setterNames t setters) : n.toList.take 3 = ['s', 'e', 't'] := by
  obtain ⟨_, _, hn⟩ := List.mem_flatMap.mp h
  exact take_of_mem_personNames (by decide) (by decide) hn

theorem nodup_repNames (t : Table) (reps : Nat) : (repNames t reps).Nodup := by
  unfold repNames
  cases t.repColumn with
  | none => exact List.nodup_nil
  | some c => simpa using nodup_personNames _ _ reps

theorem nodup_setterNames (t : Table) (setters : Nat) : (setterNames t setters).Nodup := by
  unfold setterNames
  cases t.setterColumn with
  | none => exact List.nodup_nil
  | some c => simpa using nodup_personNames _ _ setters

theorem nodup_names_userFields (f : Filters) (t : Table) : (userFields f t).names.Nodup := by
  rw [names_userFields, List.nodup_append]
  refine ⟨nodup_repNames t _, nodup_setterNames t _, ?_⟩
  rintro a ha b hb rfl
  have := (take_of_mem_repNames ha).symm.trans (take_of_mem_setterNames hb)
  exact absurd this (by decide)

theorem nodup_names_fields (f : Filters) (start finish : Calendar.Date) (t : Table) :
    (accountFields f start finish ++ userFields f t).names.Nodup := by
  rw [Named.names_append, List.nodup_append]
  refine ⟨by simp [accountFields, Named.names], nodup_names_userFields f t, ?_⟩
  have hfixed : ∀ a ∈ ["start_date", "end_date", "account_id"],
      a.toList.take 3 ≠ ['r', 'e', 'p'] ∧ a.toList.take 3 ≠ ['s', 'e', 't'] := by decide
  rintro a ha b hb rfl
  rw [names_userFields] at hb
  rcases List.mem_append.mp hb with hb | hb
  · exact (hfixed a ha).1 (take_of_mem_repNames hb)
  · exact (hfixed a ha).2 (take_of_mem_setterNames hb)

theorem params_users (f : Filters) (t : Table) (qualifier : Option String) :
    (users f t qualifier).params = userFields f t := by
  rw [users, Applied.params_addAll, bindings_userConditions]
  exact Named.putAll_eq_append (nodup_names_userFields f t)

theorem params_conditions (f : Filters) (start finish : Calendar.Date) (t : Table)
    (qualifier : Option String) (narrowed : Bool) :
    (conditions f start finish t qualifier narrowed).params = accountFields f start finish ++
      if narrowed then userFields f t else [] := by
  have haccount : (accountConditions f start finish t qualifier).flatMap Filtering.bindings =
      accountFields f start finish := rfl
  have hnodup := nodup_names_fields f start finish t
  rw [conditions, Applied.params_addAll, List.flatMap_append, haccount]
  cases narrowed with
  | false => rfl
  | true =>
    rw [if_pos rfl, if_pos rfl, bindings_userConditions]
    exact Named.putAll_eq_append hnodup

end Standard

end Funnel
