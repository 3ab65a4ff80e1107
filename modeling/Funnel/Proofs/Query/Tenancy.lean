import Funnel.Proofs.Filter.Conjuncts

/-!
# Queries held to one account

A table of the catalog may only be read where its rows are held to the account: by a conjunct of the
WHERE clause, or by a join on the account of a table that is so held. This is asked of every SELECT
inside a query, and the fragments of a query may not hide another one.
-/

set_option autoImplicit false

namespace Funnel

open Fragment Standard

mutual

def Select.selects : Select → List Select
  | .mk columns source joins conditions groups having order ctes =>
    .mk columns source joins conditions groups having order ctes ::
      (selectsOfCtes ctes ++ selectsOfConditions conditions)

def Condition.selects : Condition → List Select
  | .sql _ => []
  | .within _ query => query.selects

def Cte.selects : Cte → List Select
  | .mk _ body => body.selects

def CteBody.selects : CteBody → List Select
  | .one query => query.selects
  | .unionAll queries => selectsOfSelects queries

def selectsOfSelects : List Select → List Select
  | [] => []
  | q :: qs => q.selects ++ selectsOfSelects qs

def selectsOfConditions : List Condition → List Select
  | [] => []
  | c :: cs => c.selects ++ selectsOfConditions cs

def selectsOfCtes : List Cte → List Select
  | [] => []
  | c :: cs => c.selects ++ selectsOfCtes cs

end

theorem selectsOfConditions_sqlConditions (texts : List String) :
    selectsOfConditions (sqlConditions texts) = [] := by
  induction texts with
  | nil => rfl
  | cons s texts ih => exact ih

def Cte.name : Cte → String
  | .mk name _ => name

/-- A table that a query reads, and the name that qualifies its columns. -/
structure Reading where
  table : String
  qualifier : Option String

/-- The name that qualifies the columns of a table stands behind the table after a blank. -/
def Reading.ofText (s : String) : Reading :=
  ⟨String.ofList (s.toList.takeWhile (· ≠ ' ')),
    match s.toList.dropWhile (· ≠ ' ') with
    | [] => none
    | _ :: rest => some (String.ofList rest)⟩

/-- Tables whose rows belong to accounts: those of the catalog. -/
def tenantTables : List String := Table.all.map (·.name)

/-- Tables without rows of an account that only lead to others. -/
def sharedTables : List String := ["accounts", "account_access", "profiles"]

def seed : String := "(SELECT 1) AS seed"

namespace Select

def readings (q : Select) : List Reading :=
  Reading.ofText q.source :: q.joins.map fun j => Reading.ofText j.table

def conjuncts (q : Select) : List String := q.conditions.map Condition.render

/-- A conjunct holds a column of a table to the account. -/
def Holds (q : Select) (r : Reading) (column : String) : Prop :=
  equality (qualify column r.qualifier) "account_id" ∈ q.conjuncts

/-- A join that keeps only rows of the account of a table that is held to it. -/
def Follows (q : Select) (j : Join) : Prop :=
  j.kind ∈ [none, some "INNER", some "LEFT"] ∧
  ∃ r ∈ q.readings, q.Holds r "account_id" ∧ ∃ texts, j.on = " AND ".intercalate texts ∧
    (∀ s ∈ texts, Conjunct s) ∧
    qualify "account_id" (Reading.ofText j.table).qualifier ++ " = " ++
      qualify "account_id" r.qualifier ∈ texts

/-- A table is read for one account only. `joined` says whether it is joined to a table that is. -/
structure Guards (q : Select) (r : Reading) (joined : Prop) : Prop where
  tenant : r.table ∈ tenantTables → q.Holds r "account_id" ∨ joined
  access : r.table = "account_access" → q.Holds r "account_id"
  accounts : r.table = "accounts" → q.Holds r "id"

/-- A query by itself reads for one account only. `names` are the queries it can read by name. -/
structure Restricted (q : Select) (names : List String) : Prop where
  conjuncts : ∀ s ∈ q.conjuncts, Conjunct s
  apart : (q.readings.map (·.qualifier)).Nodup
  source : q.Guards (Reading.ofText q.source) False
  joins : ∀ j ∈ q.joins, q.Guards (Reading.ofText j.table) (q.Follows j)
  known : ∀ s ∈ q.source :: q.joins.map (·.table),
    s = seed ∨ (Reading.ofText s).table ∈ tenantTables ++ sharedTables ++ names

/-- Every query inside reads for one account only, and no fragment hides another query. -/
structure Isolated (q : Select) : Prop where
  selects : ∀ p ∈ q.selects, p.Restricted (q.ctes.map Cte.name)
  fragments : ∀ s ∈ q.fragments, s = seed ∨ Modest s

end Select

/-- A call whose query reads for one account only, and which binds that account. -/
structure Call.Isolated (account : Value) (c : Call) : Prop where
  query : c.query.Isolated
  account : c.params.find? "account_id" = some account

theorem ofText_ofList (cs : List Char) : Reading.ofText (String.ofList cs) =
    ⟨String.ofList (cs.takeWhile (· ≠ ' ')),
      match cs.dropWhile (· ≠ ' ') with
      | [] => none
      | _ :: rest => some (String.ofList rest)⟩ := by
  rw [Reading.ofText, String.toList_ofList]

example : Reading.ofText "dials d" = ⟨"dials", some "d"⟩ := ofText_ofList _

theorem ofText_name {t : Table} (h : t ∈ Table.all) : Reading.ofText t.name = ⟨t.name, none⟩ := by
  simp only [Table.all, List.mem_cons, List.not_mem_nil, or_false] at h
  rcases h with rfl | rfl | rfl | rfl | rfl | rfl <;> exact ofText_ofList _

theorem name_mem_tenantTables {t : Table} (h : t ∈ Table.all) : t.name ∈ tenantTables :=
  List.mem_map_of_mem h

theorem tenantTables_apart : ∀ s ∈ tenantTables, s ≠ "account_access" ∧ s ≠ "accounts" := by
  decide

namespace Select

theorem Guards.of_tenant {q : Select} {r : Reading} (hr : r.table ∈ tenantTables) {joined : Prop}
    (h : q.Holds r "account_id" ∨ joined) : q.Guards r joined where
  tenant := fun _ => h
  access := fun hr' => absurd hr' (tenantTables_apart _ hr).1
  accounts := fun hr' => absurd hr' (tenantTables_apart _ hr).2

theorem Guards.of_other {q : Select} {r : Reading}
    (hr : r.table ∉ tenantTables ++ ["account_access", "accounts"]) (joined : Prop) :
    q.Guards r joined := by
  simp only [List.mem_append, List.mem_cons, List.not_mem_nil, or_false, not_or] at hr
  exact ⟨fun h => absurd h hr.1, fun h => absurd h hr.2.1, fun h => absurd h hr.2.2⟩

theorem conjuncts_mk_sqlConditions (columns : List String) (source : String) (joins : List Join)
    (texts groups having order : List String) (ctes : List Cte) :
    (Select.mk columns source joins (sqlConditions texts) groups having order ctes).conjuncts =
      texts := by
  simp only [conjuncts, conditions, sqlConditions, List.map_map]
  exact List.map_id _

theorem restricted_of_guards {q : Select} {names : List String} (hjoins : q.joins = [])
    (hconjuncts : ∀ s ∈ q.conjuncts, Conjunct s)
    (hguards : q.Guards (Reading.ofText q.source) False)
    (hknown : q.source = seed ∨
      (Reading.ofText q.source).table ∈ tenantTables ++ sharedTables ++ names) :
    q.Restricted names where
  conjuncts := hconjuncts
  apart := by simp [readings, hjoins]
  source := hguards
  joins := by simp [hjoins]
  known := by
    intro s hs
    rw [hjoins, List.map_nil, List.mem_singleton] at hs
    rw [hs]
    exact hknown

theorem restricted_of_holds {q : Select} (hjoins : q.joins = [])
    (hconjuncts : ∀ s ∈ q.conjuncts, Conjunct s)
    (htenant : (Reading.ofText q.source).table ∈ tenantTables)
    (hholds : q.Holds (Reading.ofText q.source) "account_id") (names : List String) :
    q.Restricted names :=
  restricted_of_guards hjoins hconjuncts (.of_tenant htenant (.inl hholds))
    (.inr (List.mem_append_left _ (List.mem_append_left _ htenant)))

end Select

end Funnel
