import Funnel.Query.Select

/-!
# Reading a rendered query by its fragments

A way of reading a text that stops at every separator of SQL, and that finds nothing in a keyword,
reads of a rendered query exactly what it reads of the fragments it was made of. Placeholders and
words are read in such a way.
-/

set_option autoImplicit false

namespace Funnel

def separators : List String :=
  [" ", ", ", " AND ", " UNION ALL ", " JOIN ", " ON ", " AS (", " IN (", ")"]

def clauseWords : List String :=
  ["WITH", "SELECT", "FROM", "JOIN", "WHERE", "GROUP BY", "HAVING", "ORDER BY"]

def Join.fragments (j : Join) : List String := j.kind.toList ++ [j.table, j.on]

mutual

/-- The texts that a query is made of, in the order in which they are written out. -/
def Select.fragments : Select → List String
  | .mk columns source joins conditions groups having order ctes =>
    fragmentsOfCtes ctes ++ columns ++ [source] ++ joins.flatMap Join.fragments ++
      fragmentsOfConditions conditions ++ groups ++ having ++ order

def Condition.fragments : Condition → List String
  | .sql text => [text]
  | .within field query => field :: query.fragments

def Cte.fragments : Cte → List String
  | .mk name body => name :: body.fragments

def CteBody.fragments : CteBody → List String
  | .one query => query.fragments
  | .unionAll queries => fragmentsOfSelects queries

def fragmentsOfSelects : List Select → List String
  | [] => []
  | q :: qs => q.fragments ++ fragmentsOfSelects qs

def fragmentsOfConditions : List Condition → List String
  | [] => []
  | c :: cs => c.fragments ++ fragmentsOfConditions cs

def fragmentsOfCtes : List Cte → List String
  | [] => []
  | c :: cs => c.fragments ++ fragmentsOfCtes cs

end

theorem fragmentsOfConditions_sqlConditions (texts : List String) :
    fragmentsOfConditions (sqlConditions texts) = texts := by
  induction texts with
  | nil => rfl
  | cons s texts ih =>
    change s :: fragmentsOfConditions (sqlConditions texts) = s :: texts
    rw [ih]

/-- A reading of texts that stops at separators. -/
structure Cuts {β : Type} (F : String → List β) : Prop where
  cut : ∀ s ∈ separators, ∀ a b, F (a ++ s ++ b) = F a ++ F b
  empty : F "" = []

/-- A reading that also finds nothing in the words of clauses. -/
structure Splits {β : Type} (F : String → List β) : Prop extends Cuts F where
  clauseWord : ∀ k ∈ clauseWords, F k = []

namespace Cuts

variable {β : Type} {F : String → List β} (h : Cuts F)
include h

theorem intercalate {s : String} (hs : s ∈ separators) (xs : List String) :
    F (s.intercalate xs) = xs.flatMap F := by
  induction xs with
  | nil => simpa using h.empty
  | cons x xs ih =>
    cases xs with
    | nil => simp
    | cons y ys =>
      rw [String.intercalate_cons_cons, h.cut s hs, ih]
      simp only [List.flatMap_cons]

theorem parenthesized (before middle : String) {s : String} (hs : s ∈ separators) :
    F (before ++ s ++ middle ++ ")") = F before ++ F middle := by
  have hclose := h.cut ")" (by decide) (before ++ s ++ middle) ""
  rw [String.append_empty, h.empty, List.append_nil] at hclose
  rw [hclose, h.cut s hs]

end Cuts

namespace Splits

variable {β : Type} {F : String → List β} (h : Splits F)
include h

/-- What follows a word of a clause is all there is to read. -/
theorem afterWord {k : String} (hk : k ∈ clauseWords) (x : String) : F (k ++ " " ++ x) = F x := by
  rw [h.cut " " (by decide), h.clauseWord k hk, List.nil_append]

theorem join (j : Join) : F j.render = j.fragments.flatMap F := by
  unfold Join.render Join.fragments
  cases j.kind with
  | some kind =>
    rw [h.cut " ON " (by decide), h.cut " JOIN " (by decide)]
    simp
  | none =>
    have hjoin : "JOIN " ++ j.table = "JOIN" ++ " " ++ j.table := rfl
    rw [h.cut " ON " (by decide), hjoin, h.afterWord (by decide)]
    simp

theorem clause {keyword separator : String} (hk : keyword ∈ clauseWords)
    (hs : separator ∈ separators) (items : List String) :
    (Funnel.clause keyword separator items).flatMap F = items.flatMap F := by
  cases items with
  | nil => rfl
  | cons x xs =>
    rw [Funnel.clause, List.flatMap_singleton, h.afterWord hk, h.intercalate hs]
    simp

end Splits

section Render

variable {β : Type} {F : String → List β}

mutual

/-- Of a rendered query nothing is read but its fragments, one after the other. -/
theorem flatMap_fragments_select (h : Splits F) : ∀ q : Select, F q.render = q.fragments.flatMap F
  | .mk columns source joins conditions groups having order ctes => by
    have hselect : "SELECT " ++ ", ".intercalate columns =
        "SELECT" ++ " " ++ ", ".intercalate columns := rfl
    have hfrom : "FROM " ++ source = "FROM" ++ " " ++ source := rfl
    have hjoins : (joins.map Join.render).flatMap F = (joins.flatMap Join.fragments).flatMap F := by
      rw [List.flatMap_map, List.flatMap_assoc]
      exact congrArg (List.flatMap · joins) (funext h.join)
    rw [Select.render, Select.fragments, h.intercalate (by decide), hselect, hfrom]
    simp only [List.flatMap_append, List.flatMap_cons, List.flatMap_nil, List.append_nil]
    rw [h.clause (by decide) (by decide), h.clause (by decide) (by decide),
      h.clause (by decide) (by decide), h.clause (by decide) (by decide),
      h.clause (by decide) (by decide), h.afterWord (by decide), h.afterWord (by decide),
      h.intercalate (by decide), hjoins, flatMap_fragments_ctes h ctes,
      flatMap_fragments_conditions h conditions]
    simp only [List.append_assoc]

theorem flatMap_fragments_condition (h : Splits F) :
    ∀ c : Condition, F c.render = c.fragments.flatMap F
  | .sql text => by simp [Condition.render, Condition.fragments]
  | .within field query => by
    rw [Condition.render, Condition.fragments, h.parenthesized field _ (by decide),
      flatMap_fragments_select h query, List.flatMap_cons]

theorem flatMap_fragments_cte (h : Splits F) : ∀ c : Cte, F c.render = c.fragments.flatMap F
  | .mk name body => by
    rw [Cte.render, Cte.fragments, h.parenthesized name _ (by decide),
      flatMap_fragments_body h body, List.flatMap_cons]

theorem flatMap_fragments_body (h : Splits F) : ∀ b : CteBody, F b.render = b.fragments.flatMap F
  | .one query => by
    rw [CteBody.render, CteBody.fragments, flatMap_fragments_select h query]
  | .unionAll queries => by
    rw [CteBody.render, CteBody.fragments, h.intercalate (by decide),
      flatMap_fragments_selects h queries]

theorem flatMap_fragments_selects (h : Splits F) :
    ∀ qs : List Select, (renderSelects qs).flatMap F = (fragmentsOfSelects qs).flatMap F
  | [] => rfl
  | q :: qs => by
    rw [renderSelects, fragmentsOfSelects, List.flatMap_cons, List.flatMap_append,
      flatMap_fragments_select h q, flatMap_fragments_selects h qs]

theorem flatMap_fragments_conditions (h : Splits F) :
    ∀ cs : List Condition,
      (renderConditions cs).flatMap F = (fragmentsOfConditions cs).flatMap F
  | [] => rfl
  | c :: cs => by
    rw [renderConditions, fragmentsOfConditions, List.flatMap_cons, List.flatMap_append,
      flatMap_fragments_condition h c, flatMap_fragments_conditions h cs]

theorem flatMap_fragments_ctes (h : Splits F) :
    ∀ cs : List Cte, (renderCtes cs).flatMap F = (fragmentsOfCtes cs).flatMap F
  | [] => rfl
  | c :: cs => by
    rw [renderCtes, fragmentsOfCtes, List.flatMap_cons, List.flatMap_append,
      flatMap_fragments_cte h c, flatMap_fragments_ctes h cs]

end

end Render

end Funnel
