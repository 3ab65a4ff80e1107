/-!
# Named entries

Entries under names, in the order in which the names were first set. Setting a name again
replaces its entry and keeps its place.
-/

set_option autoImplicit false

namespace Funnel

abbrev Named (α : Type) := List (String × α)

namespace Named

variable {α : Type}

def find? (entries : Named α) (name : String) : Option α := entries.lookup name

def put : Named α → String → α → Named α
  | [], name, v => [(name, v)]
  | (n, w) :: rest, name, v => if n = name then (n, v) :: rest else (n, w) :: put rest name v

def putAll (entries more : Named α) : Named α := more.foldl (fun es (n, v) => put es n v) entries

def names (entries : Named α) : List String := entries.map Prod.fst

theorem find?_nil (name : String) : find? ([] : Named α) name = none := rfl

theorem find?_cons (n : String) (w : α) (rest : Named α) (name : String) :
    find? ((n, w) :: rest) name = if name = n then some w else find? rest name := by
  by_cases h : name = n
  · simp [find?, h]
  · simp [find?, List.lookup_cons, beq_eq_false_iff_ne.2 h, h]

theorem find?_put (entries : Named α) (name other : String) (v : α) :
    find? (put entries name v) other = if other = name then some v else find? entries other := by
  induction entries with
  | nil => simp [put, find?_cons, find?_nil]
  | cons p rest ih =>
    obtain ⟨n, w⟩ := p
    unfold put
    by_cases hn : n = name
    · subst hn
      by_cases h : other = n <;> simp [find?_cons, h]
    · by_cases h : other = n
      · subst h
        simp [find?_cons, hn]
      · simp [find?_cons, hn, h, ih]

theorem names_put (entries : Named α) (name : String) (v : α) :
    names (put entries name v) =
      if name ∈ names entries then names entries else names entries ++ [name] := by
  induction entries with
  | nil => simp [put, names]
  | cons p rest ih =>
    obtain ⟨n, w⟩ := p
    unfold put
    by_cases hn : n = name
    · simp [names, hn]
    · have hne : ¬ name = n := fun h => hn h.symm
      simp only [names, List.map_cons, List.mem_cons] at ih ⊢
      simp only [hn, if_false, List.map_cons, hne, false_or]
      rw [ih]
      by_cases hm : name ∈ List.map Prod.fst rest <;> simp [hm]

theorem nodup_names_put {entries : Named α} (h : (names entries).Nodup) (name : String) (v : α) :
    (names (put entries name v)).Nodup := by
  rw [names_put]
  split
  · exact h
  · rename_i hm
    exact List.nodup_append.2 ⟨h, by simp, by
      intro a ha b hb hab
      simp only [List.mem_singleton] at hb
      exact hm (hb ▸ hab ▸ ha)⟩

end Named

end Funnel
