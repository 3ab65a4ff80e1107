import Funnel.Named
import Mathlib.Data.List.Nodup

/-!
# Entries set one after the other

Setting names that are new appends their entries; setting names to what they are changes nothing.
Whatever holds of all entries set holds of every entry kept.
-/

set_option autoImplicit false

namespace Funnel.Named

variable {α : Type}

theorem mem_of_find? {entries : Named α} {name : String} {v : α}
    (h : find? entries name = some v) : (name, v) ∈ entries := by
  induction entries with
  | nil => simp [find?_nil] at h
  | cons p rest ih =>
    obtain ⟨n, w⟩ := p
    rw [find?_cons] at h
    split at h
    · rename_i hn
      simp only [Option.some.injEq] at h
      simp [hn, h]
    · exact List.mem_cons_of_mem _ (ih h)

theorem find?_of_notMem {entries : Named α} {name : String} (h : name ∉ names entries) :
    find? entries name = none := by
  cases hfind : find? entries name with
  | none => rfl
  | some v => exact absurd (List.mem_map_of_mem (mem_of_find? hfind)) h

theorem find?_map {β : Type} (g : α → β) (entries : Named α) (name : String) :
    find? (entries.map fun (n, v) => (n, g v)) name = (find? entries name).map g := by
  induction entries with
  | nil => rfl
  | cons p entries ih =>
    obtain ⟨n, v⟩ := p
    rw [List.map_cons, find?_cons, find?_cons, ih]
    split <;> rfl

theorem names_append (a b : Named α) : names (a ++ b) = names a ++ names b := by simp [names]

theorem putAll_nil (entries : Named α) : putAll entries [] = entries := rfl

theorem putAll_cons (entries : Named α) (p : String × α) (more : Named α) :
    putAll entries (p :: more) = putAll (put entries p.1 p.2) more := rfl

theorem putAll_append (entries a b : Named α) :
    putAll entries (a ++ b) = putAll (putAll entries a) b :=
  List.foldl_append

theorem find?_append (a b : Named α) (name : String) :
    find? (a ++ b) name = (find? a name).or (find? b name) :=
  List.lookup_append

/-- Of the entries of a name that are set one after the other, the last one counts. -/
theorem find?_putAll (entries more : Named α) (name : String) :
    find? (putAll entries more) name = (find? more.reverse name).or (find? entries name) := by
  induction more generalizing entries with
  | nil => rfl
  | cons p more ih =>
    obtain ⟨n, v⟩ := p
    rw [putAll_cons, ih, find?_put, List.reverse_cons, find?_append, find?_cons, find?_nil,
      Option.or_assoc]
    split <;> rfl

def keyed {β : Type} (name? : β → Option String) (value : β → α) (items : List β) : Named α :=
  items.filterMap fun x => (name? x).map fun n => (n, value x)

section Keyed

variable {β : Type} (name? : β → Option String) (value : β → α) (items : List β)

theorem names_keyed : names (keyed name? value items) = items.filterMap name? := by
  rw [names, keyed, List.map_filterMap]
  simp only [Option.map_map, Function.comp_def, Option.map_id']

theorem find?_keyed (name : String) : find? (keyed name? value items) name =
    ((items.filter fun x => name? x = some name).head?).map value := by
  induction items with
  | nil => rfl
  | cons x items ih =>
    rw [keyed, List.filterMap_cons]
    cases hx : name? x with
    | none =>
      rw [List.filter_cons_of_neg (by simp [hx])]
      exact ih
    | some own =>
      simp only [Option.map_some, find?_cons]
      split
      · rename_i hown
        subst hown
        rw [List.filter_cons_of_pos (by simp [hx])]
        rfl
      · rename_i hother
        rw [List.filter_cons_of_neg (by simpa [hx] using Ne.symm hother)]
        exact ih

/-- When the entries are set one after the other, the last item of a name counts. -/
theorem find?_putAll_keyed (name : String) : find? (putAll [] (keyed name? value items)) name =
    ((items.filter fun x => name? x = some name).getLast?).map value := by
  have hreverse : (keyed name? value items).reverse = keyed name? value items.reverse :=
    List.filterMap_reverse.symm
  rw [find?_putAll, hreverse, find?_keyed, List.filter_reverse, List.head?_reverse, find?_nil,
    Option.or_none]

end Keyed

theorem find?_putAll_of_notMem {entries more : Named α} {name : String}
    (h : name ∉ names more) : find? (putAll entries more) name = find? entries name := by
  induction more generalizing entries with
  | nil => rfl
  | cons p more ih =>
    simp only [names, List.map_cons, List.mem_cons, not_or] at h
    rw [putAll_cons, ih h.2, find?_put, if_neg h.1]

theorem find?_putAll_of_mem {entries more : Named α} (hnodup : (names more).Nodup) {name : String}
    {v : α} (h : (name, v) ∈ more) : find? (putAll entries more) name = some v := by
  induction more generalizing entries with
  | nil => cases h
  | cons p more ih =>
    simp only [names, List.map_cons, List.nodup_cons] at hnodup
    rw [putAll_cons]
    rcases List.mem_cons.mp h with rfl | h
    · rw [find?_putAll_of_notMem hnodup.1, find?_put, if_pos rfl]
    · exact ih hnodup.2 h

/-- Leaving names out leaves the entries under other names as they are. -/
theorem find?_putAll_filter {keep : String → Bool} {name : String} (hkeep : keep name = true)
    {entries entries' : Named α} (h : find? entries name = find? entries' name) (more : Named α) :
    find? (putAll entries (more.filter fun p => keep p.1)) name =
      find? (putAll entries' more) name := by
  induction more generalizing entries entries' with
  | nil => exact h
  | cons p more ih =>
    rw [putAll_cons]
    by_cases hp : keep p.1 = true
    · rw [List.filter_cons, if_pos hp, putAll_cons]
      apply ih
      rw [find?_put, find?_put, h]
    · rw [List.filter_cons, if_neg hp]
      apply ih
      have hne : name ≠ p.1 := by
        rintro rfl
        exact hp hkeep
      rw [find?_put, if_neg hne, h]

theorem mem_put {entries : Named α} {name : String} {v : α} {p : String × α}
    (h : p ∈ put entries name v) : p ∈ entries ∨ p = (name, v) := by
  induction entries with
  | nil => exact .inr (List.mem_singleton.mp h)
  | cons q rest ih =>
    obtain ⟨n, w⟩ := q
    unfold put at h
    split at h
    · rename_i hname
      rcases List.mem_cons.mp h with rfl | h
      · exact .inr (by rw [hname])
      · exact .inl (List.mem_cons_of_mem _ h)
    · rcases List.mem_cons.mp h with rfl | h
      · exact .inl List.mem_cons_self
      · exact (ih h).imp_left (List.mem_cons_of_mem _)

theorem mem_putAll {entries more : Named α} {p : String × α} (h : p ∈ putAll entries more) :
    p ∈ entries ∨ p ∈ more := by
  induction more generalizing entries with
  | nil => exact .inl h
  | cons q more ih =>
    rw [putAll_cons] at h
    rcases ih h with h | h
    · refine (mem_put h).imp_right ?_
      rintro rfl
      exact List.mem_cons_self
    · exact .inr (List.mem_cons_of_mem q h)

theorem forall_values_putAll {Q : α → Prop} {entries more : Named α}
    (h : ∀ p ∈ entries, Q p.2) (hmore : ∀ p ∈ more, Q p.2) :
    ∀ p ∈ putAll entries more, Q p.2 :=
  fun p hp => (mem_putAll hp).elim (h p) (hmore p)

theorem put_eq_append {entries : Named α} {name : String} (h : name ∉ names entries) (v : α) :
    put entries name v = entries ++ [(name, v)] := by
  induction entries with
  | nil => rfl
  | cons q rest ih =>
    obtain ⟨n, w⟩ := q
    simp only [names, List.map_cons, List.mem_cons, not_or] at h
    rw [put, if_neg (Ne.symm h.1), ih h.2, List.cons_append]

theorem find?_of_mem {entries : Named α} (hnodup : (names entries).Nodup) {name : String} {v : α}
    (h : (name, v) ∈ entries) : find? entries name = some v := by
  induction entries with
  | nil => cases h
  | cons q rest ih =>
    obtain ⟨n, w⟩ := q
    simp only [names, List.map_cons, List.nodup_cons] at hnodup
    rw [find?_cons]
    rcases List.mem_cons.mp h with heq | hrest
    · cases heq
      rw [if_pos rfl]
    · have hne : name ≠ n := by
        rintro rfl
        exact hnodup.1 (List.mem_map_of_mem hrest)
      rw [if_neg hne, ih hnodup.2 hrest]

/-- Entries under distinct names are known from their names and what stands under each. -/
theorem eq_map_of_names {β : Type} {entries : Named α} {xs : List β} {name : β → String}
    {value : β → α} (hnames : names entries = xs.map name) (hnodup : (xs.map name).Nodup)
    (h : ∀ p ∈ entries, ∃ x ∈ xs, p = (name x, value x)) :
    entries = xs.map fun x => (name x, value x) := by
  have hlength : entries.length = xs.length := by
    simpa [names] using congrArg List.length hnames
  refine List.ext_getElem (by simpa using hlength) fun i hi _ => ?_
  have hlt : i < xs.length := hlength ▸ hi
  obtain ⟨x, hx, heq⟩ := h entries[i] (List.getElem_mem hi)
  have hname : name xs[i] = name x := by
    have hmap : i < (xs.map name).length := by simpa using hlt
    have hfirst : entries[i].1 = (xs.map name)[i] := by
      simp only [← hnames, names, List.getElem_map]
    rw [List.getElem_map, heq] at hfirst
    exact hfirst.symm
  have hsame : xs[i] = x := List.inj_on_of_nodup_map hnodup (List.getElem_mem hlt) hx hname
  rw [List.getElem_map, hsame]
  exact heq

theorem exists_find?_of_mem_names {entries : Named α} {name : String} (h : name ∈ names entries) :
    ∃ v, find? entries name = some v := by
  obtain ⟨p, hp, rfl⟩ := List.mem_map.mp h
  exact Option.isSome_iff_exists.mp (List.lookup_isSome_iff.mpr ⟨p, hp, beq_self_eq_true p.1⟩)

theorem names_putAll (entries more : Named α) : names (putAll entries more) =
    names entries ++ ((names more).removeAll (names entries)).eraseDups := by
  induction more generalizing entries with
  | nil => exact (List.append_nil _).symm
  | cons q more ih =>
    have hcons : names (q :: more) = q.1 :: names more := rfl
    rw [putAll_cons, ih, names_put, hcons, List.removeAll, List.removeAll]
    split
    · rename_i hold
      rw [List.filter_cons_of_neg (by simpa using hold)]
    · rename_i hnew
      rw [List.filter_cons_of_pos (by simpa using hnew), List.eraseDups_cons, List.filter_filter,
        List.append_assoc, List.singleton_append]
      congr 3
      apply List.filter_congr
      intro n _
      simp [Bool.and_comm, Bool.beq_eq_decide_eq]

theorem names_putAll_nil (more : Named α) : names (putAll [] more) = (names more).eraseDups := by
  have hall : (names more).removeAll [] = names more := List.filter_eq_self.mpr fun _ _ => rfl
  rw [names_putAll]
  exact congrArg List.eraseDups hall

theorem nodup_names_putAll {entries : Named α} (h : (names entries).Nodup) (more : Named α) :
    (names (putAll entries more)).Nodup := by
  induction more generalizing entries with
  | nil => exact h
  | cons q more ih => exact ih (nodup_names_put h q.1 q.2)

theorem names_map_const (v : α) (ids : List String) : names (ids.map fun id => (id, v)) = ids := by
  rw [names, List.map_map]
  exact List.map_id ids

/-- Names and those of a request that are not among them, each once. -/
theorem nodup_requested {known : List String} (h : known.Nodup) (requested : List String) :
    (known ++ (requested.removeAll known).eraseDups).Nodup := by
  have hentries : (names (known.map fun id => (id, ()))).Nodup := by rwa [names_map_const]
  have hall := nodup_names_putAll hentries (requested.map fun id => (id, ()))
  rwa [names_putAll, names_map_const, names_map_const] at hall

theorem putAll_eq_append {entries more : Named α} (h : (names (entries ++ more)).Nodup) :
    putAll entries more = entries ++ more := by
  induction more generalizing entries with
  | nil => rw [putAll_nil, List.append_nil]
  | cons q more ih =>
    obtain ⟨n, v⟩ := q
    have hassoc : entries ++ (n, v) :: more = (entries ++ [(n, v)]) ++ more := by simp
    have hnew : n ∉ names entries := by
      rw [names_append, List.nodup_append] at h
      exact fun hn => h.2.2 n hn n (by simp [names]) rfl
    rw [putAll_cons, put_eq_append hnew, hassoc]
    rw [hassoc] at h
    exact ih h

theorem put_eq_self {entries : Named α} {name : String} {v : α}
    (h : find? entries name = some v) : put entries name v = entries := by
  induction entries with
  | nil => cases h
  | cons q rest ih =>
    obtain ⟨n, w⟩ := q
    rw [find?_cons] at h
    by_cases hname : name = n
    · rw [if_pos hname, Option.some.injEq] at h
      rw [put, if_pos hname.symm, h]
    · rw [if_neg hname] at h
      rw [put, if_neg (Ne.symm hname), ih h]

theorem putAll_eq_self {entries more : Named α} (hnodup : (names entries).Nodup)
    (h : ∀ p ∈ more, p ∈ entries) : putAll entries more = entries := by
  induction more with
  | nil => rfl
  | cons q more ih =>
    rw [putAll_cons, put_eq_self (find?_of_mem hnodup (h q List.mem_cons_self))]
    exact ih fun p hp => h p (List.mem_cons_of_mem q hp)

end Funnel.Named
