import Funnel.Proofs.Filter.Conditions
import Funnel.Proofs.Query.Plain

/-!
# Conditions added one by one

A condition brings its text and the values of its own placeholders. While no parameter is named
twice, the texts ask for just what is bound, each name keeps its value, and what was added before
stays as it was.
-/

set_option autoImplicit false

namespace Funnel

open Fragment Placeholder

namespace Filtering

def paramNames (c : Filtering) : List String :=
  match c.operator with
  | .compare _ => [c.param]
  | .oneOf => (List.range (c.values.toOption.getD []).length).map (numbered c.param)

/-- A condition with no placeholder in its texts but those that its name makes, and with a list
where its operator takes one. -/
structure WellFormed (c : Filtering) : Prop where
  field : '$' ∉ c.field.toList
  cast : ∀ t ∈ c.cast, '$' ∉ t.toList
  param : Nameable c.param
  operator : match c.operator with
    | .compare symbol => '$' ∉ symbol.toList
    | .oneOf => ∃ vs, c.value = .list vs

/-- Each name is bound to the value it stands for: the own name to the whole value, the numbered
ones to the values of the list in their order. -/
def BoundIn (c : Filtering) (params : Fields) : Prop :=
  match c.operator with
  | .compare _ => params.find? c.param = some c.value
  | .oneOf => ∃ vs, c.value = .list vs ∧
      ∀ (i : Nat) (h : i < vs.length), params.find? (numbered c.param i) = some vs[i]

variable {c : Filtering}

theorem names_bindings (c : Filtering) : c.bindings.names = c.paramNames := by
  unfold bindings paramNames
  cases c.operator with
  | compare symbol => rfl
  | oneOf => exact names_numberedValues _ _

theorem names_reference (hcast : ∀ t ∈ c.cast, '$' ∉ t.toList) {n : String} (hn : Nameable n) :
    names (c.reference n) = [n] := by
  unfold reference
  split
  · exact names_dollar_append hn
  · exact names_dollar_append hn
  · -- The colon of a cast ends the name before it.
    rename_i t _ ht
    have hstarts : StartsApart ("::" ++ t) :=
      startsApart_append (startsApart_ofList (by decide)) t
    have hnone : '$' ∉ ("::" ++ t).toList := by
      rw [String.toList_append, List.mem_append]
      exact not_or.mpr ⟨noDollar_ofList (by decide), hcast t ht⟩
    rw [String.append_assoc, names_append_of_startsApart _ hstarts, names_dollar_append hn,
      names_of_no_dollar hnone, List.append_nil]

theorem WellFormed.nameable (h : c.WellFormed) : ∀ n ∈ c.paramNames, Nameable n := by
  intro n hn
  unfold paramNames at hn
  cases hop : c.operator with
  | compare symbol =>
    rw [hop] at hn
    rw [List.mem_singleton.mp hn]
    exact h.param
  | oneOf =>
    rw [hop] at hn
    obtain ⟨i, -, rfl⟩ := List.mem_map.mp hn
    exact nameable_numbered h.param i

/-- The text of a condition asks for its own names, in their order and once each. -/
theorem WellFormed.names_render (h : c.WellFormed) : names c.render = c.paramNames := by
  have hoperator := h.operator
  cases hop : c.operator with
  | compare symbol =>
    rw [hop] at hoperator
    simp only [render, paramNames, hop]
    rw [splits_names.cut " " (by decide), splits_names.cut " " (by decide),
      names_of_no_dollar h.field, names_of_no_dollar hoperator, names_reference h.cast h.param]
    rfl
  | oneOf =>
    simp only [render, hop]
    rw [splits_names.parenthesized _ _ (by decide), splits_names.intercalate (by decide),
      names_of_no_dollar h.field, List.nil_append, names_bindings]
    exact flatMap_names_map fun n hn => names_reference h.cast (h.nameable n hn)

/-- A list operator takes the values of its list. -/
theorem WellFormed.exists_values (h : c.WellFormed) (hop : c.operator = .oneOf) :
    ∃ vs, c.value = .list vs ∧ c.values = .ok vs := by
  have hoperator := h.operator
  rw [hop] at hoperator
  obtain ⟨vs, hvs⟩ := hoperator
  refine ⟨vs, hvs, ?_⟩
  rw [values, hop, hvs]
  rfl

theorem WellFormed.check_eq_ok (h : c.WellFormed) : c.check = .ok () := by
  cases hop : c.operator with
  | compare symbol =>
    rw [check, values, hop]
    rfl
  | oneOf =>
    obtain ⟨vs, -, hvalues⟩ := h.exists_values hop
    rw [check, hvalues]
    rfl

theorem WellFormed.boundIn (h : c.WellFormed) {params : Fields}
    (hparams : ∀ p ∈ c.bindings, params.find? p.1 = some p.2) : c.BoundIn params := by
  cases hop : c.operator with
  | compare symbol =>
    simp only [BoundIn, hop]
    refine hparams (c.param, c.value) ?_
    rw [bindings, hop]
    exact List.mem_singleton_self _
  | oneOf =>
    obtain ⟨vs, hvs, hvalues⟩ := h.exists_values hop
    simp only [BoundIn, hop]
    refine ⟨vs, hvs, fun i hi => hparams (numbered c.param i, vs[i]) ?_⟩
    rw [bindings, hop, hvalues]
    exact List.mem_map.mpr ⟨(vs[i], i), List.mk_mem_zipIdx_iff_getElem?.mpr
      (List.getElem?_eq_getElem hi), rfl⟩

theorem BoundIn.mono {params params' : Fields} (h : c.BoundIn params)
    (hkeep : ∀ n v, params.find? n = some v → params'.find? n = some v) : c.BoundIn params' := by
  unfold BoundIn at h ⊢
  cases hop : c.operator with
  | compare symbol =>
    rw [hop] at h
    exact hkeep _ _ h
  | oneOf =>
    rw [hop] at h
    obtain ⟨vs, hvs, hfind⟩ := h
    exact ⟨vs, hvs, fun i hi => hkeep _ _ (hfind i hi)⟩

end Filtering

namespace Applied

open Filtering

/-- The conditions added so far and their parameters go together: every condition could bind its
value, the texts stand in the order added and ask for just the names that are bound, and these are
the names of the conditions with the values of each. -/
structure InStep (a : Applied) (cs : List Filtering) : Prop where
  conditions : a.conditions = cs
  checked : a.check = .ok ()
  rendered : a.sql = cs.map render
  asked : a.sql.flatMap names = a.params.names
  keys : a.params.names = cs.flatMap paramNames
  bound : ∀ c ∈ cs, c.BoundIn a.params

/-- What was there before is still there, in its place: conditions, texts and parameters, and so
the value of every name that was bound. -/
structure Extends (after before : Applied) : Prop where
  conditions : before.conditions <+: after.conditions
  texts : before.sql <+: after.sql
  params : before.params <+: after.params
  values : ∀ n ∈ before.params.names, after.params.find? n = before.params.find? n

variable {a : Applied} {cs : List Filtering} {c : Filtering}

/-- A condition with new names leaves the parameters as they were and appends its own. -/
theorem params_add (h : (a.params.names ++ c.paramNames).Nodup) :
    (a.add c).params = a.params ++ c.bindings := by
  apply Named.putAll_eq_append
  rwa [Named.names_append, names_bindings]

theorem names_add (h : (a.params.names ++ c.paramNames).Nodup) :
    (a.add c).params.names = a.params.names ++ c.paramNames := by
  rw [params_add h, Named.names_append, names_bindings]

theorem find?_add (h : (a.params.names ++ c.paramNames).Nodup) {n : String} {v : Value}
    (hv : a.params.find? n = some v) : (a.add c).params.find? n = some v := by
  rw [params_add h, Named.find?_append, hv, Option.some_or]

theorem extends_add (h : (a.params.names ++ c.paramNames).Nodup) : (a.add c).Extends a where
  conditions := List.prefix_append _ _
  texts := by
    rw [sql_add]
    exact List.prefix_append _ _
  params := by
    rw [params_add h]
    exact List.prefix_append _ _
  values := by
    intro n hn
    obtain ⟨v, hv⟩ := Named.exists_find?_of_mem_names hn
    rw [hv, find?_add h hv]

theorem check_add (ha : a.check = .ok ()) (hc : c.check = .ok ()) : (a.add c).check = .ok () := by
  rw [check, List.forM_eq_forM] at ha ⊢
  rw [add, List.forM_append, ha, List.forM_cons, hc]
  rfl

theorem InStep.add (h : a.InStep cs) (hc : c.WellFormed)
    (hnew : (a.params.names ++ c.paramNames).Nodup) : (a.add c).InStep (cs ++ [c]) where
  conditions := by rw [Applied.add, h.conditions]
  checked := check_add h.checked hc.check_eq_ok
  rendered := by rw [sql_add, h.rendered, List.map_append, List.map_singleton]
  asked := by
    rw [sql_add, List.flatMap_append, h.asked, List.flatMap_singleton, hc.names_render,
      names_add hnew]
  keys := by rw [names_add hnew, h.keys, List.flatMap_append, List.flatMap_singleton]
  bound := by
    have hnodup : (a.params ++ c.bindings).names.Nodup := by
      rwa [Named.names_append, names_bindings]
    have hown : c.BoundIn (a.add c).params := by
      refine hc.boundIn fun p hp => ?_
      rw [params_add hnew]
      exact Named.find?_of_mem hnodup (List.mem_append_right _ hp)
    intro d hd
    rcases List.mem_append.mp hd with hd | hd
    · exact (h.bound d hd).mono fun _ _ hv => find?_add hnew hv
    · rw [List.mem_singleton.mp hd]
      exact hown

theorem inStep_empty : empty.InStep [] :=
  ⟨rfl, rfl, rfl, rfl, rfl, fun _ h => absurd h List.not_mem_nil⟩

theorem InStep.addAll {done : List Filtering} (h : a.InStep done) (hcs : ∀ c ∈ cs, c.WellFormed)
    (hnew : (a.params.names ++ cs.flatMap paramNames).Nodup) :
    (a.addAll cs).InStep (done ++ cs) := by
  -- By induction on the conditions still to come, from whatever state has been reached.
  induction cs generalizing a done with
  | nil => rwa [List.append_nil]
  | cons c cs ih =>
    rw [List.flatMap_cons, ← List.append_assoc] at hnew
    have hfirst := h.add (hcs c List.mem_cons_self) hnew.of_append_left
    rw [← names_add hnew.of_append_left] at hnew
    have hrest := ih hfirst (fun d hd => hcs d (List.mem_cons_of_mem c hd)) hnew
    rwa [List.append_assoc, List.singleton_append] at hrest

theorem flatMap_names_filter (texts : List String) :
    (texts.filter fun s => s != "").flatMap names = texts.flatMap names := by
  induction texts with
  | nil => rfl
  | cons s texts ih =>
    by_cases hs : s = ""
    · rw [List.filter_cons_of_neg (by simp [hs]), List.flatMap_cons, hs, splits_names.empty,
        List.nil_append, ih]
    · rw [List.filter_cons_of_pos (by simp [hs]), List.flatMap_cons, List.flatMap_cons, ih]

/-- A WHERE clause asks for what its conditions and the texts beside them ask for. -/
theorem names_whereClause (a : Applied) (additional : List String) :
    names (a.whereClause additional) = a.sql.flatMap names ++ additional.flatMap names := by
  rw [← flatMap_names_filter additional, ← List.flatMap_append]
  unfold whereClause
  split
  · rename_i hnone
    rw [hnone]
    exact splits_names.empty
  · have hword : "WHERE " = "WHERE" ++ " " := by decide
    rw [hword, splits_names.afterWord (by decide), splits_names.intercalate (by decide)]

/-- Conditions whose parameters all have different names are in step after each addition, and each
addition leaves what was there as it was. The WHERE clause asks for what is bound and for what the
texts beside the conditions ask for. -/
theorem added_in_step (done more : List Filtering) (hcs : ∀ d ∈ cs, d.WellFormed)
    (hdistinct : (cs.flatMap paramNames).Nodup) (hsplit : cs = done ++ c :: more) :
    let before := empty.addAll done
    let after := before.add c
    after.InStep (done ++ [c]) ∧ after.Extends before ∧
      ∀ additional, names (after.whereClause additional) =
        after.params.names ++ additional.flatMap names := by
  intro before after
  subst hsplit
  rw [List.flatMap_append, List.flatMap_cons, ← List.append_assoc] at hdistinct
  have hnew := hdistinct.of_append_left
  have hbefore : before.InStep done := by
    have hdone := inStep_empty.addAll (fun d hd => hcs d (List.mem_append_left _ hd))
      hnew.of_append_left
    rwa [List.nil_append] at hdone
  rw [← hbefore.keys] at hnew
  have hafter : after.InStep (done ++ [c]) := hbefore.add (hcs c (by simp)) hnew
  refine ⟨hafter, extends_add hnew, fun additional => ?_⟩
  rw [names_whereClause, hafter.asked]

/-- Eleven values under names that other names begin with or begin. -/
theorem added_in_step_of_eleven_values :
    let account : Filtering := ⟨"account_id", .compare "=", .text "north", "id", none⟩
    let reps : Filtering :=
      ⟨"rep", .oneOf, .list ((List.range 11).map fun i => .int i), "id", some "int"⟩
    let first : Filtering := ⟨"day", .compare ">=", .text "2024-01-01", "id_", some "date"⟩
    let last : Filtering := ⟨"day", .compare "<=", .text "2024-01-31", "id_100", some "date"⟩
    let before := empty.addAll [account, reps]
    let after := before.add first
    (∀ d ∈ [account, reps, first, last], d.WellFormed) ∧
      ([account, reps, first, last].flatMap paramNames).Nodup ∧
      after.InStep [account, reps, first] ∧ after.Extends before ∧
      ∀ additional, names (after.whereClause additional) =
        after.params.names ++ additional.flatMap names := by
  intro account reps first last before after
  have hcs : ∀ d ∈ [account, reps, first, last], d.WellFormed := by
    simp only [List.forall_mem_cons]
    exact ⟨⟨by decide, by decide, ⟨_, _, String.toList_ofList, by decide⟩, by decide⟩,
      ⟨by decide, by decide, ⟨_, _, String.toList_ofList, by decide⟩, _, rfl⟩,
      ⟨by decide, by decide, ⟨_, _, String.toList_ofList, by decide⟩, by decide⟩,
      ⟨by decide, by decide, ⟨_, _, String.toList_ofList, by decide⟩, by decide⟩, nofun⟩
  have hdistinct : ([account, reps, first, last].flatMap paramNames).Nodup := by decide
  exact ⟨hcs, hdistinct, added_in_step [account, reps] [last] hcs hdistinct rfl⟩

end Applied

end Funnel
