import Funnel.Proofs.Filter.Checked
import Funnel.Proofs.Filter.Disguise
import Funnel.Proofs.Plan.Narrowing
import Funnel.Proofs.Plan.People
import Funnel.Proofs.Store.Asks

/-!
# Whose dials are counted

The callers of work days are requested, or else they are whoever the store lists. Either way they
pass the conditions on people, which drop every token that has not the form of an identifier and
leave a query as wide as it is when no token is left. So it is the form of the listed callers that
decides whose dials are counted.
-/

set_option autoImplicit false

namespace Funnel

open Standard

/-- A query of dials that is restricted to some people: a conjunct compares the column of setters
with them, and no others are bound. -/
structure Call.DialsOf (ids : List String) (c : Call) : Prop where
  condition : ∃ s ∈ personTexts "setter_user_id" "setter_user_id" "setter_user_ids" ids.length,
    s ∈ c.query.conjuncts
  people : c.people = personFields "setter_user_id" "setter_user_ids" ids

/-- A query of all dials of the account between the two days. -/
structure Call.DialsOfAll (c : Call) : Prop where
  conditions : c.query.conjuncts = accountTexts .dials none ++ ["date_called IS NOT NULL"]
  people : c.people = []

theorem Standard.values_numberedValues (name : String) (values : List Value) :
    (numberedValues name values).map Prod.snd = values := by
  simp only [numberedValues, List.map_map]
  apply List.ext_getElem <;> simp

/-- The people of a query can be read off its parameters. -/
theorem Standard.values_personFields (single many : String) (ids : List String) :
    (personFields single many ids).map Prod.snd = ids.map .text := by
  match ids with
  | [] => rfl
  | [id] => rfl
  | id :: other :: ids => exact values_numberedValues many _

theorem Standard.personFields_inj {single many : String} {ids ids' : List String}
    (h : personFields single many ids = personFields single many ids') : ids = ids' := by
  have hvalues := congrArg (List.map Prod.snd) h
  rw [values_personFields, values_personFields] at hvalues
  exact List.map_injective_iff.mpr (fun _ _ heq => Value.text.inj heq) hvalues

theorem Standard.exists_mem_personTexts (column single many : String) {count : Nat}
    (h : count ≠ 0) : ∃ s, s ∈ personTexts column single many count := by
  match count with
  | 1 => exact ⟨_, List.mem_cons_self⟩
  | n + 2 => exact ⟨_, List.mem_cons_self⟩

namespace Work

variable {f : Filters} {callers : List String} {c : Call}

theorem people_of_dialsCall (h : dialsCall f callers = .ok c) : c.people =
    personFields "setter_user_id" "setter_user_ids" (Identifier.kept callers) := by
  obtain ⟨start, finish, -, rfl⟩ := of_dialsCall h
  rw [Call.people, Draft.call, dialsDraft, Scope.filter_people]
  simp [userFields, callersOnly, Table.dials]

theorem conjuncts_of_dialsCall (h : dialsCall f callers = .ok c) : c.query.conjuncts =
    accountTexts .dials none ++ personTexts "setter_user_id" "setter_user_id" "setter_user_ids"
      (Identifier.kept callers).length ++ ["date_called IS NOT NULL"] := by
  obtain ⟨start, finish, -, rfl⟩ := of_dialsCall h
  rw [Draft.call, dialsDraft, Select.conjuncts_mk_sqlConditions, texts, if_pos rfl]
  simp [userTexts, Filters.headcount, callersOnly, Table.dials, qualify]

theorem dialsOf_kept (h : dialsCall f callers = .ok c) (hkept : Identifier.kept callers ≠ []) :
    c.DialsOf (Identifier.kept callers) := by
  refine ⟨?_, people_of_dialsCall h⟩
  obtain ⟨s, hs⟩ := exists_mem_personTexts "setter_user_id" "setter_user_id" "setter_user_ids"
    (mt List.length_eq_zero_iff.mp hkept)
  rw [conjuncts_of_dialsCall h]
  exact ⟨s, hs, List.mem_append_left _ (List.mem_append_right _ hs)⟩

/-- Without a token of the right form, nothing is left of the condition on people. -/
theorem dialsOfAll_of_kept_eq_nil (h : dialsCall f callers = .ok c)
    (hkept : Identifier.kept callers = []) : c.DialsOfAll := by
  constructor
  · rw [conjuncts_of_dialsCall h, hkept]
    rfl
  · rw [people_of_dialsCall h, hkept]
    rfl

/-- The callers are exactly those of the query just if the conditions on people keep them all. -/
theorem dialsOf_iff (h : dialsCall f callers = .ok c) (hne : callers ≠ []) :
    c.DialsOf callers ↔ Identifier.kept callers = callers := by
  constructor
  · intro hdials
    exact personFields_inj ((people_of_dialsCall h).symm.trans hdials.people)
  · intro hkept
    have hdials := dialsOf_kept h (by rwa [hkept])
    rwa [hkept] at hdials

theorem findCallers_of_requested (store : Store) (h : Identifier.kept f.setterIds ≠ []) :
    findCallers store f = pure (Identifier.kept f.setterIds) := by
  unfold findCallers
  split
  · contradiction
  · rfl

def daysOf (known : Calendar.Zones) (store : Store) (f : Filters) (callers : List String) :
    Session (List WorkDay) := do
  let zoneRows ← Session.ask store (zoneCall f)
  let zone ← Session.ofExcept (zoneOfRows zoneRows)
  let call ← Session.ofExcept (dialsCall f callers)
  let rows ← Session.ask store call
  Session.ofExcept do
    let z ← Hours.zoneIn known zone
    group (← rows.entries) z

theorem derive_eq (known : Calendar.Zones) (store : Store) (f : Filters) :
    derive known store f = (do
      let callers ← findCallers store f
      if callers = [] then pure [] else daysOf known store f callers) := by
  unfold derive
  congr 1
  funext callers
  cases callers <;> rfl

theorem asks_daysOf (known : Calendar.Zones) (store : Store) (f : Filters)
    (callers : List String) :
    (daysOf known store f callers).Asks fun c => c = zoneCall f ∨ dialsCall f callers = .ok c := by
  refine Session.asks_bind (Session.asks_ask store (.inl rfl)) fun zoneRows => ?_
  refine Session.asks_bind (Session.asks_ofExcept _) fun zone => ?_
  refine Session.asks_ofExcept_bind fun call hcall => ?_
  exact Session.asks_bind (Session.asks_ask store (.inr hcall)) fun _ => Session.asks_ofExcept _

/-- Once callers are found and the zone is read, the dials are asked for. -/
theorem mem_calls_derive {known : Calendar.Zones} {store : Store} {t u : Trace}
    {zoneRows zone : Value}
    (hfind : (findCallers store f).run t = (.ok callers, u)) (hne : callers ≠ [])
    (hrows : store.answer u.calls (zoneCall f) = .ok zoneRows)
    (hzone : zoneOfRows zoneRows = .ok zone) (hcall : dialsCall f callers = .ok c) :
    c ∈ ((derive known store f).run t).2.calls := by
  rw [derive, Session.run_bind, hfind]
  cases callers with
  | nil => contradiction
  | cons first rest =>
    simp only [Session.run_bind, Session.run_ask, Session.run_ofExcept, hrows, hzone, hcall]
    split
    all_goals
      rename_i heq
      obtain ⟨-, rfl⟩ := Prod.mk.inj heq
      simp

end Work

/-- A derivation of work days asks for the callers, for the zone of the account and for dials, and
the dials are those of the found callers that have the form of an identifier: of exactly the found
callers just if all of them have it, as requested ones do, and of the whole account if none has. -/
theorem dials_of_kept_callers (known : Calendar.Zones) (store : Store) (f : Filters) (t : Trace) :
    t.Grows (fun c => c = Work.callersCall f ∨ c = Work.zoneCall f ∨ ∃ callers u,
        (Work.findCallers store f).run t = (.ok callers, u) ∧ callers ≠ [] ∧
        (if Identifier.kept callers = [] then c.DialsOfAll
          else c.DialsOf (Identifier.kept callers)) ∧
        (c.DialsOf callers ↔ Identifier.kept callers = callers) ∧
        (Identifier.kept f.setterIds ≠ [] → c.DialsOf callers))
      ((Work.derive known store f).run t).2 := by
  have hfind : t.Grows (· = Work.callersCall f) ((Work.findCallers store f).run t).2 :=
    Work.asks_findCallers (P := (· = Work.callersCall f)) rfl store t
  rw [Work.derive, Session.run_bind]
  rcases hrun : (Work.findCallers store f).run t with ⟨e | callers, u⟩
  · rw [hrun] at hfind
    exact hfind.mono fun c hc => .inl hc
  · rw [hrun] at hfind
    refine (hfind.mono fun c hc => .inl hc).trans ?_
    cases callers with
    | nil => exact .refl u
    | cons first rest =>
      refine (Work.asks_daysOf known store f (first :: rest) u).mono ?_
      rintro c (rfl | hc)
      · exact .inr (.inl rfl)
      · refine .inr (.inr ⟨first :: rest, u, rfl, nofun, ?_, Work.dialsOf_iff hc nofun, ?_⟩)
        · split
          · rename_i hkept
            exact Work.dialsOfAll_of_kept_eq_nil hc hkept
          · rename_i hkept
            exact Work.dialsOf_kept hc hkept
        · intro hrequested
          rw [Work.findCallers_of_requested store hrequested] at hrun
          have hcallers : Identifier.kept f.setterIds = first :: rest :=
            Except.ok.inj (congrArg Prod.fst hrun)
          rw [Work.dialsOf_iff hc nofun, ← hcallers]
          exact Identifier.kept_kept _

/-- The store lists one caller, whose identifier is no UUID: everybody's dials are counted. -/
theorem dials_of_everybody : ∃ (store : Store) (f : Filters) (callers : List String) (u : Trace),
    f.reasons = [] ∧ (Work.findCallers store f).run .start = (.ok callers, u) ∧ callers = ["u1"] ∧
    ∀ known, ∃ c ∈ ((Work.derive known store f).run .start).2.calls, c.query.source = "dials" ∧
      c.DialsOfAll ∧ ¬ c.DialsOf callers := by
  let f := Filters.between "north" "2024-03-01" "2024-03-02" [] []
  let store : Store := .ofFunction fun _ params =>
    if (params.find? "role_0").isSome then .ok (.list [.object [("user_id", .text "u1")]])
    else .ok (.list [])
  have hf : f.reasons = [] := by decide
  obtain ⟨start, finish, hc⟩ := Filters.checked_of_reasons hf
  have hrows : Work.callersOfRows (.list [.object [("user_id", .text "u1")]]) = .ok ["u1"] :=
    congrArg Except.ok (List.mergeSort_singleton "u1")
  have hfind : (Work.findCallers store f).run .start =
      (.ok ["u1"], ⟨[Work.callersCall f], 0, []⟩) := by
    change (Session.ask store (Work.callersCall f) >>= fun rows =>
      Session.ofExcept (Work.callersOfRows rows)).run .start = _
    rw [Session.run_bind, Session.run_ask]
    exact congrArg (·, _) hrows
  have hkept : Identifier.kept ["u1"] = [] := by decide
  have hcall := Work.dialsCall_eq hc.days ["u1"]
  refine ⟨store, f, ["u1"], _, hf, hfind, rfl, fun known => ⟨_, ?_, rfl,
    Work.dialsOfAll_of_kept_eq_nil hcall hkept, ?_⟩⟩
  · have hzone : store.answer [Work.callersCall f] (Work.zoneCall f) = .ok (.list []) := rfl
    exact Work.mem_calls_derive hfind nofun hzone rfl hcall
  · rw [Work.dialsOf_iff hcall nofun, hkept]
    nofun

end Funnel
