import Funnel.Proofs.Plan.Isolation
import Funnel.Proofs.Plan.People
import Funnel.Proofs.Store.Asks

/-!
# Accounts are apart

Whatever is asked of the store while a request is answered, work days are derived or profiles are
loaded, it is asked for one account only: that of the request.
-/

set_option autoImplicit false

namespace Funnel

open Fragment Standard Select

theorem Select.Guards.of_access {q : Select} {r : Reading} (hr : r.table = "account_access")
    (h : q.Holds r "account_id") (joined : Prop) : q.Guards r joined where
  tenant := fun ht => absurd hr (tenantTables_apart _ ht).1
  access := fun _ => h
  accounts := fun ha => absurd (hr.symm.trans ha) (by decide)

theorem access_mem_sharedTables : "account_access" ∈ sharedTables :=
  List.mem_cons_of_mem _ List.mem_cons_self

namespace Work

theorem isolated_callersCall (f : Filters) : (callersCall f).Isolated (accountValue f) := by
  refine ⟨?_, account_callersCall f⟩
  have hrole : Param "role" := param_ofList (by decide) (by decide) (by decide)
  have hbare : ∀ s ∈ [equality "account_id" "account_id",
      membership "role" "role" callerRoles.length], Bare s := by
    simp only [List.forall_mem_cons]
    exact ⟨bare_equality (plain_ofList (by decide)) param_account,
      bare_membership (plain_ofList (by decide)) hrole _, List.forall_mem_nil _⟩
  have hreading : Reading.ofText "account_access" = ⟨"account_access", none⟩ := ofText_ofList _
  rw [query_callersCall]
  generalize membership "role" "role" callerRoles.length = more at hbare ⊢
  have hmade : (Select.simple ["user_id"] "account_access"
      (sqlConditions [equality "account_id" "account_id", more])).MadeOf
        [equality "account_id" "account_id", more] := by
    refine @madeOf_flat ["user_id"] "account_access" [equality "account_id" "account_id", more]
      [] [] [] [] (List.forall_mem_nil _) ?_
    simp only [List.append_nil, List.cons_append, List.nil_append, List.forall_mem_cons]
    exact ⟨plain_ofList (by decide), plain_ofList (by decide), List.forall_mem_nil _⟩
  refine isolated_of_madeOf hmade (fun s hs => .inr (hbare s hs).modest) ?_
  rw [Select.simple, selects_flat]
  intro p hp
  rw [List.mem_singleton.mp hp]
  refine restricted_of_guards rfl ?_ ?_ (.inr ?_)
  · rw [conjuncts_mk_sqlConditions]
    exact fun s hs => (hbare s hs).conjunct
  · rw [Select.source, hreading]
    refine .of_access rfl ?_ _
    rw [Holds, conjuncts_mk_sqlConditions]
    exact List.mem_cons_self
  · rw [Select.source, hreading]
    exact List.mem_append_left _ (List.mem_append_right _ access_mem_sharedTables)

end Work

namespace Profile

theorem isolated_query (count : Nat) : (query count).Isolated := by
  have huser : Param "user_id" := param_ofList (by decide) (by decide) (by decide)
  have hbare : ∀ s ∈ [equality "aa.account_id" "account_id",
      membership "p.id" "user_id" count], Bare s := by
    simp only [List.forall_mem_cons]
    exact ⟨bare_equality (plain_ofList (by decide)) param_account,
      bare_membership (plain_ofList (by decide)) huser _, List.forall_mem_nil _⟩
  have hon : Plain "aa.user_id = p.id" := plain_ofList (by decide)
  have hprofiles : Reading.ofText "profiles p" = ⟨"profiles", some "p"⟩ := ofText_ofList _
  have haccess : Reading.ofText "account_access aa" = ⟨"account_access", some "aa"⟩ :=
    ofText_ofList _
  rw [query]
  generalize membership "p.id" "user_id" count = more at hbare ⊢
  have hmodest : ∀ s ∈ [equality "aa.account_id" "account_id", more] ++ ["aa.user_id = p.id"],
      s = seed ∨ Modest s := by
    intro s hs
    rcases List.mem_append.mp hs with hs | hs
    · exact .inr (hbare s hs).modest
    · rw [List.mem_singleton.mp hs]
      exact .inr hon.modest
  refine isolated_of_madeOf (madeOf_joined ?_ ?_) hmodest ?_
  · simp only [List.append_nil, List.cons_append, List.nil_append, List.forall_mem_cons]
    exact ⟨plain_ofList (by decide), plain_ofList (by decide), plain_ofList (by decide),
      plain_ofList (by decide), List.forall_mem_nil _⟩
  · simp only [Option.toList_none, List.nil_append, List.forall_mem_cons]
    exact ⟨plain_ofList (by decide), List.forall_mem_nil _⟩
  rw [selects_flat]
  intro p hp
  rw [List.mem_singleton.mp hp]
  constructor
  · rw [conjuncts_mk_sqlConditions]
    exact fun s hs => (hbare s hs).conjunct
  · simp [readings, Select.source, Select.joins, hprofiles, haccess]
  · rw [Select.source, hprofiles]
    exact .of_other (by decide) _
  · intro j hj
    rw [List.mem_singleton.mp hj]
    refine .of_access (by rw [haccess]) ?_ _
    rw [Holds, conjuncts_mk_sqlConditions, haccess]
    exact List.mem_cons_self
  · intro s hs
    simp only [Select.source, Select.joins, List.map_cons, List.map_nil, List.mem_cons,
      List.not_mem_nil, or_false] at hs
    rcases hs with rfl | rfl
    · rw [hprofiles]
      exact .inr (List.mem_append_left _ (List.mem_append_right _ (by simp [sharedTables])))
    · rw [haccess]
      exact .inr (List.mem_append_left _ (List.mem_append_right _ access_mem_sharedTables))

theorem isolated_call (v : View) (ids : List String) :
    (call v ids).Isolated (accountValue v.filters) :=
  ⟨query_call v ids ▸ isolated_query ids.length, params_call v ids ▸ rfl⟩

end Profile

/-- A session that asks for one account only. -/
abbrev Session.AsksFor {α : Type} (x : Session α) (account : Value) : Prop :=
  x.Asks (Call.Isolated account)

open Session

theorem Profile.asksFor_load (e : Engine) (v : View) (tokens : List String) :
    (load e v tokens).AsksFor (accountValue v.filters) :=
  asks_load (fun ids _ => isolated_call v ids) e tokens

namespace Work

theorem asksFor_derive (known : Calendar.Zones) (s : Store) (f : Filters) :
    (derive known s f).AsksFor (accountValue f) :=
  asks_derive (isolated_callersCall f) s (isolated_zoneCall f)
    (fun _ _ => isolated_of_dialsCall) known

end Work

namespace Engine

variable (e : Engine) {m : Metric}

theorem asks_runPlan {P : Call → Prop} {plan : Plan.FormulaPlan}
    (h : ∀ p ∈ plan.queries, P p.2.toCall) : (e.runPlan plan).Asks P := by
  unfold runPlan
  refine asks_bind (asks_gather ?_) fun _ => asks_ofExcept _
  intro x hx
  obtain ⟨p, hp, rfl⟩ := List.mem_map.mp hx
  exact asks_ask e.store (h p hp)

theorem asksFor_runGeneric (hm : m.PlainTexts) (f : Filters) (b : Breakdown) :
    (e.runGeneric m f b).AsksFor (accountValue f) := by
  unfold runGeneric
  refine asks_ofExcept_bind fun query hquery => ?_
  exact asks_bind (asks_ask e.store (Plan.isolated_of_generic hm hquery)) fun _ => asks_ofExcept _

theorem asksFor_runChart (hm : m.PlainTexts) (f : Filters) :
    (e.runChart m f).AsksFor (accountValue f) := by
  unfold runChart
  refine asks_ofExcept_bind ?_
  rintro ⟨query, series⟩ hchart
  exact asks_bind (asks_ask e.store (Plan.isolated_of_chart hm hchart)) fun _ => asks_ofExcept _

theorem accountValue_narrowed (f : Filters) (first last : Calendar.Date) :
    accountValue (narrowed f first last) = accountValue f := rfl

theorem asksFor_runBucket (f : Filters) (settings : Fields) (w : BucketWindow) :
    (e.runBucket m f settings w).AsksFor (accountValue f) := by
  unfold runBucket
  refine asks_ofExcept_bind fun plan hplan => ?_
  have hqueries := Plan.isolated_of_formula hplan
  rw [accountValue_narrowed] at hqueries
  refine asks_bind (e.asks_runPlan hqueries) fun rows => ?_
  exact asks_bind (asks_ofExcept _) fun _ => asks_pure _

theorem asksFor_runFormulaChart (f : Filters) (settings : Fields) :
    (e.runFormulaChart m f settings).AsksFor (accountValue f) := by
  unfold runFormulaChart
  refine asks_bind (asks_ofExcept _) fun ws => ?_
  refine asks_bind (Pool.asks_run (e.asksFor_runBucket f settings) _ _ _) fun rows => ?_
  exact asks_ofExcept _

theorem asksFor_runFormula (f : Filters) (settings : Fields) (b : Breakdown) :
    (e.runFormula m f settings b).AsksFor (accountValue f) := by
  unfold runFormula
  refine asks_ofExcept_bind fun plan hplan => ?_
  exact asks_bind (e.asks_runPlan (Plan.isolated_of_formula hplan)) fun _ => asks_ofExcept _

theorem asksFor_run (hm : m.PlainTexts) (f : Filters) (o : Options) (s : Strategy)
    (b : Breakdown) : (e.run m f o s b).AsksFor (accountValue f) := by
  cases s with
  | generic => exact e.asksFor_runGeneric hm f b
  | timeSeries => exact e.asksFor_runChart hm f
  | special =>
    simp only [run]
    split
    · exact asks_bind (Work.asksFor_derive e.zones e.store f) fun _ => asks_ofExcept _
    · split
      · exact e.asksFor_runFormulaChart f o.settings
      · exact e.asksFor_runFormula f o.settings b

theorem asks_fillNames {P : Call → Prop} (r : Result) : (e.fillNames r).Asks P := by
  unfold fillNames
  split
  · exact asks_pure r
  · split
    · exact asks_pure _
    · refine asks_bind (asks_noteLookup _) fun _ => ?_
      exact asks_bind (asks_ofExcept _) fun _ => asks_pure _

theorem asksFor_execute (r : Request) (o : Option Options) :
    (e.execute r o).AsksFor (accountValue r.filters) := by
  unfold execute
  split
  · rename_i m _ hm
    have htexts := Registry.plainTexts_of_find? hm
    refine asks_bind (asks_ofExcept _) fun chosen => ?_
    refine asks_bind (asks_orElse (e.asksFor_run htexts r.filters _ _ _) _) fun result => ?_
    exact asks_bind (e.asks_fillNames result) fun _ => asks_pure _
  · exact asks_ofExcept _

end Engine

/-- No session reads for another account than its own: every query that is handed to the store while
a request is answered, work days are derived or profiles are loaded holds each table that it reads
to the account, and binds that account. -/
theorem accounts_apart :
    (∀ (e : Engine) (r : Request) (o : Option Options),
      (e.execute r o).Asks (Call.Isolated (accountValue r.filters))) ∧
    (∀ (known : Calendar.Zones) (s : Store) (f : Filters),
      (Work.derive known s f).Asks (Call.Isolated (accountValue f))) ∧
    ∀ (e : Engine) (v : View) (tokens : List String),
      (Profile.load e v tokens).Asks (Call.Isolated (accountValue v.filters)) :=
  ⟨fun e r o => e.asksFor_execute r o, Work.asksFor_derive, Profile.asksFor_load⟩

end Funnel
