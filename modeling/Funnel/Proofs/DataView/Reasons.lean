import Funnel.Proofs.Catalog.Families
import Funnel.Proofs.DataView.Rejection

/-!
# Reasons of a rejection

A rejection lists every reason against a request: those against its filters, and then one for each
of its metrics that is not in the registry. Every way in gives this list but one. The figure of an
account looks its metric up before anything is checked, and says nothing more of a request whose
metric it does not find.
-/

set_option autoImplicit false

namespace Funnel

namespace Session

variable {α : Type} {reasons : List String} {x : Session α}

/-- The session is rejected if there are any reasons, and then for all of them. -/
def RejectedFor (reasons : List String) (x : Session α) : Prop :=
  ∀ t rs, (x.run t).1 = .error (.invalidRequest rs) ↔ reasons ≠ [] ∧ rs = reasons

theorem rejectedFor_of_run
    (hwrong : reasons ≠ [] → ∀ t, (x.run t).1 = .error (.invalidRequest reasons))
    (hright : reasons = [] → x.RejectsNothing) : x.RejectedFor reasons := by
  intro t rs
  by_cases hreasons : reasons = []
  · constructor
    · intro hrun
      exact absurd ⟨rs, rfl⟩ (hright hreasons t _ hrun)
    · rintro ⟨hne, -⟩
      exact absurd hreasons hne
  · rw [hwrong hreasons t]
    constructor
    · intro hrun
      cases hrun
      exact ⟨hreasons, rfl⟩
    · rintro ⟨-, rfl⟩
      rfl

theorem RejectedFor.bind {β : Type} {k : α → Session β} (h : x.RejectedFor reasons)
    (hright : reasons = [] → (x >>= k).RejectsNothing) : (x >>= k).RejectedFor reasons := by
  refine rejectedFor_of_run (fun hreasons t => ?_) hright
  have hrun := (h t reasons).mpr ⟨hreasons, rfl⟩
  rw [run_bind_of_error (Prod.ext hrun rfl)]

/-- Two sessions that are rejected for reasons of their own are rejected alike exactly if these
are the same. -/
theorem rejectedFor_alike_iff {β : Type} {others : List String} {y : Session β}
    (hx : x.RejectedFor reasons) (hy : y.RejectedFor others) :
    (∀ t rs, (x.run t).1 = .error (.invalidRequest rs) ↔
      (y.run t).1 = .error (.invalidRequest rs)) ↔ reasons = others := by
  constructor
  · intro h
    by_cases hreasons : reasons = []
    · by_contra hne
      have hothers : others ≠ [] := fun h => hne (hreasons.trans h.symm)
      have hrun := (h .start others).mpr ((hy .start others).mpr ⟨hothers, rfl⟩)
      exact ((hx .start others).mp hrun).1 hreasons
    · have hrun := (h .start reasons).mp ((hx .start reasons).mpr ⟨hreasons, rfl⟩)
      exact ((hy .start reasons).mp hrun).2
  · rintro rfl t rs
    rw [hx t rs, hy t rs]

end Session

theorem metricReasons_eq_nil_iff {names : List String} :
    metricReasons names = [] ↔ ∀ name ∈ names, ∃ m, Registry.find? name = some m := by
  rw [metricReasons, List.map_eq_nil_iff, List.filter_eq_nil_iff]
  refine forall₂_congr fun name _ => ?_
  rw [← Option.ne_none_iff_exists']
  simp

theorem metricReasons_of_known {name : String} {m : Metric} (h : Registry.find? name = some m) :
    metricReasons [name] = [] :=
  metricReasons_eq_nil_iff.mpr fun _ hname => ⟨m, List.mem_singleton.mp hname ▸ h⟩

theorem metricReasons_of_unknown {name : String} (h : Registry.find? name = none) :
    metricReasons [name] = [notFound name] := by
  rw [metricReasons, List.filter_cons_of_pos (by simp [h])]
  rfl

theorem View.check_of_reasons {v : View} {metrics : List String}
    (h : v.filters.reasons ++ metricReasons metrics ≠ []) :
    v.check metrics = .error (.invalidRequest (v.filters.reasons ++ metricReasons metrics)) := by
  unfold View.check
  split
  · next hnil => exact absurd hnil h
  · rfl

theorem not_wrong_of_reasons {f : Filters} {metrics : List String}
    (h : f.reasons ++ metricReasons metrics = []) :
    ¬ (f.reasons ≠ [] ∨ ∃ name ∈ metrics, Registry.find? name = none) := by
  obtain ⟨hf, hmetrics⟩ := List.append_eq_nil_iff.mp h
  rintro (hwrong | ⟨name, hname, hnone⟩)
  · exact hwrong hf
  · obtain ⟨m, hm⟩ := metricReasons_eq_nil_iff.mp hmetrics name hname
    cases hnone.symm.trans hm

namespace Engine

theorem rejectedFor_execute (e : Engine) (r : Request) (o : Option Options) :
    (e.execute r o).RejectedFor (r.filters.reasons ++ metricReasons [r.metricName]) := by
  apply Session.rejectedFor_of_run
  · intro hreasons t
    rw [execute]
    split
    · next hnil _ => exact absurd hnil hreasons
    · rfl
  · intro hnil
    apply (e.rejectedIff_execute r o).rejectsNothing
    simpa using not_wrong_of_reasons hnil

theorem rejectedFor_userTable (e : Engine) (v : View) (limit : Int) (users metrics : List String) :
    (e.userTable v limit users metrics).RejectedFor
      (v.filters.reasons ++ metricReasons metrics) := by
  apply Session.rejectedFor_of_run
  · intro hreasons t
    rw [userTable, View.check_of_reasons hreasons]
    rfl
  · intro hnil
    exact (e.rejectedIff_userTable v limit users metrics).rejectsNothing
      (not_wrong_of_reasons hnil)

theorem rejectedFor_periodMatrix (e : Engine) (v : View) (limit : Int)
    (users metrics : List String) {kind : String} {g : Granularity}
    (hkind : periodGranularity? kind = some g) :
    (e.periodMatrix v limit users metrics kind).RejectedFor
      (v.filters.reasons ++ metricReasons metrics) := by
  apply Session.rejectedFor_of_run
  · intro hreasons t
    have hg : periodGranularity kind = .ok g := by rw [periodGranularity, hkind]
    rw [periodMatrix, hg, View.check_of_reasons hreasons]
    rfl
  · intro hnil
    apply (e.rejectedIff_periodMatrix v limit users metrics kind).rejectsNothing
    have hright := not_wrong_of_reasons hnil
    rw [not_or] at hright ⊢
    rw [not_or]
    exact ⟨hright.1, hright.2, by simp [hkind]⟩

theorem rejectedFor_accountChart (e : Engine) (v : View) (metric : String) :
    (e.accountChart v metric).RejectedFor (v.filters.reasons ++ metricReasons [metric]) := by
  have hexecute := e.rejectedFor_execute ⟨metric, v.filters, some ⟨some "line", none, v.settings⟩⟩
    none
  apply hexecute.bind
  intro hnil
  apply (e.rejectedIff_accountChart v metric).rejectsNothing
  simpa using not_wrong_of_reasons hnil

/-- The figure of an account lists the reasons against its filters only for a metric that it
finds. -/
theorem rejectedFor_accountFigure (e : Engine) (v : View) (metric : String) :
    (e.accountFigure v metric).RejectedFor
      (if Registry.find? metric = none then [notFound metric] else v.filters.reasons) := by
  by_cases hm : Registry.find? metric = none
  · rw [if_pos hm]
    have hrun : ∀ t, ((e.accountFigure v metric).run t).1 =
        .error (.invalidRequest [notFound metric]) := by
      intro t
      unfold accountFigure
      rw [hm]
      rfl
    exact Session.rejectedFor_of_run (fun _ => hrun) fun hnil => absurd hnil (List.cons_ne_nil _ _)
  · rw [if_neg hm]
    have hright := (e.rejectedIff_accountFigure v metric).rejectsNothing
    obtain ⟨m, hfound⟩ := Option.ne_none_iff_exists'.mp hm
    have hexecute := e.rejectedFor_execute (v.request metric [] []) none
    change (e.execute (v.request metric [] []) none).RejectedFor
      (v.filters.reasons ++ metricReasons [metric]) at hexecute
    rw [metricReasons_of_known hfound, List.append_nil] at hexecute
    unfold accountFigure at hright ⊢
    rw [hfound] at hright ⊢
    refine hexecute.bind fun hnil => hright ?_
    rw [not_or]
    exact ⟨not_not.mpr hnil, nofun⟩

end Engine

/-- Every reason against the filters and every metric that is not found, in this order, is what each
way in rejects a request for, and it rejects no other. Only the figure of an account stops at a
metric that it does not find, so that it gives the reasons that the chart gives exactly if the
metric is found or nothing is wrong with the filters. -/
theorem rejected_for_all_reasons (e : Engine) :
    (∀ r o, (e.execute r o).RejectedFor (r.filters.reasons ++ metricReasons [r.metricName])) ∧
    (∀ v limit users metrics, (e.userTable v limit users metrics).RejectedFor
      (v.filters.reasons ++ metricReasons metrics)) ∧
    (∀ v limit users metrics kind, periodGranularity? kind ≠ none →
      (e.periodMatrix v limit users metrics kind).RejectedFor
        (v.filters.reasons ++ metricReasons metrics)) ∧
    ∀ v metric,
      (e.accountChart v metric).RejectedFor (v.filters.reasons ++ metricReasons [metric]) ∧
      (e.accountFigure v metric).RejectedFor
        (if Registry.find? metric = none then [notFound metric] else v.filters.reasons) ∧
      ((∀ t reasons, ((e.accountFigure v metric).run t).1 = .error (.invalidRequest reasons) ↔
          ((e.accountChart v metric).run t).1 = .error (.invalidRequest reasons)) ↔
        Registry.find? metric ≠ none ∨ v.filters.reasons = []) := by
  refine ⟨e.rejectedFor_execute, e.rejectedFor_userTable, ?_, fun v metric => ?_⟩
  · intro v limit users metrics kind hkind
    obtain ⟨g, hg⟩ := Option.ne_none_iff_exists'.mp hkind
    exact e.rejectedFor_periodMatrix v limit users metrics hg
  · have hfigure := e.rejectedFor_accountFigure v metric
    have hchart := e.rejectedFor_accountChart v metric
    refine ⟨hchart, hfigure, ?_⟩
    rw [Session.rejectedFor_alike_iff hfigure hchart]
    by_cases hm : Registry.find? metric = none
    · rw [if_pos hm, metricReasons_of_unknown hm, List.self_eq_append_left]
      exact ⟨.inr, (·.resolve_left (not_not.mpr hm))⟩
    · obtain ⟨m, hfound⟩ := Option.ne_none_iff_exists'.mp hm
      rw [if_neg hm, metricReasons_of_known hfound, List.append_nil]
      exact iff_of_true rfl (.inl hm)

/-- A view of an account without a name, over a range that ends before it starts. -/
def View.backwards : View := ⟨some "", ⟨some "2024-02-10", some "2024-02-01"⟩, []⟩

theorem View.reasons_backwards : View.backwards.filters.reasons =
    ["Account ID is required", "Start date must be before end date"] := by decide

theorem metricReasons_nope : Registry.find? "nope" = none ∧
    metricReasons ["nope"] = ["Metric 'nope' not found"] := by
  have hnone : Registry.find? "nope" = none :=
    Registry.find?_eq_none (by decide) (by decide) (by decide)
  have hname : notFound "nope" = "Metric 'nope' not found" := by decide
  rw [metricReasons_of_unknown hnone, hname]
  exact ⟨hnone, rfl⟩

/-- A matrix of a metric that nobody knows. -/
theorem matrix_rejected_for_all_reasons :
    let e : Engine := ⟨.ofFunction fun _ _ => .ok (.list []), .nowhere, fun _ => none, 10, fun _ => 0⟩
    periodGranularity? "weekly" ≠ none ∧
    ((e.periodMatrix .backwards 10 [] ["nope"] "weekly").run .start).1 = .error (.invalidRequest
      ["Account ID is required", "Start date must be before end date",
        "Metric 'nope' not found"]) := by
  intro e
  have hkind : periodGranularity? "weekly" ≠ none := by decide
  obtain ⟨-, -, hmatrix, -⟩ := rejected_for_all_reasons e
  have hrejected := hmatrix .backwards 10 [] ["nope"] "weekly" hkind
  rw [metricReasons_nope.2, View.reasons_backwards] at hrejected
  exact ⟨hkind, (hrejected .start _).mpr ⟨List.cons_ne_nil _ _, rfl⟩⟩

/-- The chart of a metric that nobody knows is rejected for all reasons, its figure for one. -/
theorem figure_rejected_for_one_reason :
    let e : Engine := ⟨.ofFunction fun _ _ => .ok (.list []), .nowhere, fun _ => none, 10, fun _ => 0⟩
    ((e.accountChart .backwards "nope").run .start).1 = .error (.invalidRequest
      ["Account ID is required", "Start date must be before end date",
        "Metric 'nope' not found"]) ∧
    ((e.accountFigure .backwards "nope").run .start).1 =
      .error (.invalidRequest ["Metric 'nope' not found"]) := by
  intro e
  obtain ⟨hunknown, hmetric⟩ := metricReasons_nope
  have hchart := e.rejectedFor_accountChart .backwards "nope"
  have hfigure := e.rejectedFor_accountFigure .backwards "nope"
  rw [hmetric, View.reasons_backwards] at hchart
  rw [if_pos hunknown, ← metricReasons_of_unknown hunknown, hmetric] at hfigure
  exact ⟨(hchart .start _).mpr ⟨List.cons_ne_nil _ _, rfl⟩,
    (hfigure .start _).mpr ⟨List.cons_ne_nil _ _, rfl⟩⟩

end Funnel
