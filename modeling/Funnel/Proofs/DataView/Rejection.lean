import Funnel.DataView.Account
import Funnel.Proofs.DataView.Answered
import Funnel.Proofs.Store.Faults

/-!
# Requests that are rejected

Every way in checks the filters and the names of the metrics before it does anything else, and asks
for figures with requests that pass the same check. A rejection is therefore a statement on the
request alone: the store is not asked, and no name is looked up.
-/

set_option autoImplicit false

namespace Funnel

def Fault.IsRejection (e : Fault) : Prop := ∃ reasons, e = .invalidRequest reasons

/-- A step that is no check of a request, whatever else can go wrong in it. -/
abbrev Fault.RejectsNothing {α : Type} (x : Except Fault α) : Prop :=
  FailsAs (fun e => ¬ e.IsRejection) x

namespace Session

variable {α : Type} {wrong : Prop} {x : Session α}

abbrev RejectsNothing (x : Session α) : Prop := x.FailsAs fun e => ¬ e.IsRejection

/-- The session is rejected exactly if something is wrong, and then it leaves no trace. -/
def RejectedIff (wrong : Prop) (x : Session α) : Prop :=
  ∀ t, ((∃ reasons, (x.run t).1 = .error (.invalidRequest reasons)) ↔ wrong) ∧
    ∀ reasons, (x.run t).1 = .error (.invalidRequest reasons) → (x.run t).2 = t

theorem rejectedIff_of_wrong (hwrong : wrong)
    (h : ∀ t, ∃ reasons, x.run t = (.error (.invalidRequest reasons), t)) :
    x.RejectedIff wrong := by
  intro t
  obtain ⟨reasons, hrun⟩ := h t
  rw [hrun]
  exact ⟨⟨fun _ => hwrong, fun _ => ⟨reasons, rfl⟩⟩, fun _ _ => rfl⟩

theorem rejectedIff_of_right (hright : ¬ wrong) (h : x.RejectsNothing) : x.RejectedIff wrong := by
  have hnever : ∀ t reasons, (x.run t).1 ≠ .error (.invalidRequest reasons) :=
    fun t reasons hrun => h t _ hrun ⟨reasons, rfl⟩
  intro t
  constructor
  · constructor
    · rintro ⟨reasons, hrun⟩
      exact absurd hrun (hnever t reasons)
    · intro hwrong
      exact absurd hwrong hright
  · intro reasons hrun
    exact absurd hrun (hnever t reasons)

theorem RejectedIff.rejectsNothing (h : x.RejectedIff wrong) (hright : ¬ wrong) :
    x.RejectsNothing := by
  rintro t e he ⟨reasons, rfl⟩
  exact hright ((h t).1.mp ⟨reasons, he⟩)

/-- What goes on from a session is rejected with it, if it rejects nothing itself. -/
theorem RejectedIff.bind {β : Type} {k : α → Session β} (h : x.RejectedIff wrong)
    (hright : ¬ wrong → (x >>= k).RejectsNothing) : (x >>= k).RejectedIff wrong := by
  by_cases hwrong : wrong
  · apply rejectedIff_of_wrong hwrong
    intro t
    obtain ⟨reasons, hrun⟩ := (h t).1.mpr hwrong
    exact ⟨reasons, run_bind_of_error (Prod.ext hrun ((h t).2 reasons hrun))⟩
  · exact rejectedIff_of_right hwrong (hright hwrong)

end Session

namespace Fault

variable {α : Type}

theorem rejectsNothing_ok (a : α) : RejectsNothing (.ok a) := failsAs_ok a

theorem rejectsNothing_error {e : Fault} (h : ∀ reasons, e ≠ .invalidRequest reasons) :
    RejectsNothing (.error e : Except Fault α) :=
  failsAs_error fun ⟨reasons, he⟩ => h reasons he

end Fault

open Fault (rejectsNothing_ok rejectsNothing_error failsAs_bind failsAs_mapM failsAs_foldlM)

theorem Value.rejectsNothing_get (v : Value) (name : String) :
    Fault.RejectsNothing (v.get name) := by
  unfold Value.get
  split
  · exact rejectsNothing_ok _
  · exact rejectsNothing_error nofun

theorem Value.rejectsNothing_entries (v : Value) : Fault.RejectsNothing v.entries := by
  unfold Value.entries
  split
  · exact rejectsNothing_ok _
  · exact rejectsNothing_ok _
  · exact rejectsNothing_ok _
  · exact rejectsNothing_error nofun

theorem rejectsNothing_roleOf (role : Value) : Fault.RejectsNothing (roleOf role) := by
  unfold roleOf
  split
  · exact rejectsNothing_ok _
  · exact rejectsNothing_error nofun

namespace NameSource

theorem rejectsNothing_entryOf? (row : Value) : Fault.RejectsNothing (entryOf? row) := by
  unfold entryOf?
  dsimp only
  split
  · apply failsAs_bind (rejectsNothing_ok _)
    intro id
    apply failsAs_bind (Value.rejectsNothing_get _ _)
    intro name
    split
    · exact rejectsNothing_ok _
    · exact rejectsNothing_error nofun
  · exact rejectsNothing_error (e := .noSuchField) nofun

theorem rejectsNothing_namesOfRows (rows : Value) : Fault.RejectsNothing (namesOfRows rows) := by
  have hnames : ∀ entries : List Value, Fault.RejectsNothing (do
      .ok (Named.putAll [] ((← entries.mapM entryOf?).filterMap id))) := by
    intro entries
    apply failsAs_bind (failsAs_mapM rejectsNothing_entryOf? entries)
    intro names
    exact rejectsNothing_ok _
  unfold namesOfRows
  dsimp only
  split
  · exact failsAs_bind rows.rejectsNothing_entries hnames
  · exact failsAs_bind (rejectsNothing_ok _) hnames

theorem rejectsNothing_resolve (source : NameSource) (ids : List String) :
    Fault.RejectsNothing (source.resolve ids) := by
  unfold resolve
  split
  · exact rejectsNothing_ok _
  · exact rejectsNothing_ok _
  · split
    · exact rejectsNothing_namesOfRows _
    · exact rejectsNothing_ok _

end NameSource

namespace Profile

theorem rejectsNothing_ofRow? (row : Value) : Fault.RejectsNothing (ofRow? row) := by
  unfold ofRow?
  apply failsAs_bind (row.rejectsNothing_get _)
  intro id
  split
  · apply failsAs_bind (row.rejectsNothing_get _)
    intro name
    apply failsAs_bind (row.rejectsNothing_get _)
    intro role
    exact rejectsNothing_ok _
  · exact rejectsNothing_ok _

theorem rejectsNothing_byUser (rows : Value) : Fault.RejectsNothing (byUser rows) := by
  apply failsAs_bind rows.rejectsNothing_entries
  intro entries
  apply failsAs_bind (failsAs_mapM rejectsNothing_ofRow? entries)
  intro profiles
  exact rejectsNothing_ok _

theorem rejectsNothing_emptyRow (p : Profile) : Fault.RejectsNothing p.emptyRow := by
  unfold emptyRow
  split
  · exact rejectsNothing_ok _
  · exact rejectsNothing_error nofun

theorem rejectsNothing_emptyPeriods (p : Profile) (metric : String) :
    Fault.RejectsNothing (p.emptyPeriods metric) := by
  unfold emptyPeriods
  split
  · exact rejectsNothing_ok _
  · exact rejectsNothing_error nofun

/-- Without an answer of the store there are no profiles, whatever the store fails with. -/
theorem rejectsNothing_load (e : Engine) (v : View) (tokens : List String) :
    (load e v tokens).RejectsNothing := by
  unfold load
  split
  · exact Session.failsAs_pure _
  · refine Session.failsAs_bind (Session.failsAs_orElse _ _) fun rows => ?_
    refine Session.failsAs_bind (Session.failsAs_ofExcept (rejectsNothing_byUser rows)) ?_
    intro found
    exact Session.failsAs_pure _

end Profile

theorem rejectsNothing_addPeriod (rows : List PeriodRow) (task : PeriodTask) (x : Float) :
    Fault.RejectsNothing (addPeriod rows task x) := by
  unfold addPeriod
  dsimp only
  split
  · exact rejectsNothing_ok _
  · apply failsAs_bind (task.profile.rejectsNothing_emptyPeriods _)
    intro row
    exact rejectsNothing_ok _

/-- The filters of every period pass the check that those of the view pass. Where the calendar ends
before the bucket after the last one, the periods are not found, which is no check. -/
theorem View.periods_cases {v : View} (hf : v.filters.reasons = []) (g : Granularity) :
    (∃ periods, v.periods g = .ok periods ∧
      ∀ d ∈ periods, (v.during d.range).filters.reasons = []) ∨
    ∃ fault, v.periods g = .error fault ∧ ¬ fault.IsRejection := by
  obtain ⟨start, finish, hc⟩ := Filters.checked_of_reasons hf
  by_cases hend : bucketEnd finish g ≤ Calendar.lastDay
  · left
    obtain ⟨ws, hws⟩ := exists_bucketWindows hc.ordered hend
    obtain ⟨-, -, hparts⟩ := of_bucketWindows hc.ordered hws
    refine ⟨_, Engine.periods_eq hc.days hws, ?_⟩
    intro d hd
    obtain ⟨-, -, -, hreasons, -⟩ := Period.days_of_mem hf hc.days hparts hd
    exact hreasons
  · right
    refine ⟨_, View.periods_beyond hc.days hc.ordered (Nat.lt_of_not_le hend), ?_⟩
    rintro ⟨reasons, hreasons⟩
    cases g with
    | day | week | month => cases hreasons

theorem Request.reasons_eq_nil_iff (r : Request) :
    r.reasons = [] ↔ r.filters.reasons = [] ∧ Registry.find? r.metricName ≠ none := by
  rw [Request.reasons, List.append_eq_nil_iff]
  apply and_congr_right
  intro _
  cases h : Registry.find? r.metricName <;> simp [metricReasons, h]

theorem View.check_cases (v : View) (metrics : List String) :
    ((v.filters.reasons = [] ∧ ∀ name ∈ metrics, ∃ m, Registry.find? name = some m) ∧
      v.check metrics = .ok ()) ∨
    ((v.filters.reasons ≠ [] ∨ ∃ name ∈ metrics, Registry.find? name = none) ∧
      ∃ reasons, v.check metrics = .error (.invalidRequest reasons)) := by
  by_cases hright : v.filters.reasons = [] ∧ ∀ name ∈ metrics, ∃ m, Registry.find? name = some m
  · exact .inl ⟨hright, View.check_of_known hright.1 hright.2⟩
  · right
    constructor
    · by_contra hnot
      push Not at hnot
      exact hright ⟨hnot.1, fun name hname => Option.ne_none_iff_exists'.mp (hnot.2 name hname)⟩
    · cases hcheck : v.check metrics with
      | ok _ => exact absurd (View.of_check hcheck) hright
      | error fault =>
        unfold View.check at hcheck
        split at hcheck
        · cases hcheck
        · exact ⟨_, hcheck.symm⟩

namespace Engine

theorem rejectsNothing_fillNames (e : Engine) (r : Result) : (e.fillNames r).RejectsNothing := by
  unfold fillNames
  split
  · exact Session.failsAs_pure _
  · split
    · exact Session.failsAs_pure _
    · refine Session.failsAs_bind (Session.failsAs_noteLookup _) fun _ => ?_
      refine Session.failsAs_bind (Session.failsAs_ofExcept (e.names.rejectsNothing_resolve _)) ?_
      intro names
      exact Session.failsAs_pure _

/-- What goes wrong past the check is answered with an empty result, and looking up names rejects
nothing. -/
theorem rejectedIff_execute (e : Engine) (r : Request) (o : Option Options) :
    (e.execute r o).RejectedIff
      (r.filters.reasons ≠ [] ∨ Registry.find? r.metricName = none) := by
  by_cases hright : r.reasons = []
  · obtain ⟨hf, hname⟩ := r.reasons_eq_nil_iff.mp hright
    obtain ⟨m, hm⟩ := Option.ne_none_iff_exists'.mp hname
    obtain ⟨t, ht⟩ := Registry.exists_table hm
    obtain ⟨s, b, hs⟩ := exists_selectStrategy ht ((o.or r.options).getD .none)
    apply Session.rejectedIff_of_right
    · rintro (hwrong | hwrong)
      · exact hwrong hf
      · exact hname hwrong
    · rw [execute, hright, hm]
      refine Session.failsAs_bind (Session.failsAs_ofExcept (hs ▸ Fault.failsAs_ok _)) ?_
      rintro ⟨s, b⟩
      refine Session.failsAs_bind (Session.failsAs_orElse _ _) fun result => ?_
      refine Session.failsAs_bind (e.rejectsNothing_fillNames result) fun named => ?_
      exact Session.failsAs_pure _
  · apply Session.rejectedIff_of_wrong
    · by_contra hnot
      rw [not_or, not_not] at hnot
      exact hright (r.reasons_eq_nil_iff.mpr hnot)
    · intro t
      refine ⟨r.reasons, ?_⟩
      rw [execute]
      split
      · next hreasons _ => exact absurd hreasons hright
      · rfl

theorem rejectsNothing_userCell (e : Engine) {v : View} (hf : v.filters.reasons = [])
    {name : String} {m : Metric} (hm : Registry.find? name = some m) (p : Profile) :
    (e.userCell v p name).RejectsNothing := by
  cases hrole : roleOf p.role with
  | ok role => exact (e.answers_userCell hf hm hrole).failsAs
  | error fault =>
    unfold userCell
    rw [hm]
    refine Session.failsAs_ofExcept_bind (rejectsNothing_roleOf p.role) fun role hok => ?_
    cases hrole.symm.trans hok

theorem rejectedIff_userTable (e : Engine) (v : View) (limit : Int)
    (users metrics : List String) : (e.userTable v limit users metrics).RejectedIff
      (v.filters.reasons ≠ [] ∨ ∃ name ∈ metrics, Registry.find? name = none) := by
  rcases v.check_cases metrics with ⟨⟨hf, hmetrics⟩, hcheck⟩ | ⟨hwrong, reasons, hcheck⟩
  · apply Session.rejectedIff_of_right
    · rintro (hwrong | ⟨name, hname, hnone⟩)
      · exact hwrong hf
      · obtain ⟨m, hm⟩ := hmetrics name hname
        cases hnone.symm.trans hm
    · unfold userTable
      rw [hcheck]
      refine Session.failsAs_bind (Session.failsAs_ofExcept (rejectsNothing_ok ())) fun _ => ?_
      refine Session.failsAs_bind (Profile.rejectsNothing_load e v users) fun profiles => ?_
      refine Session.failsAs_bind (Pool.failsAs_run ?_ limit e.schedule) fun cells => ?_
      · rintro ⟨p, name⟩ htask
        obtain ⟨m, hm⟩ := hmetrics name (mem_tasks.mp htask).2
        exact e.rejectsNothing_userCell hf hm p
      · refine Session.failsAs_bind (Session.failsAs_ofExcept (failsAs_mapM ?_ profiles))
          fun rows => Session.failsAs_pure _
        intro p
        exact failsAs_bind p.rejectsNothing_emptyRow fun row => rejectsNothing_ok _
  · apply Session.rejectedIff_of_wrong hwrong
    intro t
    refine ⟨reasons, ?_⟩
    unfold userTable
    rw [hcheck]
    rfl

theorem rejectedIff_periodMatrix (e : Engine) (v : View) (limit : Int)
    (users metrics : List String) (kind : String) :
    (e.periodMatrix v limit users metrics kind).RejectedIff
      (v.filters.reasons ≠ [] ∨ (∃ name ∈ metrics, Registry.find? name = none) ∨
        periodGranularity? kind = none) := by
  cases hkind : periodGranularity? kind with
  | none =>
    apply Session.rejectedIff_of_wrong (.inr (.inr rfl))
    intro t
    refine ⟨["Unknown period type '" ++ kind ++ "'"], ?_⟩
    unfold periodMatrix periodGranularity
    rw [hkind]
    rfl
  | some g =>
    have hg : periodGranularity kind = .ok g := by rw [periodGranularity, hkind]
    rcases v.check_cases metrics with ⟨⟨hf, hmetrics⟩, hcheck⟩ | ⟨hwrong, reasons, hcheck⟩
    · apply Session.rejectedIff_of_right
      · rintro (hwrong | ⟨name, hname, hnone⟩ | hnone)
        · exact hwrong hf
        · obtain ⟨m, hm⟩ := hmetrics name hname
          cases hnone.symm.trans hm
        · cases hnone
      · unfold periodMatrix
        rw [hg, hcheck]
        refine Session.failsAs_ofExcept_bind (rejectsNothing_ok g) fun _ hkept => ?_
        cases hkept
        refine Session.failsAs_bind (Session.failsAs_ofExcept (rejectsNothing_ok ())) fun _ => ?_
        rcases View.periods_cases hf g with ⟨periods, hp, hreasons⟩ | ⟨fault, hp, hspared⟩
        · rw [hp]
          refine Session.failsAs_ofExcept_bind (rejectsNothing_ok periods) fun _ hkept => ?_
          cases hkept
          refine Session.failsAs_bind (Profile.rejectsNothing_load e v users) fun profiles => ?_
          refine Session.failsAs_bind (Pool.failsAs_run ?_ limit e.schedule) fun values => ?_
          · intro task htask
            obtain ⟨-, hname, hd⟩ := mem_periodTasks.mp htask
            obtain ⟨m, hm⟩ := hmetrics task.metric hname
            have hcell := e.rejectsNothing_userCell (hreasons _ hd) hm task.profile
            exact Session.failsAs_bind hcell fun cell => Session.failsAs_pure _
          · refine Session.failsAs_ofExcept (failsAs_foldlM ?_ _ _)
            intro rows figure
            exact rejectsNothing_addPeriod rows figure.1 figure.2
        · rw [hp]
          refine Session.failsAs_ofExcept_bind (Fault.failsAs_error hspared) fun _ hok => ?_
          cases hok
    · apply Session.rejectedIff_of_wrong
      · exact hwrong.imp_right .inl
      · intro t
        refine ⟨reasons, ?_⟩
        unfold periodMatrix
        rw [hg, hcheck]
        rfl

theorem rejectedIff_accountFigure (e : Engine) (v : View) (metric : String) :
    (e.accountFigure v metric).RejectedIff
      (v.filters.reasons ≠ [] ∨ Registry.find? metric = none) := by
  unfold accountFigure
  cases hm : Registry.find? metric with
  | none =>
    apply Session.rejectedIff_of_wrong (.inr rfl)
    intro t
    exact ⟨[notFound metric], rfl⟩
  | some m =>
    have hexecute := e.rejectedIff_execute (v.request metric [] []) none
    change (e.execute (v.request metric [] []) none).RejectedIff
      (v.filters.reasons ≠ [] ∨ Registry.find? metric = none) at hexecute
    rw [hm] at hexecute
    apply hexecute.bind
    intro hright
    rw [not_or, not_not] at hright
    refine Session.Answers.failsAs (Q := fun _ => True) ?_
    refine Session.answers_bind (e.answers_request hright.1 hm [] []) fun response hfinite => ?_
    obtain ⟨display, hdisplay⟩ := Display.exists_ofDouble m.unit v.timeFormat fun _ => hfinite
    refine Session.answers_bind (Session.answers_ofExcept hdisplay rfl) fun _ _ => ?_
    exact Session.answers_pure trivial

theorem rejectedIff_accountChart (e : Engine) (v : View) (metric : String) :
    (e.accountChart v metric).RejectedIff
      (v.filters.reasons ≠ [] ∨ Registry.find? metric = none) := by
  have hexecute := e.rejectedIff_execute ⟨metric, v.filters, some ⟨some "line", none, v.settings⟩⟩
    none
  apply hexecute.bind
  intro hright
  exact Session.failsAs_bind (hexecute.rejectsNothing hright) fun _ => Session.failsAs_pure _

end Engine

/-- Rejection comes before any query. Whatever the store does, each way in rejects a request exactly
if there is a reason against its filters, or a metric is not in the registry, or a matrix asks for
periods that there are not; and nothing is asked or looked up before that. -/
theorem rejected_before_queries (e : Engine) :
    (∀ r o, (e.execute r o).RejectedIff
      (r.filters.reasons ≠ [] ∨ Registry.find? r.metricName = none)) ∧
    (∀ v limit users metrics, (e.userTable v limit users metrics).RejectedIff
      (v.filters.reasons ≠ [] ∨ ∃ name ∈ metrics, Registry.find? name = none)) ∧
    (∀ v limit users metrics kind, (e.periodMatrix v limit users metrics kind).RejectedIff
      (v.filters.reasons ≠ [] ∨ (∃ name ∈ metrics, Registry.find? name = none) ∨
        periodGranularity? kind = none)) ∧
    (∀ v metric, (e.accountFigure v metric).RejectedIff
      (v.filters.reasons ≠ [] ∨ Registry.find? metric = none)) ∧
    ∀ v metric, (e.accountChart v metric).RejectedIff
      (v.filters.reasons ≠ [] ∨ Registry.find? metric = none) :=
  ⟨e.rejectedIff_execute, e.rejectedIff_userTable, e.rejectedIff_periodMatrix,
    e.rejectedIff_accountFigure, e.rejectedIff_accountChart⟩

end Funnel
