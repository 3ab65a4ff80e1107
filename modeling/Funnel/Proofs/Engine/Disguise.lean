import Funnel.DataView.Users
import Funnel.Proofs.Filter.Disguise
import Funnel.Proofs.Store.Asks

/-!
# Requests with disguised identifiers

Every strategy reads filters through their cleaned form, so a request does the same for a list of
identifiers and for its disguise: it asks the same in the same order and answers the same, whatever
the store says. Only the filters that a response repeats are those of its request.
-/

set_option autoImplicit false

namespace Funnel

namespace Plan

variable (f : Filters) (m : Metric) (settings : Fields) (b : Breakdown)

@[simp]
theorem generic_cleaned : generic m f.cleaned b = generic m f b := by
  simp only [generic, Standard.apply_cleaned]

@[simp]
theorem chart_cleaned (g : Option Granularity) : chart m f.cleaned g = chart m f g := by
  simp only [chart, chartDays, Filters.bounds_cleaned, Standard.conditions_cleaned]

@[simp]
theorem sumQuery_cleaned (t : Table) (expression : String) (narrowed : Bool) :
    sumQuery t expression f.cleaned narrowed b = sumQuery t expression f narrowed b := by
  simp only [sumQuery, Standard.apply_cleaned]

theorem recordsQuery_cleaned (columns more : List String) (value : String)
    (conditions : List String) :
    recordsQuery f.cleaned columns more value conditions =
      recordsQuery f columns more value conditions := by
  simp only [recordsQuery, Standard.apply_cleaned]

theorem roiPlan_cleaned : roiPlan f.cleaned = roiPlan f := by
  simp only [roiPlan, spendQuery, sumQuery_cleaned]

/-- Of the requested reps only the identifiers are given a row of their own. -/
theorem repRoiPlan_cleaned : repRoiPlan m f.cleaned settings b = repRoiPlan m f settings b := by
  simp only [repRoiPlan, repStatsQuery, totalAppointmentsQuery, spendQuery, sumQuery_cleaned,
    Standard.apply_cleaned, Filters.kept_repIds_cleaned]

theorem costPerBookedCallPlan_cleaned :
    costPerBookedCallPlan f.cleaned b = costPerBookedCallPlan f b := by
  simp only [costPerBookedCallPlan, totalAppointmentsQuery, spendQuery, entitiesQuery,
    sumQuery_cleaned, Standard.apply_cleaned]

theorem speedToLeadPlan_cleaned :
    speedToLeadPlan f.cleaned settings = speedToLeadPlan f settings := by
  simp only [speedToLeadPlan, pairsQuery, accountQuery, Standard.apply_cleaned,
    Standard.users_cleaned, Standard.accountValue_cleaned]

theorem leadToAppointmentPlan_cleaned :
    leadToAppointmentPlan f.cleaned = leadToAppointmentPlan f := by
  simp only [leadToAppointmentPlan, conversionQuery, Standard.apply_cleaned,
    Standard.users_cleaned]

theorem dataCompletionPlan_cleaned : dataCompletionPlan f.cleaned = dataCompletionPlan f := by
  simp only [dataCompletionPlan, completionQuery, recordsQuery_cleaned]

theorem overduePlan_cleaned (formula : Formula) :
    overduePlan formula f.cleaned = overduePlan formula f := by
  simp only [overduePlan, overdueQuery, recordsQuery_cleaned]

theorem cashPerDialPlan_cleaned : cashPerDialPlan f.cleaned = cashPerDialPlan f := by
  simp only [cashPerDialPlan, Standard.apply_cleaned]

theorem bookingLeadTimePlan_cleaned :
    bookingLeadTimePlan f.cleaned settings = bookingLeadTimePlan f settings := by
  simp only [bookingLeadTimePlan, leadTimesQuery, Standard.apply_cleaned]

@[simp]
theorem formula_cleaned : formula m f.cleaned settings b = formula m f settings b := by
  simp only [formula, roiPlan_cleaned, repRoiPlan_cleaned, costPerBookedCallPlan_cleaned,
    speedToLeadPlan_cleaned, leadToAppointmentPlan_cleaned, dataCompletionPlan_cleaned,
    overduePlan_cleaned, cashPerDialPlan_cleaned, bookingLeadTimePlan_cleaned]

end Plan

namespace Work

variable (f : Filters)

@[simp]
theorem dialsCall_cleaned (callers : List String) :
    dialsCall f.cleaned callers = dialsCall f callers :=
  rfl

@[simp]
theorem findCallers_cleaned (store : Store) :
    findCallers store f.cleaned = findCallers store f := by
  simp only [findCallers, callersCall, Filters.kept_setterIds_cleaned,
    Standard.accountValue_cleaned]

@[simp]
theorem derive_cleaned (known : Calendar.Zones) (store : Store) :
    derive known store f.cleaned = derive known store f := by
  simp only [derive, findCallers_cleaned, zoneCall, dialsCall_cleaned,
    Standard.accountValue_cleaned]

end Work

namespace Engine

variable (e : Engine) (m : Metric) (f : Filters) (settings : Fields)

theorem narrowed_cleaned (first last : Calendar.Date) :
    narrowed f.cleaned first last = (narrowed f first last).cleaned := rfl

theorem runBucket_cleaned : e.runBucket m f.cleaned settings = e.runBucket m f settings := by
  funext w
  simp only [runBucket, narrowed_cleaned, Plan.formula_cleaned]

theorem windows_cleaned : windows f.cleaned = windows f := rfl

theorem workResult_cleaned (b : Breakdown) (days : List Work.WorkDay) :
    workResult m f.cleaned b days = workResult m f b days := rfl

@[simp]
theorem run_cleaned (o : Options) (s : Strategy) (b : Breakdown) :
    e.run m f.cleaned o s b = e.run m f o s b := by
  simp only [run, runGeneric, runChart, runWork, runFormulaChart, runFormula, runBucket_cleaned,
    windows_cleaned, workResult_cleaned, Plan.generic_cleaned, Plan.chart_cleaned,
    Plan.formula_cleaned, Work.derive_cleaned]

variable {f} {f' : Filters} {users users' : List String}

theorem run_of_cleaned_eq (h : f'.cleaned = f.cleaned) (o : Options) (s : Strategy)
    (b : Breakdown) : e.run m f' o s b = e.run m f o s b := by
  rw [← run_cleaned, h, run_cleaned]

theorem execute_of_cleaned_eq (h : f'.cleaned = f.cleaned) (name : String)
    (options o : Option Options) :
    e.execute ⟨name, f', options⟩ o =
      (fun response : Response => { response with filters := f' }) <$>
        e.execute ⟨name, f, options⟩ o := by
  have hreasons : Request.reasons ⟨name, f', options⟩ = Request.reasons ⟨name, f, options⟩ := by
    have hsame : f'.reasons = f.reasons := by rw [← f'.reasons_cleaned, h, f.reasons_cleaned]
    simp only [Request.reasons, hsame]
  unfold execute
  rw [hreasons]
  dsimp only
  split
  · simp only [run_of_cleaned_eq e _ h, map_bind, map_pure]
  · rfl

/-- Whatever has happened before and whatever the store answers, requests with the second filters
ask what those with the first ask and have their answers, save for the filters repeated. -/
def Alike (f f' : Filters) : Prop :=
  ∀ (name : String) (options o : Option Options) (t : Trace),
    ((e.execute ⟨name, f', options⟩ o).run t).2 = ((e.execute ⟨name, f, options⟩ o).run t).2 ∧
    ((e.execute ⟨name, f', options⟩ o).run t).1 =
      ((e.execute ⟨name, f, options⟩ o).run t).1.map
        fun response => { response with filters := f' }

theorem alike_of_cleaned_eq (h : f'.cleaned = f.cleaned) : e.Alike f f' := by
  intro name options o t
  rw [execute_of_cleaned_eq e h name options o, Session.run_map]
  exact ⟨rfl, rfl⟩

theorem load_of_disguised (h : Identifier.Disguised users users') (v : View) :
    Profile.load e v users' = Profile.load e v users := by
  rw [Profile.load, Identifier.kept_of_disguised h, Profile.load]

/-- Tokens that are no identifiers and blanks around identifiers change neither what is asked nor
what is answered, for requests of every kind and for the tables of people; a list without any
identifier does as much as an empty one. -/
theorem disguise_invisible (e : Engine) :
    (∀ f f' : Filters, f.Disguised f' → e.Alike f f') ∧
    (∀ f : Filters, (∀ token ∈ f.repIds ++ f.setterIds, Identifier.isValid token = false) →
      e.Alike { f with repIds := [], setterIds := [] } f) ∧
    ∀ users users' : List String, Identifier.Disguised users users' →
      ∀ (v : View) (limit : Int) (metrics : List String),
        e.userTable v limit users' metrics = e.userTable v limit users metrics ∧
        ∀ kind : String,
          e.periodMatrix v limit users' metrics kind = e.periodMatrix v limit users metrics kind := by
  refine ⟨fun f f' h => e.alike_of_cleaned_eq h.cleaned_eq, fun f h => ?_, ?_⟩
  · apply e.alike_of_cleaned_eq
    apply Filters.Disguised.cleaned_eq
    exact ⟨rfl, rfl, Identifier.disguised_nil fun t ht => h t (List.mem_append_left _ ht),
      Identifier.disguised_nil fun t ht => h t (List.mem_append_right _ ht)⟩
  · intro users users' h v limit metrics
    constructor
    · simp only [userTable, load_of_disguised e h v]
    · intro kind
      simp only [periodMatrix, load_of_disguised e h v]

theorem disguise_invisible_of_padded_rep :
    let e : Engine := ⟨.ofFunction fun _ _ => .ok (.list []), .nowhere, fun _ => none, 1, fun _ => 0⟩
    let id := "123e4567-e89b-12d3-a456-426614174000"
    let hidden := ["everybody", Identifier.pad [' '] ['\t', ' '] id, ""]
    let f : Filters := ⟨some ⟨some "2024-01-01", some "2024-01-31"⟩, some "account", [id], []⟩
    Identifier.Disguised [id] hidden ∧ e.Alike f { f with repIds := hidden } := by
  intro e id hidden f
  have hid : Identifier.isValid id = true := by decide
  have hbefore : ∀ c ∈ [' '], Text.isBlank c = true := List.forall_mem_singleton.2 rfl
  have hafter : ∀ c ∈ ['\t', ' '], Text.isBlank c = true :=
    List.forall_mem_cons.2 ⟨rfl, List.forall_mem_singleton.2 rfl⟩
  have hhidden : Identifier.Disguised [id] hidden :=
    .insert (by decide) (.pad hid hbefore hafter (.insert (by decide) .nil))
  exact ⟨hhidden, (disguise_invisible e).1 f _ ⟨rfl, rfl, hhidden, .nil⟩⟩

end Engine

end Funnel
