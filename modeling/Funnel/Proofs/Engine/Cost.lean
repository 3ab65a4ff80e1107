import Funnel.Proofs.Engine.Pointwise
import Funnel.Proofs.Plan.Denominators

/-!
# The cost of a booked call

A booked call costs every rep, every setter and every pair of them what it costs the account. The
rows of people are found by a query that is narrowed to the people of the request; the cost is made
of two queries that are not.
-/

set_option autoImplicit false

namespace Funnel

open Calendar Session Number

def Result.values : Result → List Float
  | .total x => [x]
  | .rep rows => rows.map RepRow.value
  | .setter rows => rows.map SetterRow.value
  | .link rows => rows.map LinkRow.value
  | .time rows => rows.filterMap TimeRow.value

theorem Result.values_withNames (names : Named String) (r : Result) :
    (r.withNames names).values = r.values := by
  cases r <;> simp [withNames, values]

def costMetrics : List String :=
  ["cost_per_booked_call_reps", "cost_per_booked_call_setters", "cost_per_booked_call_link"]

theorem Registry.find?_cost : find? "cost_per_booked_call" = some specialMetrics[3] :=
  @find?_special specialMetrics[3] (List.getElem_mem _)

theorem Registry.exists_costMetric {name : String} (h : name ∈ costMetrics) :
    ∃ m, find? name = some m ∧ m.formula = some .costPerBookedCall ∧ m.breakdown ≠ .time ∧
      m.gapWhenEmpty = false := by
  simp only [costMetrics, List.mem_cons, List.not_mem_nil, or_false] at h
  rcases h with rfl | rfl | rfl
  · exact ⟨_, @find?_special specialMetrics[4] (List.getElem_mem _), rfl, by decide, rfl⟩
  · exact ⟨_, @find?_special specialMetrics[5] (List.getElem_mem _), rfl, by decide, rfl⟩
  · exact ⟨_, @find?_special specialMetrics[6] (List.getElem_mem _), rfl, by decide, rfl⟩

namespace Plan

variable {known : Zones} {answer : String → Fields → Except Fault Value} {f : Filters}
  {start finish : Date} {b : Breakdown} {plan : FormulaPlan}

/-- The cost of a booked call of an account, from the two queries about the whole account. -/
def accountCost (answer : String → Fields → Except Fault Value) (f : Filters)
    (start finish : Date) : Except Fault Float := do
  let total := totalAppointmentsDraft.call f start finish
  let spend := spendDraft.call f start finish
  let totalRows ← answer total.sql total.params
  let spendRows ← answer spend.sql spend.params
  let spend ← scalarValue spendRows
  let total ← scalarValue totalRows
  .ok (safeDiv spend total)

theorem costPerBookedCallPlan_withPeople (reps setters : List String) :
    costPerBookedCallPlan (f.withPeople reps setters) .total = costPerBookedCallPlan f .total := rfl

def CostRows (b : Breakdown) (cost : Float) (rows : Rows) : Prop :=
  if (Table.appointments.keys b).isEmpty then rows = doubleRow cost
  else ∀ row ∈ rows, row.get "value" = .ok (.double cost)

theorem get_entityRow {keys : List (String × String)} {cost : Float} {entity row : Value}
    (h : entityRow keys cost entity = .ok row) : row.get "value" = .ok (.double cost) := by
  obtain ⟨ids, -, h⟩ := Fault.bind_eq_ok_iff.mp h
  obtain ⟨v, -, h⟩ := Fault.bind_eq_ok_iff.mp h
  obtain ⟨appointments, -, h⟩ := Fault.bind_eq_ok_iff.mp h
  cases h
  have hvalue : Named.find? (Named.putAll ids [("appointments", .double appointments),
      ("value", .double cost)]) "value" = some (Value.double cost) :=
    Named.find?_putAll_of_mem (by simp [Named.names]) (by simp)
  rw [Value.get, hvalue]
  rfl

/-- The first two queries of a plan of the cost are about the whole account, and the cost is made
of them. -/
theorem of_costPlan (hdays : f.days = .ok (start, finish))
    (h : costPerBookedCallPlan f b = .ok plan) :
    (∃ entities, plan.queries =
      ("total_appointments", ⟨totalAppointmentsDraft.call f start finish, .special, b⟩) ::
        ("spend", ⟨spendDraft.call f start finish, .special, b⟩) :: entities) ∧
    ∀ known results rows, plan.combine known results = .ok rows →
      ∃ spend total, scalarValue (results "spend") = .ok spend ∧
        scalarValue (results "total_appointments") = .ok total ∧
        CostRows b (safeDiv spend total) rows := by
  obtain ⟨total, htotal, h⟩ := Fault.bind_eq_ok_iff.mp h
  obtain ⟨spend, hspend, h⟩ := Fault.bind_eq_ok_iff.mp h
  obtain rfl := Except.ok.inj (htotal.symm.trans (sumQuery_wide_eq hdays _ _ _))
  obtain rfl := Except.ok.inj (hspend.symm.trans (sumQuery_wide_eq hdays _ _ _))
  dsimp only at h
  split at h
  · rename_i hkeys
    cases h
    refine ⟨⟨_, rfl⟩, fun known results rows hrows => ?_⟩
    obtain ⟨x, hx, hrows⟩ := Fault.bind_eq_ok_iff.mp hrows
    obtain ⟨y, hy, hrows⟩ := Fault.bind_eq_ok_iff.mp hrows
    cases hrows
    exact ⟨x, y, hx, hy, by rw [CostRows, if_pos hkeys]⟩
  · rename_i hkeys
    obtain ⟨entities, -, h⟩ := Fault.bind_eq_ok_iff.mp h
    cases h
    refine ⟨⟨_, rfl⟩, fun known results rows hrows => ?_⟩
    obtain ⟨x, hx, hrows⟩ := Fault.bind_eq_ok_iff.mp hrows
    obtain ⟨y, hy, hrows⟩ := Fault.bind_eq_ok_iff.mp hrows
    obtain ⟨found, -, hrows⟩ := Fault.bind_eq_ok_iff.mp hrows
    refine ⟨x, y, hx, hy, ?_⟩
    rw [CostRows, if_neg hkeys]
    intro row hrow
    obtain ⟨entity, -, hentity⟩ := (Fault.mem_of_mapM hrows).mp hrow
    exact get_entityRow hentity

/-- Whatever a plan of the cost is broken down by, its rows carry the cost of the account. -/
theorem accountCost_of_rows (hdays : f.days = .ok (start, finish))
    (h : costPerBookedCallPlan f b = .ok plan) {rows : Rows} 
    (hrows : plan.rows known answer = .ok rows) :
    ∃ cost, accountCost answer f start finish = .ok cost ∧ CostRows b cost rows := by
  obtain ⟨⟨entities, hqueries⟩, hcombine⟩ := of_costPlan hdays h
  obtain ⟨answers, hanswers, hrows⟩ := Fault.bind_eq_ok_iff.mp hrows
  rw [hqueries] at hanswers
  obtain ⟨totalRows, rest, htotal, hrest, rfl⟩ := Fault.mapM_cons_eq_ok_iff.mp hanswers
  obtain ⟨spendRows, rest, hspend, -, rfl⟩ := Fault.mapM_cons_eq_ok_iff.mp hrest
  obtain ⟨x, y, hx, hy, hcost⟩ := hcombine _ _ _ hrows
  simp only [hqueries, Named.names, List.map_cons, List.zip_cons_cons, Named.find?_cons] at hx hy
  refine ⟨safeDiv x y, ?_, hcost⟩
  refine Fault.bind_eq_ok_iff.mpr ⟨totalRows, htotal, ?_⟩
  refine Fault.bind_eq_ok_iff.mpr ⟨spendRows, hspend, ?_⟩
  refine Fault.bind_eq_ok_iff.mpr ⟨x, by simpa using hx, ?_⟩
  exact Fault.bind_eq_ok_iff.mpr ⟨y, by simpa using hy, rfl⟩

theorem rows_of_accountCost (hdays : f.days = .ok (start, finish))
    (h : costPerBookedCallPlan f .total = .ok plan) {cost : Float}
    (hcost : accountCost answer f start finish = .ok cost) :
    plan.rows known answer = .ok (doubleRow cost) := by
  obtain ⟨total, htotal, h⟩ := Fault.bind_eq_ok_iff.mp h
  obtain ⟨spend, hspend, h⟩ := Fault.bind_eq_ok_iff.mp h
  obtain rfl := Except.ok.inj (htotal.symm.trans (sumQuery_wide_eq hdays _ _ _))
  obtain rfl := Except.ok.inj (hspend.symm.trans (sumQuery_wide_eq hdays _ _ _))
  cases h
  obtain ⟨totalRows, htotalRows, hcost⟩ := Fault.bind_eq_ok_iff.mp hcost
  obtain ⟨spendRows, hspendRows, hcost⟩ := Fault.bind_eq_ok_iff.mp hcost
  obtain ⟨x, hx, hcost⟩ := Fault.bind_eq_ok_iff.mp hcost
  obtain ⟨y, hy, hcost⟩ := Fault.bind_eq_ok_iff.mp hcost
  cases hcost
  refine Fault.bind_eq_ok_iff.mpr ⟨[totalRows, spendRows], ?_, ?_⟩
  · refine Fault.mapM_cons_eq_ok_iff.mpr ⟨_, _, htotalRows, ?_, rfl⟩
    exact Fault.mapM_cons_eq_ok_iff.mpr ⟨_, _, hspendRows, rfl, rfl⟩
  · refine Fault.bind_eq_ok_iff.mpr ⟨x, ?_, ?_⟩
    · simpa [Named.names, Named.find?_cons] using hx
    · refine Fault.bind_eq_ok_iff.mpr ⟨y, ?_, rfl⟩
      simpa [Named.names, Named.find?_cons] using hy

end Plan

namespace Result

variable {b : Breakdown} {rows : Plan.Rows} {gap : Bool} {r : Result} {x : Float}

/-- Rows with one number give a result about people with that number alone. -/
theorem values_of_shape (h : shape b (.list rows) none gap = .ok r) (htotal : b ≠ .total)
    (htime : b ≠ .time) (hrows : ∀ row ∈ rows, numberOf row = .ok x) : ∀ y ∈ r.values, y = x := by
  have hsame : ∀ row ∈ rows, ∀ y, numberOf row = .ok y → y = x := fun row hrow y hy =>
    Except.ok.inj (hy.symm.trans (hrows row hrow))
  cases b with
  | total => exact absurd rfl htotal
  | time => exact absurd rfl htime
  | rep =>
    obtain ⟨all, hall, h⟩ := Fault.bind_eq_ok_iff.mp h
    obtain rfl := Except.ok.inj ((Engine.rowsOf_list rows).symm.trans hall)
    obtain ⟨kept, hkept, h⟩ := Fault.bind_eq_ok_iff.mp h
    cases h
    refine List.forall_mem_map.mpr (Fault.forall_mem_of_mapM ?_ hkept)
    intro row hrow r hr
    obtain ⟨id, name, value, -, hvalue, rfl⟩ := personRow?_eq_some hr
    exact hsame row hrow _ hvalue
  | setter =>
    obtain ⟨all, hall, h⟩ := Fault.bind_eq_ok_iff.mp h
    obtain rfl := Except.ok.inj ((Engine.rowsOf_list rows).symm.trans hall)
    obtain ⟨kept, hkept, h⟩ := Fault.bind_eq_ok_iff.mp h
    cases h
    refine List.forall_mem_map.mpr (Fault.forall_mem_of_mapM ?_ hkept)
    intro row hrow r hr
    obtain ⟨id, name, value, -, hvalue, rfl⟩ := personRow?_eq_some hr
    exact hsame row hrow _ hvalue
  | link =>
    obtain ⟨all, hall, h⟩ := Fault.bind_eq_ok_iff.mp h
    obtain rfl := Except.ok.inj ((Engine.rowsOf_list rows).symm.trans hall)
    obtain ⟨kept, hkept, h⟩ := Fault.bind_eq_ok_iff.mp h
    cases h
    refine List.forall_mem_map.mpr (Fault.forall_mem_of_mapM ?_ hkept)
    exact fun row hrow r hr => hsame row hrow _ (linkRow?_eq_some hr).2.2

end Result

namespace Engine

variable {answer : String → Fields → Except Fault Value} {e : Engine} {m : Metric} {f : Filters}
  {start finish : Date}

/-- The cost of a booked call as it is shown; zero where it cannot be worked out. -/
def shownCost (answer : String → Fields → Except Fault Value) (f : Filters)
    (start finish : Date) : Float :=
  match Plan.accountCost answer f start finish with
  | .ok cost => Value.orZero (Value.finite? cost)
  | .error _ => 0.0

theorem shownCost_withPeople (reps setters : List String) :
    shownCost answer (f.withPeople reps setters) start finish = shownCost answer f start finish :=
  rfl

theorem formula_of_cost (hm : m.formula = some .costPerBookedCall) (settings : Fields)
    (b : Breakdown) : Plan.formula m f settings b = Plan.costPerBookedCallPlan f b := by
  rw [Plan.formula, hm]

/-- Without a breakdown every metric of the cost shows the cost of the account. -/
theorem gives_costTotal (he : e.store = .ofFunction answer)
    (hm : m.formula = some .costPerBookedCall) (hdays : f.days = .ok (start, finish))
    (settings : Fields) : ((e.runFormula m f settings .total).orElse (.empty .total)).Gives
      (.ok (.total (shownCost answer f start finish))) := by
  obtain ⟨plan, hplan, -⟩ := Plan.exact_of_formula hm (by decide) hdays settings .total
  have hcost : Plan.costPerBookedCallPlan f .total = .ok plan := formula_of_cost hm settings _ ▸ hplan
  have hrun : (e.runFormula m f settings .total).Gives (plan.rows e.zones answer >>= fun rows =>
      Result.shape .total (.list rows) none m.gapWhenEmpty) := by
    refine gives_bind_ok (a := plan) (fun _ => hplan) ?_
    exact gives_bind (gives_runPlan he plan) fun _ _ => gives_ofExcept _
  unfold shownCost
  cases haccount : Plan.accountCost answer f start finish with
  | ok cost =>
    rw [Plan.rows_of_accountCost hdays hcost haccount] at hrun
    have hshown : (e.runFormula m f settings .total).Gives
        (.ok (.total (Value.orZero (Value.finite? cost)))) :=
      fun t => (hrun t).trans (shape_valueRow (some cost) m.gapWhenEmpty)
    exact gives_orElse hshown _
  | error fault =>
    cases hrows : plan.rows e.zones answer with
    | ok rows =>
      obtain ⟨cost, hok, -⟩ := Plan.accountCost_of_rows hdays hcost hrows
      cases hok.symm.trans haccount
    | error other =>
      rw [hrows] at hrun
      exact gives_orElse hrun _

theorem yields_costRows (he : e.store = .ofFunction answer)
    (hm : m.formula = some .costPerBookedCall) (hdays : f.days = .ok (start, finish))
    (settings : Fields) {b : Breakdown} (htotal : b ≠ .total) (htime : b ≠ .time) :
    (e.runFormula m f settings b).Yields
      fun r => ∀ y ∈ r.values, y = shownCost answer f start finish := by
  have hkeys : ¬ (Table.appointments.keys b).isEmpty = true := by
    cases b <;> first | exact absurd rfl htotal | exact absurd rfl htime | decide
  refine yields_bind (yields_ofExcept fun plan hplan => hplan) fun plan hplan => ?_
  rw [formula_of_cost hm] at hplan
  have hrun : (e.runPlan plan).Yields fun rows => plan.rows e.zones answer = .ok rows :=
    fun t rows hrows => (gives_runPlan he plan t).symm.trans hrows
  refine yields_bind hrun fun rows hrows => yields_ofExcept fun r hr => ?_
  obtain ⟨cost, haccount, hcost⟩ := Plan.accountCost_of_rows hdays hplan hrows
  rw [Plan.CostRows, if_neg hkeys] at hcost
  refine Result.values_of_shape hr htotal htime fun row hrow => ?_
  refine Fault.bind_eq_ok_iff.mpr ⟨_, hcost row hrow, ?_⟩
  rw [shownCost, haccount]
  rfl

theorem yields_fillNames {Q : List Float → Prop} (e : Engine) {r : Result} (h : Q r.values) :
    (e.fillNames r).Yields fun r => Q r.values := by
  have hfilled : ∀ names, Q (r.withNames names).values := fun names =>
    (Result.values_withNames names r).symm ▸ h
  unfold fillNames
  split
  · exact yields_pure h
  · split
    · exact yields_pure (hfilled [])
    · refine yields_bind_last fun _ => yields_bind_last fun names => ?_
      exact yields_pure (hfilled names)

/-- Without a chart the cost is broken down as its metric says, or not at all. -/
theorem selectStrategy_cost (hm : m.formula = some .costPerBookedCall) {o : Options}
    (ho : o.wantsChart = false) :
    ∃ b, selectStrategy m o = .ok (.special, b) ∧ (b = .total ∨ b = m.breakdown) := by
  have hspecial : m.isSpecial = true := by rw [Metric.isSpecial, hm]; rfl
  refine ⟨specialBreakdown m o, by rw [selectStrategy, if_pos hspecial], ?_⟩
  rw [specialBreakdown, ho, if_neg Bool.false_ne_true]
  split
  · exact .inl rfl
  · rw [if_neg (by simp [hm])]
    exact .inr rfl

theorem run_cost (hm : m.formula = some .costPerBookedCall) (o : Options) {b : Breakdown}
    (hb : b ≠ .time) : e.run m f o .special b = e.runFormula m f o.settings b := by
  rw [run, if_neg (by simp [hm]), if_neg hb]

theorem run_costTime (hm : m.formula = some .costPerBookedCall) (o : Options) :
    e.run m f o .special .time = e.runFormulaChart m f o.settings := by
  rw [run, if_neg (by simp [hm]), if_pos rfl]

/-- The chart of the cost is one of the account, whoever is asked for. -/
theorem run_costChart {m' : Metric} (hm : m.formula = some .costPerBookedCall)
    (hm' : m'.formula = some .costPerBookedCall) (hgap : m'.gapWhenEmpty = m.gapWhenEmpty)
    (o : Options) (reps setters : List String) :
    e.run m' (f.withPeople reps setters) o .special .time = e.run m f o .special .time := by
  have hbucket : e.runBucket m' (f.withPeople reps setters) o.settings =
      e.runBucket m f o.settings := by
    funext w
    have hnarrowed : narrowed (f.withPeople reps setters) w.start w.finish =
        (narrowed f w.start w.finish).withPeople reps setters := rfl
    simp only [runBucket, formula_of_cost hm, formula_of_cost hm', hnarrowed,
      Plan.costPerBookedCallPlan_withPeople]
  have hwindows : windows (f.withPeople reps setters) = windows f := rfl
  rw [run_costTime hm, run_costTime hm', runFormulaChart, runFormulaChart, hbucket, hwindows, hgap]

/-- A request for the cost that is no chart shows nothing but the cost of the account. -/
theorem yields_cost (he : e.store = .ofFunction answer) {name : String}
    (hfind : Registry.find? name = some m) (hm : m.formula = some .costPerBookedCall)
    (hbreakdown : m.breakdown ≠ .time) (hf : f.reasons = []) (hdays : f.days = .ok (start, finish))
    {o : Options} (ho : o.wantsChart = false) : (e.execute ⟨name, f, some o⟩ none).Yields
      fun response => ∀ y ∈ response.result.values, y = shownCost answer f start finish := by
  obtain ⟨b, hs, hb⟩ := selectStrategy_cost hm ho
  have htime : b ≠ .time := by
    rcases hb with rfl | rfl
    · decide
    · exact hbreakdown
  have hrun : ((e.run m f o .special b).orElse (.empty b)).Yields
      fun r => ∀ y ∈ r.values, y = shownCost answer f start finish := by
    rw [run_cost hm o htime]
    by_cases htotal : b = .total
    · subst htotal
      intro t r hr
      cases (gives_costTotal he hm hdays o.settings t).symm.trans hr
      exact List.forall_mem_singleton.mpr rfl
    · refine yields_orElse (yields_costRows he hm hdays o.settings htotal htime) ?_
      cases b <;> first | exact absurd rfl htotal | exact absurd rfl htime | exact nofun
  rw [execute_of_checked hfind hf hs]
  refine yields_bind hrun fun r hr => ?_
  refine yields_bind (yields_fillNames (Q := fun ys => ∀ y ∈ ys, y = _) e hr) fun r hr => ?_
  exact yields_pure hr

end Engine

open Engine in
/-- The people of a request do not reach what is asked of the whole account. Plans for other people
have the same queries of spend and of all appointments, and the share of leads with an appointment
differs at most in the join and in the people bound. So with a store that answers by text and
parameters alone, whatever it answers, there is one cost of a booked call: the account is shown it,
and so is everyone in a breakdown of it, whoever was asked for. A chart of it is the chart of the
account. -/
theorem denominators_unnarrowed {f : Filters} (hf : f.reasons = []) (reps setters : List String) :
    (∀ (m : Metric) (fm : Formula), m.formula = some fm → fm ≠ .workTimeframe →
      ∀ (settings : Fields) (b : Breakdown), ∃ plan other,
        Plan.formula m f settings b = .ok plan ∧
        Plan.formula m (f.withPeople reps setters) settings b = .ok other ∧
        (∀ name ∈ ["spend", "total_appointments"],
          other.calls.find? name = plan.calls.find? name) ∧
        (fm = .leadToAppointment → ∃ c c' general,
          plan.calls = [("conversion", c)] ∧ other.calls = [("conversion", c')] ∧
          c'.query.SameButOn c.query ∧
          c.params = general ++ Standard.userFields f .appointments ∧
          c'.params = general ++
            Standard.userFields (f.withPeople reps setters) .appointments)) ∧
    ∀ (answer : String → Fields → Except Fault Value) (e : Engine),
      e.store = .ofFunction answer → ∃ x : Float,
        (∀ o : Options, o.wantsChart = false →
          (e.execute ⟨"cost_per_booked_call", f.withPeople [] [], some o⟩ none).Gives
            (.ok ⟨"cost_per_booked_call", f.withPeople [] [], .total x, .total, .special⟩)) ∧
        ∀ name ∈ costMetrics, ∀ o : Options,
          if o.wantsChart then
            Response.result <$> e.execute ⟨name, f.withPeople reps setters, some o⟩ none =
              Response.result <$>
                e.execute ⟨"cost_per_booked_call", f.withPeople [] [], some o⟩ none
          else (e.execute ⟨name, f.withPeople reps setters, some o⟩ none).Yields
            fun response => ∀ y ∈ response.result.values, y = x := by
  obtain ⟨start, finish, hchecked⟩ := Filters.checked_of_reasons hf
  have hdays : f.days = .ok (start, finish) := hchecked.days
  have hsame : ∀ reps setters, (f.withPeople reps setters).reasons = [] ∧
      (f.withPeople reps setters).days = .ok (start, finish) := fun _ _ => ⟨hf, hdays⟩
  constructor
  · intro m fm hm hfm settings b
    obtain ⟨plan, hplan, -⟩ := Plan.exact_of_formula hm hfm hdays settings b
    obtain ⟨other, hother, -⟩ := Plan.exact_of_formula hm hfm (hsame reps setters).2 settings b
    refine ⟨plan, other, hplan, hother, fun name hname => ?_, ?_⟩
    · refine Plan.find?_calls_wide hplan hother ?_
      exact List.mem_append_left ["account"] hname
    · rintro rfl
      exact Plan.calls_leadToAppointment hm hplan hother
  · intro answer e he
    have hformula : Registry.specialMetrics[3].formula = some .costPerBookedCall := rfl
    refine ⟨shownCost answer f start finish, fun o ho => ?_, fun name hname o => ?_⟩
    · obtain ⟨b, hs, hb⟩ := selectStrategy_cost hformula ho
      obtain rfl : b = .total := hb.elim id id
      have hcost := gives_costTotal he hformula (hsame [] []).2 o.settings
      rw [shownCost_withPeople] at hcost
      rw [execute_of_checked Registry.find?_cost (hsame [] []).1 hs,
        run_cost hformula o (by decide)]
      refine gives_bind_ok hcost ?_
      refine gives_bind_ok (a := .total (shownCost answer f start finish)) ?_ (gives_pure _)
      rw [fillNames, Result.userIds_total]
      exact gives_pure _
    · obtain ⟨m, hfind, hm, hbreakdown, hgap⟩ := Registry.exists_costMetric hname
      split
      · rename_i ho
        have hs : ∀ m : Metric, m.formula = some .costPerBookedCall →
            selectStrategy m o = .ok (.special, .time) := by
          intro m hm
          rw [selectStrategy, if_pos (by rw [Metric.isSpecial, hm]; rfl), specialBreakdown,
            if_pos ho]
        rw [execute_of_checked hfind (hsame reps setters).1 (hs m hm),
          execute_of_checked Registry.find?_cost (hsame [] []).1 (hs _ hformula),
          run_costChart hformula hm hgap, run_costChart hformula hformula rfl]
        simp only [map_bind, map_pure]
      · rename_i ho
        have hcost := yields_cost he hfind hm hbreakdown (hsame reps setters).1
          (hsame reps setters).2 (Bool.eq_false_iff.mpr ho)
        rw [shownCost_withPeople] at hcost
        exact hcost

/-- The cost of the calls of two reps, with a store that has the same row for every query. -/
theorem denominators_unnarrowed_of_two_reps :
    let f := Filters.between "north" "2024-01-01" "2024-01-31" [] []
    let reps := ["11111111-2222-3333-4444-555555555555", "66666666-7777-8888-9999-000000000000"]
    let row : Value := .object [("rep_id", .text reps[0]), ("appointments", .int 3),
      ("value", .int 4)]
    let e : Engine := ⟨.ofFunction fun _ _ => .ok (.list [row]), .nowhere, fun _ => none, 10, fun _ => 0⟩
    f.reasons = [] ∧ ∃ x : Float,
      (e.execute ⟨"cost_per_booked_call", f.withPeople [] [], some .none⟩ none).Gives
        (.ok ⟨"cost_per_booked_call", f.withPeople [] [], .total x, .total, .special⟩) ∧
      (e.execute ⟨"cost_per_booked_call_reps", f.withPeople reps [], some .none⟩ none).Yields
        fun response => ∀ y ∈ response.result.values, y = x := by
  intro f reps row e
  have hf : f.reasons = [] := by decide
  have ho : Options.none.wantsChart = false := by decide
  have he : e.store = .ofFunction fun _ _ => .ok (.list [row]) := rfl
  obtain ⟨x, htotal, hpeople⟩ := (denominators_unnarrowed hf reps []).2 _ e he
  have hreps := hpeople "cost_per_booked_call_reps" List.mem_cons_self .none
  rw [if_neg (by simp [ho])] at hreps
  exact ⟨hf, x, htotal .none ho, hreps⟩

end Funnel
