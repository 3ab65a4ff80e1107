import Funnel.Proofs.DataView.Cells
import Funnel.Proofs.Engine.Isolation
import Funnel.Proofs.Plan.Narrowing

/-!
# A person's figures are made of the person's own records

The side on which a metric counts for a person is chosen by the role and the metric, the condition
on the person is made where the queries are planned, and a table without the column of a side is
silently left as it is. The two fit together: whatever a figure of a person reads of records that
belong to people is tested for that person.
-/

set_option autoImplicit false

namespace Funnel

open Calendar Fragment Standard

/-- Tables whose records belong to people. -/
def personalTables : List String := ["appointments", "discoveries", "dials"]

def ownerColumns : List String := ["sales_rep_user_id", "setter_user_id"]

/-- The condition that a record belongs to one person: a column of owners is compared with a
parameter to which that person is bound. -/
def OwnerTest (params : Fields) (user : String) (qualifier : Option String) (s : String) : Prop :=
  ∃ column ∈ ownerColumns, ∃ name, params.find? name = some (.text user) ∧
    s = equality (qualify column qualifier) name

namespace Select

/-- A conjunct of the WHERE clause tests the owner of the rows of a table. -/
def TestsOwner (q : Select) (params : Fields) (user : String) (r : Reading) : Prop :=
  ∃ s ∈ q.conjuncts, OwnerTest params user r.qualifier s

/-- Rows are looked up among those of another query, which tests the owner of what it reads. -/
def LooksUpOwn (q : Select) (params : Fields) (user : String) : Prop :=
  ∃ column p, .within column p ∈ q.conditions ∧
    ∃ r ∈ p.readings, r.table ∈ personalTables ∧ p.TestsOwner params user r

end Select

/-- Wherever a call reads records of people, in every query inside it, it reads those of one
person. -/
def Call.ReadsOwn (user : String) (c : Call) : Prop :=
  ∀ q ∈ c.query.selects, ∀ r ∈ q.readings, r.table ∈ personalTables →
    q.TestsOwner c.params user r ∨ q.LooksUpOwn c.params user

def Side.Known (s : Side) (t : Table) : Prop :=
  match s with
  | .rep | .both => t.repColumn = some "sales_rep_user_id"
  | .setter => t.setterColumn = some "setter_user_id"

def Formula.table : Formula → String
  | .speedToLead | .leadToAppointment => "contacts"
  | .cashPerDial => "dials"
  | .workTimeframe => "work_timeframes"
  | _ => "appointments"

/-- A metric is attributed only where its table has the column, and a formula stands over the table
that it is about. -/
structure Metric.Placed (m : Metric) : Prop where
  attribution : ∀ a, m.attribution = some a → a ∈ Attribution.applicable m.table
  formula : ∀ fm, m.formula = some fm → m.table = fm.table

theorem Registry.placed_of_find? {name : String} {m : Metric} (h : find? name = some m) :
    m.Placed := by
  have hspecial : ∀ m ∈ specialMetrics, m.attribution = none ∧
      ∀ fm, m.formula = some fm → m.table = fm.table := by decide
  constructor
  · rcases variant_or_special h with ⟨base, hmem, hvariant⟩ | hmem
    · rw [hvariant.table]
      exact hvariant.attribution
    · intro a ha
      cases (hspecial m hmem).1.symm.trans ha
  · intro fm hfm
    exact (hspecial m (special_of_formula h hfm)).2 fm hfm

theorem Side.known_of_both_columns {t : Table} (hrep : t.repColumn = some "sales_rep_user_id")
    (hsetter : t.setterColumn = some "setter_user_id") (s : Side) : s.Known t := by
  cases s with
  | rep => exact hrep
  | setter => exact hsetter
  | both => exact hrep

theorem Metric.not_mem_sides_of_cost {m : Metric} (h : m.formula = some .costPerBookedCall)
    {role : String} {s : Side} : s ∉ m.sides role := by
  rw [sides, if_pos h]
  exact List.not_mem_nil

theorem Metric.sides_of_attribution_eq_none {m : Metric} (h : m.attribution = none) {role : String}
    {s : Side} (hs : s ∈ m.sides role) : s ∈
      if m.table = "work_timeframes" then [.setter]
      else if m.table = "appointments" then
        if m.key = "total_appointments" then [.rep] else sidesByRole role [.rep, .setter]
      else if m.table = "discoveries" then sidesByRole role [.both]
      else if m.table = "dials" then
        if role = "setter" ∨ role ∈ adminRoles then [.setter] else []
      else [] := by
  unfold sides at hs
  rw [h] at hs
  split at hs
  · cases hs
  · exact hs

theorem Metric.sides_of_attribution_eq_some {m : Metric} {a : Attribution}
    (h : m.attribution = some a) {role : String} {s : Side} (hs : s ∈ m.sides role) :
    s = if a = .assigned then .rep else .setter := by
  unfold sides at hs
  rw [h] at hs
  split at hs
  · cases hs
  · cases a <;> exact List.mem_singleton.mp hs

/-- A metric counts for a person only on sides that its table knows. -/
theorem Metric.known_of_mem_sides {m : Metric} (hm : m.Placed) {t : Table} (ht : t ∈ Table.all)
    (hname : t.name = m.table) {role : String} {s : Side} (hs : s ∈ m.sides role) : s.Known t := by
  cases hattribution : m.attribution with
  | some a =>
    have happlicable := hm.attribution a hattribution
    have hside := sides_of_attribution_eq_some hattribution hs
    rw [← hname] at happlicable
    simp only [Table.all, List.mem_cons, List.not_mem_nil, or_false] at ht
    rcases ht with rfl | rfl | rfl | rfl | rfl | rfl
    · exact Side.known_of_both_columns rfl rfl s
    · exact Side.known_of_both_columns rfl rfl s
    · obtain rfl : a = .dialer := List.mem_singleton.mp happlicable
      rw [hside]
      rfl
    all_goals cases happlicable
  | none =>
    have hside := sides_of_attribution_eq_none hattribution hs
    rw [← hname] at hside
    simp only [Table.all, List.mem_cons, List.not_mem_nil, or_false] at ht
    rcases ht with rfl | rfl | rfl | rfl | rfl | rfl
    · exact Side.known_of_both_columns rfl rfl s
    · exact Side.known_of_both_columns rfl rfl s
    · change s ∈ if role = "setter" ∨ role ∈ adminRoles then [.setter] else [] at hside
      split at hside
      · rw [List.mem_singleton.mp hside]
        rfl
      · cases hside
    · cases hside
    · cases hside
    · obtain rfl : s = .setter := List.mem_singleton.mp hside
      rfl

variable {user : String} {v : View} {s : Side} {start finish : Date}

theorem kept_repIds (hkept : Identifier.kept [user] = [user]) (s : Side) :
    Identifier.kept (s.repIds user) = s.repIds user := by
  cases s with
  | rep => exact hkept
  | setter => rfl
  | both => exact hkept

theorem kept_setterIds (hkept : Identifier.kept [user] = [user]) (s : Side) :
    Identifier.kept (s.setterIds user) = s.setterIds user := by
  cases s with
  | rep => rfl
  | setter => exact hkept
  | both => exact hkept

theorem exists_ownerTest (hkept : Identifier.kept [user] = [user]) {t u : Table} (ht : s.Known t)
    (hu : s.Known u) (qualifier : Option String) :
    ∃ x ∈ userTexts t qualifier (v.narrowed s user).headcount,
      OwnerTest ((Scope.people u).fields (v.narrowed s user) start finish) user qualifier x := by
  simp only [userTexts, Filters.headcount, Scope.fields, accountFields, userFields, View.narrowed,
    kept_repIds hkept, kept_setterIds hkept]
  cases s with
  | rep =>
    simp only [Side.Known] at ht hu
    refine ⟨_, ?_, "sales_rep_user_id", List.mem_cons_self, "rep_user_id", ?_, rfl⟩
    · simp [ht, Side.repIds, personTexts]
    · simp [hu, Side.repIds, personFields, Named.find?_cons]
  | setter =>
    simp only [Side.Known] at ht hu
    refine ⟨_, ?_, "setter_user_id", List.mem_cons_of_mem _ List.mem_cons_self, "setter_user_id",
      ?_, rfl⟩
    · simp [ht, Side.setterIds, personTexts]
    · cases u.repColumn <;>
        simp [hu, Side.repIds, Side.setterIds, personFields, Named.find?_cons]
  | both =>
    simp only [Side.Known] at ht hu
    refine ⟨_, ?_, "sales_rep_user_id", List.mem_cons_self, "rep_user_id", ?_, rfl⟩
    · simp [ht, Side.repIds, personTexts]
    · simp [hu, Side.repIds, personFields, Named.find?_cons]

/-- A query of one source reads records of people only on the test of their owner. -/
theorem readsOwn_flat {params : Fields} {columns : List String} {source : String}
    {cs groups having order : List String}
    (h : (Reading.ofText source).table ∈ personalTables →
      ∃ x ∈ cs, OwnerTest params user (Reading.ofText source).qualifier x) :
    Call.ReadsOwn user
      ⟨.mk columns source [] (sqlConditions cs) groups having order [], params⟩ := by
  intro q hq r hr htable
  rw [Select.selects_flat] at hq
  obtain rfl := List.mem_singleton.mp hq
  obtain rfl := List.mem_singleton.mp hr
  obtain ⟨x, hx, htest⟩ := h htable
  exact .inl ⟨x, by rwa [Select.conjuncts_mk_sqlConditions], htest⟩

theorem readsOwn_impersonal {params : Fields} {columns : List String} {source : String}
    {cs groups having order : List String}
    (h : (Reading.ofText source).table ∉ personalTables) : Call.ReadsOwn user
      ⟨.mk columns source [] (sqlConditions cs) groups having order [], params⟩ :=
  readsOwn_flat fun htable => absurd htable h

namespace Plan

theorem readsOwn_plainDraft (hkept : Identifier.kept [user] = [user]) {m : Metric} {t : Table}
    (ht : t ∈ Table.all) (hname : t.name = m.table) (hs : s.Known t) (b : Breakdown) :
    ((plainDraft m t b (v.narrowed s user).headcount).call (v.narrowed s user) start
      finish).ReadsOwn user := by
  have hreading : Reading.ofText m.table = ⟨t.name, none⟩ := hname ▸ ofText_name ht
  obtain ⟨x, hx, htest⟩ := @exists_ownerTest user v s start finish hkept t t hs hs none
  rw [plainDraft, shape, List.append_assoc]
  split
  all_goals
    refine readsOwn_flat fun _ => ⟨x, ?_, hreading ▸ htest⟩
    exact List.mem_append_left _ (List.mem_append_right _ hx)

theorem exists_ownerTest_of_subset (hkept : Identifier.kept [user] = [user]) {t u : Table}
    (ht : s.Known t) (hu : s.Known u) {qualifier : Option String} {cs : List String}
    (hcs : ∀ x ∈ texts t qualifier true (v.narrowed s user).headcount, x ∈ cs) :
    ∃ x ∈ cs, OwnerTest ((Scope.people u).fields (v.narrowed s user) start finish) user
      qualifier x := by
  obtain ⟨x, hx, htest⟩ := exists_ownerTest hkept ht hu qualifier
  exact ⟨x, hcs x (List.mem_append_right _ hx), htest⟩

/-- Every arm over the records that have a rep tests their owner. -/
theorem readsOwn_recordsDraft (hkept : Identifier.kept [user] = [user])
    (hs : s.Known .appointments) (columns more conditions : List String) (value : String) :
    ((recordsDraft columns more value conditions (v.narrowed s user).headcount).call
      (v.narrowed s user) start finish).ReadsOwn user := by
  have hdiscoveries : s.Known .discoveries := hs
  have hrecords : (Reading.ofText "records").table ∉ personalTables := by decide
  have harm : ∀ t : Table, t ∈ Table.all → s.Known t → Call.ReadsOwn user
      ⟨assignedSelect t columns more (texts t none true (v.narrowed s user).headcount),
        (Scope.people .appointments).fields (v.narrowed s user) start finish⟩ := by
    intro t ht hknown
    refine readsOwn_flat fun _ => ?_
    rw [ofText_name ht, List.append_assoc]
    exact exists_ownerTest_of_subset hkept hknown hs fun x hx => List.mem_append_left _ hx
  intro q hq
  rw [Draft.call, recordsDraft, Select.selects, recordsCte, selectsOfCtes, selectsOfCtes,
    Cte.selects, CteBody.selects, selectsOfSelects, selectsOfSelects, selectsOfSelects,
    selectsOfConditions_sqlConditions] at hq
  simp only [List.append_nil, List.mem_cons, List.mem_append] at hq
  rcases hq with rfl | hq | hq
  · intro r hr htable
    obtain rfl := List.mem_singleton.mp hr
    exact absurd htable hrecords
  · exact harm .appointments (by decide) hs q hq
  · exact harm .discoveries (by decide) hdiscoveries q hq

/-- The cash of dials is looked up among the dials of one person. -/
theorem readsOwn_cashSelect (hkept : Identifier.kept [user] = [user]) (hs : s.Known .dials) :
    Call.ReadsOwn user ⟨cashSelect (texts .dials (some "d") true (v.narrowed s user).headcount),
      (Scope.people .dials).fields (v.narrowed s user) start finish⟩ := by
  let booked := texts .dials (some "d") true (v.narrowed s user).headcount ++
    ["d.booked_appointment_id IS NOT NULL"]
  have hflat : Call.ReadsOwn user
      ⟨.simple ["d.booked_appointment_id"] "dials d" (sqlConditions booked),
        (Scope.people .dials).fields (v.narrowed s user) start finish⟩ := by
    refine readsOwn_flat fun _ => ?_
    rw [ofText_dials]
    exact exists_ownerTest_of_subset hkept hs hs fun x hx => List.mem_append_left _ hx
  obtain ⟨x, hx, htest⟩ := @exists_ownerTest_of_subset user v s start finish hkept _ _ hs hs
    (some "d") booked fun x hx => List.mem_append_left _ hx
  intro q hq
  rw [cashSelect, Select.simple, Select.selects, selectsOfCtes, selectsOfConditions,
    selectsOfConditions, selectsOfConditions, Condition.selects, Condition.selects,
    List.append_nil] at hq
  rcases List.mem_cons.mp hq with rfl | hq
  · intro r _ _
    refine .inr ⟨"a.id", _, List.mem_cons_of_mem _ List.mem_cons_self, ⟨"dials", some "d"⟩, ?_,
      by decide, x, ?_, htest⟩
    · exact List.mem_singleton.mpr ofText_dials.symm
    · exact (Select.conjuncts_mk_sqlConditions _ _ _ _ _ _ _ _).symm ▸ hx
  · exact hflat q hq

/-- The calls of a formula read records of the person, except for the total of appointments. -/
theorem readsOwn_drafts (hkept : Identifier.kept [user] = [user]) {fm : Formula}
    (hs : ∀ t ∈ Table.all, t.name = fm.table → s.Known t) (hcost : fm ≠ .costPerBookedCall)
    (b : Breakdown) :
    ∀ p ∈ drafts fm b (v.narrowed s user).headcount,
      (p.2.call (v.narrowed s user) start finish).ReadsOwn user ∨
        fm = .repRoi ∧ p.2 = totalAppointmentsDraft := by
  have happointments : s.Known .appointments → ∀ {columns cs groups having order : List String},
      (∀ x ∈ texts .appointments none true (v.narrowed s user).headcount, x ∈ cs) →
      Call.ReadsOwn user ⟨.mk columns "appointments" [] (sqlConditions cs) groups having order [],
        (Scope.people .appointments).fields (v.narrowed s user) start finish⟩ := by
    intro hknown columns cs groups having order hcs
    refine readsOwn_flat fun _ => ?_
    rw [ofText_appointments]
    exact exists_ownerTest_of_subset hkept hknown hknown hcs
  have hspend : (spendDraft.call (v.narrowed s user) start finish).ReadsOwn user :=
    readsOwn_impersonal (by decide)
  have hleads : ¬ s.Known .contacts := by cases s <;> exact nofun
  cases fm with
  | roi =>
    have hknown := hs .appointments (by decide) rfl
    simp only [drafts, List.forall_mem_cons]
    exact ⟨.inl (happointments hknown fun x hx => hx), .inl hspend, List.forall_mem_nil _⟩
  | repRoi =>
    have hknown := hs .appointments (by decide) rfl
    simp only [drafts, List.forall_mem_cons]
    exact ⟨.inl (happointments hknown fun x hx => List.mem_append_left _ hx),
      .inr ⟨trivial, trivial⟩, .inl hspend, List.forall_mem_nil _⟩
  | costPerBookedCall => exact absurd rfl hcost
  | speedToLead => exact absurd (hs .contacts (by decide) rfl) hleads
  | leadToAppointment => exact absurd (hs .contacts (by decide) rfl) hleads
  | dataCompletionRate | overdueItems | overduePercentage =>
    have hknown := hs .appointments (by decide) rfl
    simp only [drafts, List.forall_mem_cons]
    exact ⟨.inl (readsOwn_recordsDraft hkept hknown _ _ _ _), List.forall_mem_nil _⟩
  | cashPerDial =>
    have hknown := hs .dials (by decide) rfl
    simp only [drafts, List.forall_mem_cons]
    refine ⟨.inl (readsOwn_flat fun _ => ?_), .inl (readsOwn_cashSelect hkept hknown),
      List.forall_mem_nil _⟩
    rw [ofText_dials]
    exact exists_ownerTest_of_subset hkept hknown hknown fun x hx => hx
  | bookingLeadTime =>
    have hknown := hs .appointments (by decide) rfl
    simp only [drafts, List.forall_mem_cons]
    exact ⟨.inl (happointments hknown fun x hx => List.mem_append_left _ hx),
      List.forall_mem_nil _⟩
  | workTimeframe => exact List.forall_mem_nil _

end Plan

open Session

/-- The only call of a person's figure that may read records of everybody: the appointments of the
account, among which the cost of a rep is shared out. -/
def Call.CountsAppointments (v : View) (m : Metric) (c : Call) : Prop :=
  m.formula = some .repRoi ∧
    ∃ q, Plan.totalAppointmentsQuery v.filters .total = .ok q ∧ c = q.toCall

/-- A call that a figure of a person for a metric may make. -/
def Call.Allowed (v : View) (m : Metric) (user : String) (c : Call) : Prop :=
  c.ReadsOwn user ∨ c.CountsAppointments v m

/-- The dials of a caller are those of the caller, and the account's settings are nobody's. -/
theorem Work.asks_derive_narrowed (hkept : Identifier.kept [user] = [user]) (known : Zones)
    (store : Store) (v : View) :
    (derive known store (v.narrowed .setter user)).Asks (Call.ReadsOwn user) := by
  have hcallers : findCallers store (v.narrowed .setter user) = pure [user] := by
    have hsetters : Identifier.kept (v.narrowed .setter user).setterIds = [user] := hkept
    rw [findCallers, hsetters]
  have hzone : Call.ReadsOwn user (zoneCall (v.narrowed .setter user)) :=
    @readsOwn_impersonal user _ _ _ ["id = $account_id"] _ _ _ (by decide)
  rw [derive, hcallers]
  refine asks_bind_of_yields (Q := (· = [user])) (asks_pure _) ?_ ?_
  · rintro t a ⟨rfl⟩
    rfl
  · rintro _ rfl
    refine asks_bind (asks_ask store hzone) fun rows => ?_
    refine asks_bind (asks_ofExcept _) fun zone => ?_
    refine asks_ofExcept_bind fun call hcall => ?_
    refine asks_bind (asks_ask store ?_) fun _ => asks_ofExcept _
    obtain ⟨start, finish, -, rfl⟩ := of_dialsCall hcall
    have hreading : Reading.ofText "dials" = ⟨"dials", none⟩ := ofText_ofList _
    refine readsOwn_flat fun _ => ?_
    rw [hreading]
    exact Plan.exists_ownerTest_of_subset (s := .setter) (t := .dials) (u := .dials) hkept rfl rfl
      fun x hx => List.mem_append_left _ hx

namespace Engine

variable {m : Metric}

theorem asks_run (e : Engine) {v : View} {name : String} (hm : Registry.find? name = some m)
    (hkept : Identifier.kept [user] = [user]) {role : String} (hs : s ∈ m.sides role)
    {strategy : Strategy} {b : Breakdown}
    (hchosen : selectStrategy m v.options = .ok (strategy, b)) :
    (e.run m (v.narrowed s user) v.options strategy b).Asks (Call.Allowed v m user) := by
  obtain ⟨t, ht⟩ := Registry.exists_table hm
  obtain ⟨hmem, hname⟩ := Table.mem_of_named ht
  have hplaced := Registry.placed_of_find? hm
  have hknown : ∀ t ∈ Table.all, t.name = m.table → s.Known t :=
    fun t ht hname => Metric.known_of_mem_sides hplaced ht hname hs
  rw [View.selectStrategy_options ht] at hchosen
  cases hchosen
  unfold Metric.isSpecial
  cases hformula : m.formula with
  | none =>
    rw [Option.isSome_none, if_neg Bool.false_ne_true, run]
    refine asks_ofExcept_bind fun query hquery => ?_
    refine asks_bind (asks_ask e.store ?_) fun _ => asks_ofExcept _
    obtain ⟨u, start, finish, hu, -, hcall⟩ := Plan.of_generic hquery
    obtain rfl : t = u := Except.ok.inj (ht.symm.trans hu)
    rw [hcall]
    exact .inl (Plan.readsOwn_plainDraft hkept hmem hname (hknown t hmem hname) _)
  | some fm =>
    rw [Option.isSome_some, if_pos rfl, run, hformula]
    rw [hplaced.formula fm hformula] at hknown
    split
    · rename_i hwork
      obtain rfl := Option.some.inj hwork
      obtain rfl : s = .setter := by
        have hcolumn := hknown .workTimeframes (by decide) rfl
        cases s with
        | setter => rfl
        | rep | both => cases hcolumn
      refine asks_bind ?_ fun _ => asks_ofExcept _
      exact (Work.asks_derive_narrowed hkept e.zones e.store v).mono fun _ => .inl
    · rw [if_neg (by decide)]
      refine asks_ofExcept_bind fun plan hplan => ?_
      refine asks_bind (e.asks_runPlan ?_) fun _ => asks_ofExcept _
      refine Plan.forall_queries hplan fun fm' start finish hfm' hdays d hd => ?_
      obtain rfl : fm = fm' := Option.some.inj (hformula.symm.trans hfm')
      have hcost : fm ≠ .costPerBookedCall := by
        rintro rfl
        exact Metric.not_mem_sides_of_cost hformula hs
      rcases Plan.readsOwn_drafts hkept hknown hcost .total d hd with hown | ⟨hroi, htotal⟩
      · exact .inl hown
      · rw [htotal]
        exact .inr ⟨hroi ▸ hformula, _, Plan.sumQuery_wide_eq hdays .appointments "COUNT(*)" .total,
          rfl⟩

/-- The request for one side of a person reads that person's records. -/
theorem asks_sideValue (e : Engine) {v : View} {name : String}
    (hm : Registry.find? name = some m) (hkept : Identifier.kept [user] = [user]) {role : String}
    (hs : s ∈ m.sides role) : (e.sideValue v name user s).Asks (Call.Allowed v m user) := by
  refine asks_bind ?_ fun _ => asks_pure _
  unfold execute
  split
  · rename_i m' _ hm'
    obtain rfl : m = m' := Option.some.inj (hm.symm.trans hm')
    refine asks_ofExcept_bind ?_
    rintro ⟨strategy, b⟩ hchosen
    refine asks_bind (asks_orElse (e.asks_run hm hkept hs hchosen) _) fun result => ?_
    exact asks_bind (e.asks_fillNames result) fun _ => asks_pure _
  · exact asks_ofExcept _

theorem asks_userCell (e : Engine) {v : View} {p : Profile} {name : String}
    (hm : Registry.find? name = some m) (hkept : Identifier.kept [p.userId] = [p.userId]) :
    (e.userCell v p name).Asks (Call.Allowed v m p.userId) := by
  unfold userCell
  rw [hm]
  refine asks_bind (asks_ofExcept _) fun role => ?_
  split
  · exact asks_bind (asks_ofExcept _) fun _ => asks_pure _
  · refine asks_bind (asks_gather ?_) fun values => ?_
    · intro x hx
      obtain ⟨s, hs, rfl⟩ := List.mem_map.mp hx
      exact e.asks_sideValue hm hkept hs
    · refine asks_bind (asks_ofExcept _) fun display => ?_
      split <;> exact asks_pure _

end Engine

/-- Whoever is found and whatever the role, every call that is made for the person's figure tests
the owner of the records of people that it reads, in every query inside it. The one exception is
the total of appointments, among which the cost of a rep is shared out. -/
theorem cell_reads_own {e : Engine} {v : View} {tokens : List String} {t : Trace}
    {profiles : List Profile} (hload : ((Profile.load e v tokens).run t).1 = .ok profiles)
    {p : Profile} (hp : p ∈ profiles) {name : String} {m : Metric}
    (hm : Registry.find? name = some m) :
    (e.userCell v p name).Asks (Call.Allowed v m p.userId) :=
  e.asks_userCell hm (Profile.kept_of_load hload hp)

/-- The cash of each dial of a setter, whose identifier is asked for with blanks around. -/
theorem cell_reads_own_cashPerDial : ∃ (e : Engine) (v : View) (p : Profile) (m : Metric),
    ((Profile.load e v [" 00000000-0000-0000-0000-00000000000a"]).run .start).1 = .ok [p] ∧
    p.userId = "00000000-0000-0000-0000-00000000000a" ∧ m.formula = some .cashPerDial ∧
    m.sides "setter" = [.setter] ∧ roleOf p.role = .ok "setter" ∧
    (e.userCell v p "cash_per_dial").Asks (Call.Allowed v m p.userId) := by
  let row := Profile.kim "00000000-0000-0000-0000-00000000000a" (.text "setter")
  let e := Engine.plain (Profile.finding row (.ok (.list [])))
  let v := Profile.february
  let p : Profile := ⟨"00000000-0000-0000-0000-00000000000a", .text "Kim", .text "setter"⟩
  obtain ⟨m, hm, hformula, hsides⟩ : ∃ m, Registry.find? "cash_per_dial" = some m ∧
      m.formula = some .cashPerDial ∧ m.sides "setter" = [.setter] :=
    ⟨_, Registry.find?_cashPerDial, rfl, rfl⟩
  have hload : ((Profile.load e v [" 00000000-0000-0000-0000-00000000000a"]).run .start).1 =
      .ok [p] := by
    have hkept : Identifier.kept [" 00000000-0000-0000-0000-00000000000a"] =
        ["00000000-0000-0000-0000-00000000000a"] := by decide
    rw [Profile.load, hkept]
    rfl
  have hrole : Text.lower "setter" = "setter" := by decide +kernel
  exact ⟨e, v, p, m, hload, rfl, hformula, hsides, congrArg Except.ok hrole,
    cell_reads_own hload List.mem_cons_self hm⟩

end Funnel
