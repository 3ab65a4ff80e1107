import Funnel.Proofs.Plan.Narrowing

/-!
# Denominators of formulas

Spend and the total of appointments are asked for without regard to the people of a request, and the
leads of an account are counted whole: who is credited with an appointment stands in the join. So
two requests for other people ask the same of the whole account.
-/

set_option autoImplicit false

namespace Funnel

open Calendar Standard

def Filters.withPeople (f : Filters) (reps setters : List String) : Filters :=
  { f with repIds := reps, setterIds := setters }

/-- Two queries that differ at most in the conditions that tables are joined on. -/
structure Select.SameButOn (p q : Select) : Prop where
  columns : p.columns = q.columns
  source : p.source = q.source
  joined : p.joins.map (fun j => (j.table, j.kind)) = q.joins.map fun j => (j.table, j.kind)
  conditions : p.conditions = q.conditions
  groups : p.groups = q.groups
  having : p.having = q.having
  order : p.order = q.order
  ctes : p.ctes = q.ctes

variable {f : Filters} {start finish : Date}

theorem Standard.texts_leads (qualifier : Option String) (n : Headcount) :
    texts .contacts qualifier true n = accountTexts .contacts qualifier := List.append_nil _

theorem Draft.call_withPeople {d : Draft} (h : ∀ t, d.scope ≠ .people t)
    (reps setters : List String) :
    d.call (f.withPeople reps setters) start finish = d.call f start finish := by
  obtain ⟨query, scope⟩ := d
  cases scope with
  | account => rfl
  | days => rfl
  | people t => exact absurd rfl (h t)

namespace Plan

theorem find?_drafts_wide (formula : Formula) (b : Breakdown) (n k : Headcount) {name : String}
    (hname : name ∈ accountWide) :
    (drafts formula b k).find? name = (drafts formula b n).find? name := by
  simp only [accountWide, List.mem_cons, List.not_mem_nil, or_false] at hname
  cases formula with
  | costPerBookedCall =>
    simp only [drafts, List.cons_append, List.nil_append, Named.find?_cons]
    cases (Table.appointments.keys b).isEmpty with
    | true => rfl
    | false => rcases hname with rfl | rfl | rfl <;> simp [Named.find?_cons, Named.find?_nil]
  | _ => rcases hname with rfl | rfl | rfl <;> simp [drafts, Named.find?_cons, Named.find?_nil]

variable {m : Metric} {settings : Fields} {b : Breakdown} {plan other : FormulaPlan}
  {reps setters : List String}

/-- Plans for other people have the same calls about the whole account. -/
theorem find?_calls_wide (hplan : formula m f settings b = .ok plan)
    (hother : formula m (f.withPeople reps setters) settings b = .ok other) {name : String}
    (hname : name ∈ accountWide) : other.calls.find? name = plan.calls.find? name := by
  obtain ⟨fm, start, finish, hm, -, hdays, hcalls⟩ := of_formula hplan
  obtain ⟨fm', start', finish', hm', -, hdays', hcalls'⟩ := of_formula hother
  obtain rfl : fm = fm' := Option.some.inj (hm.symm.trans hm')
  obtain ⟨rfl, rfl⟩ := Prod.mk.inj (Except.ok.inj (hdays.symm.trans hdays'))
  rw [hcalls, hcalls', Named.find?_map (Draft.call · f start finish),
    Named.find?_map (Draft.call · (f.withPeople reps setters) start finish),
    find?_drafts_wide fm b f.headcount _ hname]
  cases hfind : (drafts fm b f.headcount).find? name with
  | none => rfl
  | some d =>
    have hcredits := credits_drafts fm b f.headcount _ (Named.mem_of_find? hfind)
    exact congrArg some (Draft.call_withPeople (hcredits.wide hname) reps setters)

/-- The share of leads with an appointment is one call. Its parameters are those of the account and
the people, and for other people only those and the condition of the join are others. -/
theorem calls_leadToAppointment (hm : m.formula = some .leadToAppointment)
    (hplan : formula m f settings b = .ok plan)
    (hother : formula m (f.withPeople reps setters) settings b = .ok other) :
    ∃ c c' general, plan.calls = [("conversion", c)] ∧ other.calls = [("conversion", c')] ∧
      c'.query.SameButOn c.query ∧ c.params = general ++ userFields f .appointments ∧
      c'.params = general ++ userFields (f.withPeople reps setters) .appointments := by
  obtain ⟨fm, start, finish, hfm, -, hdays, hcalls⟩ := of_formula hplan
  obtain ⟨fm', start', finish', hfm', -, hdays', hcalls'⟩ := of_formula hother
  obtain rfl := Option.some.inj (hm.symm.trans hfm)
  obtain rfl := Option.some.inj (hm.symm.trans hfm')
  obtain ⟨rfl, rfl⟩ := Prod.mk.inj (Except.ok.inj (hdays.symm.trans hdays'))
  refine ⟨_, _, accountFields f start finish, hcalls, hcalls', ?_, rfl, rfl⟩
  simp only [Draft.call, texts_leads]
  exact ⟨rfl, rfl, rfl, rfl, rfl, rfl, rfl, rfl⟩

end Plan

end Funnel
