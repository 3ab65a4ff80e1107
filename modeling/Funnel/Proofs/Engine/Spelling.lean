import Funnel.Proofs.Engine.Answer
import Funnel.Proofs.Engine.Pointwise
import Funnel.Proofs.Filter.Spelling
import Funnel.Proofs.Plan.Reps

/-!
# Reps in another letter case

A store that gives identifiers in lower case finds a requested rep in whatever letter case the
request has. The result tells reps apart by their texts, so that a rep whom the store has figures on
stands in it a second time, with nothing, if the request spells the rep in capitals.
-/

set_option autoImplicit false

namespace Funnel

open Calendar Session

def RepRow.pair (row : RepRow) : String × Float := (row.repId, row.value)

/-- A result with the known reps and, behind these, the requested ones whose texts are other than
theirs. -/
def Result.ShowsReps (known : Named Float) (blank : Float) (requested : List String)
    (r : Result) : Prop :=
  ∃ rows, r = .rep rows ∧ (rows.map RepRow.pair).Perm
    (known ++ ((requested.removeAll known.names).eraseDups.map fun id => (id, blank)))

namespace Result

/-- No rep is in the result twice, letter case aside, just if nobody among the known and the
requested reps is spelled in two ways. -/
theorem nodup_reps_iff {known : Named Float} (hknown : known.names.Nodup) {blank : Float}
    {requested : List String} {rows : List RepRow} (h : (rows.map RepRow.pair).Perm
      (known ++ ((requested.removeAll known.names).eraseDups.map fun id => (id, blank)))) :
    (rows.map fun row => Identifier.canonical row.repId).Nodup ↔
      ∀ a ∈ known.names ++ requested, ∀ b ∈ known.names ++ requested,
        Identifier.canonical a = Identifier.canonical b → a = b := by
  have hids : (rows.map RepRow.repId).Perm
      (known.names ++ (requested.removeAll known.names).eraseDups) := by
    have hfirst := h.map Prod.fst
    have hnew : (requested.removeAll known.names).eraseDups.map
        (Prod.fst ∘ fun id => (id, blank)) = (requested.removeAll known.names).eraseDups :=
      List.map_id' _
    rw [List.map_map, List.map_append, List.map_map, hnew] at hfirst
    exact hfirst
  have hnodup : (rows.map RepRow.repId).Nodup :=
    hids.nodup_iff.mpr (Named.nodup_requested hknown requested)
  have hmem : ∀ id, id ∈ rows.map RepRow.repId ↔ id ∈ known.names ++ requested := by
    intro id
    rw [hids.mem_iff, List.mem_append, List.mem_append, List.mem_eraseDups, List.removeAll]
    by_cases hold : id ∈ known.names <;> simp [hold]
  have hmap : (rows.map fun row => Identifier.canonical row.repId) =
      (rows.map RepRow.repId).map Identifier.canonical := by
    rw [List.map_map]
    rfl
  rw [hmap, List.nodup_map_iff_inj_on hnodup]
  simp only [hmem]

theorem keyOf_rep {id : String} (hid : id ≠ "") (x : Value) :
    keyOf (.object [("rep_id", .text id), ("value", x)]) "rep_id" = .ok (some id) := by
  have hget : (Value.object [("rep_id", .text id), ("value", x)]).get "rep_id" =
      .ok (.text id) := rfl
  refine Fault.bind_eq_ok_iff.mpr ⟨_, hget, ?_⟩
  split
  · rename_i heq
    cases heq
  · rename_i heq
    cases heq
    exact absurd rfl hid
  · rfl

theorem repRow?_rep {id : String} (hid : id ≠ "") (x : Float) :
    repRow? (.object [("rep_id", .text id), ("value", .double x)]) =
      .ok (some ⟨id, none, Value.orZero (Value.finite? x)⟩) :=
  Fault.bind_eq_ok_iff.mpr ⟨_, keyOf_rep hid (.double x), rfl⟩

theorem shape_reps {reps : List (String × Float)} (h : ∀ p ∈ reps, p.1 ≠ "") (gap : Bool) :
    shape .rep (.list (Plan.rowsOfReps reps)) none gap =
      .ok (.rep (reps.map fun p => ⟨p.1, none, Value.orZero (Value.finite? p.2)⟩)) := by
  have hrows : (Plan.rowsOfReps reps).mapM repRow? =
      .ok (reps.map fun p => some ⟨p.1, none, Value.orZero (Value.finite? p.2)⟩) := by
    rw [Plan.rowsOfReps, List.mapM_map]
    exact Fault.mapM_eq_ok fun p hp => repRow?_rep (h p hp) p.2
  refine Fault.bind_eq_ok_iff.mpr ⟨_, Engine.rowsOf_list _, ?_⟩
  refine Fault.bind_eq_ok_iff.mpr ⟨_, hrows, ?_⟩
  simp [List.filterMap_map]

end Result

/-- The queries of a formula are answered, and their rows can be combined. -/
def Plan.Answered (known : Zones) (answer : String → Fields → Except Fault Value) (m : Metric)
    (f : Filters) (settings : Fields) (b : Breakdown) : Prop :=
  ∃ plan rows, formula m f settings b = .ok plan ∧ plan.rows known answer = .ok rows

namespace Engine

variable {known : Zones} {answer : String → Fields → Except Fault Value} {e : Engine} {m : Metric}
  {f f' : Filters} {settings : Fields} {start finish : Date}

/-- Names are put beside the rows of a result and change nothing else. -/
theorem answers_fillNames_reps (hnames : ∀ ids, ∃ names, e.names.resolve ids = .ok names)
    (rows : List RepRow) : (e.fillNames (.rep rows)).Answers fun result =>
      ∃ named, result = .rep named ∧ named.map RepRow.pair = rows.map RepRow.pair := by
  refine (answers_fillNames_or e hnames _).mono ?_
  rintro _ (⟨-, rfl⟩ | ⟨names, rfl⟩)
  · exact ⟨rows, rfl, rfl⟩
  · refine ⟨_, rfl, ?_⟩
    rw [List.map_map]
    rfl

def repFigures (answer : String → Fields → Except Fault Value) (f : Filters)
    (start finish : Date) : Except Fault Plan.RepFigures :=
  Plan.repFigures answer ((Plan.repStatsDraft f.headcount).call f start finish)
    (Plan.totalAppointmentsDraft.call f start finish) (Plan.spendDraft.call f start finish)

theorem repFigures_respelled (hblind : CaseBlind answer) (h : f.Respelled f') :
    repFigures answer f' start finish = repFigures answer f start finish := by
  rw [repFigures, Plan.repFigures, h.headcount, h.answer_call hblind, h.answer_call hblind,
    h.answer_call hblind]
  rfl

theorem gives_reps (he : e.store = .ofFunction answer) (hformula : m.formula = some .repRoi)
    (hdays : f.days = .ok (start, finish)) (o : Options) :
    (e.run m f o .special .rep).Gives (repFigures answer f start finish >>= fun found =>
      .ok (.rep ((found.reps (Plan.showsMultiple m o.settings) (Identifier.kept f.repIds)).map
        fun p => ⟨p.1, none, Value.orZero (Value.finite? p.2)⟩))) := by
  obtain ⟨plan, hplan, -⟩ := Plan.exact_of_formula hformula (by decide) hdays o.settings .rep
  have hrun : e.run m f o .special .rep = e.runFormula m f o.settings .rep := by
    rw [run, if_neg (by rw [hformula]; decide), if_neg (by decide)]
  have hrows := Plan.rows_repRoiPlan hdays (by rwa [Plan.formula, hformula] at hplan) e.zones answer
  rw [← repFigures] at hrows
  rw [hrun]
  refine gives_bind_ok (gives_ofExcept_of_eq hplan) ?_
  cases hfound : repFigures answer f start finish with
  | error fault =>
    have hfails : plan.rows e.zones answer = .error fault := by
      rw [hrows, hfound]
      rfl
    exact gives_bind_error (hfails ▸ gives_runPlan he plan)
  | ok found =>
    have hnamed := Plan.RepFigures.named_reps (Plan.showsMultiple m o.settings)
      (Plan.properStats_repFigures hfound) fun _ => @Identifier.ne_empty_of_mem_kept f.repIds _
    rw [hfound] at hrows
    refine gives_bind_ok (hrows ▸ gives_runPlan he plan) ?_
    exact gives_ofExcept_of_eq (Result.shape_reps hnamed _)

theorem answered_iff (hformula : m.formula = some .repRoi) (hdays : f.days = .ok (start, finish))
    (settings : Fields) : Plan.Answered known answer m f settings .rep ↔
      ∃ found, repFigures answer f start finish = .ok found := by
  obtain ⟨plan, hplan, -⟩ := Plan.exact_of_formula hformula (by decide) hdays settings .rep
  have hrows := Plan.rows_repRoiPlan hdays (by rwa [Plan.formula, hformula] at hplan) known answer
  rw [← repFigures] at hrows
  constructor
  · rintro ⟨other, rows, hother, hanswered⟩
    obtain rfl : plan = other := Except.ok.inj (hplan.symm.trans hother)
    obtain ⟨found, hfound, -⟩ := Fault.bind_eq_ok_iff.mp (hrows.symm.trans hanswered)
    exact ⟨found, hfound⟩
  · rintro ⟨found, hfound⟩
    rw [hfound] at hrows
    exact ⟨plan, _, hplan, hrows⟩

section Reps

variable (he : e.store = .ofFunction answer) (hblind : CaseBlind answer)
  (hnames : ∀ ids, ∃ names, e.names.resolve ids = .ok names) {name : String}
  (hm : Registry.find? name = some m) (hformula : m.formula = some .repRoi) (hf : f.reasons = [])
  {o : Options} (hs : selectStrategy m o = .ok (.special, .rep))

include he hblind hnames hm hformula hf hs

/-- All spellings of a request show the reps that the store has figures on, with the same amounts,
and requested reps with nothing whose texts are others. -/
theorem answers_reps (hanswered : Plan.Answered e.zones answer m f o.settings .rep) :
    ∃ (known : Named Float) (blank : Float), known.names.Nodup ∧ ∀ f', f.Respelled f' →
      (e.execute ⟨name, f', some o⟩ none).Answers
        fun response => response.result.ShowsReps known blank (Identifier.kept f'.repIds) := by
  obtain ⟨start, finish, hc⟩ := Filters.checked_of_reasons hf
  obtain ⟨found, hfound⟩ := (answered_iff hformula hc.days o.settings).mp hanswered
  refine ⟨found.known (Plan.showsMultiple m o.settings),
    found.shown (Plan.showsMultiple m o.settings) .none, ?_, fun f' h => ?_⟩
  · rw [found.names_known]
    exact (Plan.properStats_repFigures hfound).nodup
  · have hgives := gives_reps he hformula (h.days.trans hc.days) o
    rw [repFigures_respelled hblind h, hfound] at hgives
    rw [execute_of_checked hm (h.reasons.trans hf) hs]
    refine answers_bind (gives_orElse hgives (.rep [])).answers ?_
    rintro _ rfl
    refine answers_bind (answers_fillNames_reps hnames _) ?_
    rintro _ ⟨named, rfl, hnamed⟩
    refine answers_pure ⟨named, rfl, ?_⟩
    rw [hnamed, List.map_map, found.names_known]
    exact found.perm_reps _ _

theorem answers_nobody (hrefused : ¬Plan.Answered e.zones answer m f o.settings .rep) (f' : Filters)
    (h : f.Respelled f') : (e.execute ⟨name, f', some o⟩ none).Answers
      fun response => response.result = .rep [] := by
  obtain ⟨start, finish, hc⟩ := Filters.checked_of_reasons hf
  rw [answered_iff hformula hc.days] at hrefused
  obtain ⟨fault, hfails⟩ : ∃ fault, repFigures answer f start finish = .error fault := by
    cases hfigures : repFigures answer f start finish with
    | error fault => exact ⟨fault, rfl⟩
    | ok found => exact absurd ⟨found, hfigures⟩ hrefused
  have hgives := gives_reps he hformula (h.days.trans hc.days) o
  rw [repFigures_respelled hblind h, hfails] at hgives
  rw [execute_of_checked hm (h.reasons.trans hf) hs]
  refine answers_bind (gives_orElse hgives (.rep [])).answers ?_
  rintro _ rfl
  refine answers_bind (answers_fillNames_reps hnames []) ?_
  rintro _ ⟨named, rfl, hnamed⟩
  exact answers_pure (congrArg Result.rep (List.map_eq_nil_iff.mp hnamed))

end Reps

end Engine

end Funnel
