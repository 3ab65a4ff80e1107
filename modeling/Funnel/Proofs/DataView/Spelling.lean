import Funnel.Proofs.DataView.Table
import Funnel.Proofs.Engine.Spelling
import Funnel.Proofs.Plan.People

/-!
# People in another letter case

A store that does not see the letter case of identifiers names the same people for all spellings of
a request, and names them in lower case. A table looks these people up under the texts that were
asked for, so whoever was asked for in capitals is left out. The row of everyone else is the same
for all spellings.
-/

set_option autoImplicit false

namespace Funnel

open Calendar Session

variable {answer : String → Fields → Except Fault Value} {e : Engine} {v : View}
  {users others metrics : List String} {records : List Value}

namespace Profile

theorem answer_call (hblind : CaseBlind answer) (v : View)
    (h : Identifier.Respelled users others) :
    answer (call v (Identifier.kept others)).sql (call v (Identifier.kept others)).params =
      answer (call v (Identifier.kept users)).sql (call v (Identifier.kept users)).params := by
  have hlength : (Identifier.kept others).length = (Identifier.kept users).length := by
    simpa using congrArg List.length h.kept_eq
  have hquery : (call v (Identifier.kept others)).sql = (call v (Identifier.kept users)).sql := by
    rw [Call.sql, Call.sql, query_call, query_call, hlength]
  have hparams : canonicalFields (call v (Identifier.kept others)).params =
      canonicalFields (call v (Identifier.kept users)).params := by
    have hvalues := map_canonical_text fun _ => @Identifier.isValid_of_mem_kept others _
    rw [h.kept_eq, ← map_canonical_text fun _ => Identifier.isValid_of_mem_kept] at hvalues
    have hnumbered := congrArg (numberedValues "user_id") hvalues
    rw [← canonicalFields_numberedValues, ← canonicalFields_numberedValues] at hnumbered
    rw [params_call, params_call]
    exact congrArg (List.cons _) hnumbered
  rw [hquery]
  exact hblind _ _ _ hparams

theorem rowsAfter_respelled (he : e.store = .ofFunction answer) (hblind : CaseBlind answer)
    (v : View) (h : Identifier.Respelled users others) :
    rowsAfter e v others [] = rowsAfter e v users [] := by
  have hkept := h.kept_eq
  have hanswer : e.store.answer [] (call v (Identifier.kept others)) =
      e.store.answer [] (call v (Identifier.kept users)) := by
    rw [he]
    exact answer_call hblind v h
  unfold rowsAfter
  cases hothers : Identifier.kept others with
  | nil =>
    rw [hothers] at hkept
    rw [List.map_eq_nil_iff.mp hkept.symm]
  | cons other more =>
    cases husers : Identifier.kept users with
    | nil => simp [hothers, husers] at hkept
    | cons user rest =>
      rw [hothers, husers] at hanswer
      simp only [hanswer]

end Profile

namespace Engine

/-- The row of whoever stands under an identifier, with all figures. -/
def foundRow (e : Engine) (v : View) (metrics : List String) (found : Named Profile)
    (user : String) : UserRow :=
  match found.find? user with
  | some p => fullRow (e.figureOf v) Profile.blankRow metrics p
  | none => ⟨user, "", none, []⟩

theorem foundRow_of_find? {found : Named Profile} {user : String} {p : Profile}
    (h : found.find? user = some p) :
    e.foundRow v metrics found user = fullRow (e.figureOf v) Profile.blankRow metrics p := by
  simp only [foundRow, h]

/-- All spellings of a request have the same rows for whomever they find. -/
theorem exists_userTable_respelled (he : e.store = .ofFunction answer) (hblind : CaseBlind answer)
    (hcheck : v.check metrics = .ok ()) (hrecords : Profile.rowsAfter e v users [] = .list records)
    (hread : ∀ record ∈ records, Profile.Readable record) : ∃ row : String → UserRow,
      (∀ user, (row user).userId = user) ∧
      ∀ others, Identifier.Respelled users others → ∀ limit,
        (e.userTable v limit others metrics).Gives (.ok (((Identifier.kept others).filter
          (· ∈ Profile.foundIds records)).eraseDups.map row)) := by
  obtain ⟨hf, hmetrics⟩ := View.of_check hcheck
  obtain ⟨found, hfound, hprofile, hknown⟩ := Profile.exists_byUser hread
  have hblank : ∀ user p, found.find? user = some p → p.emptyRow = .ok p.blankRow := by
    intro user p hp
    obtain ⟨-, record, -, h⟩ := hprofile user p hp
    exact h.emptyRow
  refine ⟨e.foundRow v metrics found, fun user => ?_, fun others h limit => ?_⟩
  · cases hfind : found.find? user with
    | none => simp only [foundRow, hfind]
    | some p =>
      rw [foundRow_of_find? hfind]
      exact (hprofile user p hfind).1
  · have hload : (Profile.load e v others).Gives
        (.ok ((Identifier.kept others).filterMap found.find?)) := by
      apply Profile.gives_load he
      rw [Profile.rowsAfter_respelled he hblind v h, hrecords, hfound]
    have hmem : ∀ p ∈ (Identifier.kept others).filterMap found.find?, ∃ user,
        found.find? user = some p := by
      intro p hp
      obtain ⟨user, -, hsome⟩ := List.mem_filterMap.mp hp
      exact ⟨user, hsome⟩
    have hids : ((Identifier.kept others).filterMap found.find?).map Profile.userId =
        (Identifier.kept others).filter (· ∈ Profile.foundIds records) := by
      obtain ⟨again, hagain, hids, -⟩ := Profile.exists_lookup hread
        fun _ => @Identifier.ne_empty_of_mem_kept others _
      rwa [← Except.ok.inj (hfound.symm.trans hagain)] at hids
    have htable : (e.userTable v limit others metrics).Gives (.ok ((filled (e.figureOf v)
        ((Identifier.kept others).filterMap found.find?) metrics Profile.blankRow).map
          Prod.snd)) := by
      refine gives_userTable hcheck hload (fun p hp => ?_) fun t ht => ?_
      · obtain ⟨user, hp⟩ := hmem p hp
        exact hblank user p hp
      · obtain ⟨hp, hname⟩ := mem_tasks.mp ht
        obtain ⟨user, hp⟩ := hmem t.1 hp
        obtain ⟨-, record, -, h⟩ := hprofile user t.1 hp
        exact gives_figureOf he hf h (hmetrics t.2 hname)
    rw [filled_eq (e.figureOf v) Profile.blankRow (fun user p hp => (hprofile user p hp).1)
      Profile.cells_blankRow (fun _ _ => foundRow_of_find?), hids, List.map_map] at htable
    exact htable

end Engine

def kim : Value := Profile.kim "0f8fad5b-d9cb-469f-a165-70867728950e" .null

def kimAnswer : String → Fields → Except Fault Value := Profile.finding kim (.ok (.list []))

theorem caseBlind_kimAnswer : CaseBlind kimAnswer := caseBlind_ite _ _ _

theorem readable_kim : ∀ record ∈ [kim], Profile.Readable record :=
  Profile.readable_kim _ (.inl rfl)

theorem check_february : Profile.february.check ["cash_per_dial"] = .ok () :=
  View.check_of_known Profile.reasons_february
    (List.forall_mem_singleton.mpr ⟨_, Registry.find?_cashPerDial⟩)

/-- Letter case is identity where the texts of identifiers are compared. With a store that answers
by text and parameters alone, whatever the letter case of the identifiers bound, and that names
people in lower case, the rows of a table are the same for all spellings of a request, but only
whoever is spelled in lower case has one. Where cash is set against allocated spend by reps, all
spellings show the reps that the store has figures on, with the same amounts, and behind them the
requested reps whose texts are others, so that nobody is shown twice, letter case aside, just if
nobody known or requested is spelled in two ways. If the store has no figures, nobody is shown. -/
theorem letterCase_separates (he : e.store = .ofFunction answer) (hblind : CaseBlind answer) :
    (∀ (v : View) (users metrics : List String) (records : List Value), v.check metrics = .ok () →
      Profile.rowsAfter e v users [] = .list records →
      (∀ record ∈ records, Profile.Readable record) →
      (∀ user ∈ Profile.foundIds records, Identifier.canonical user = user) →
      ∃ row : String → UserRow, (∀ user, (row user).userId = user) ∧
        ∀ others, Identifier.Respelled users others → ∀ limit,
          (e.userTable v limit others metrics).Gives (.ok
            (((Identifier.kept others).filter fun user => Identifier.canonical user = user ∧
              Identifier.canonical user ∈ Profile.foundIds records).eraseDups.map row))) ∧
    ∀ (name : String) (m : Metric) (f : Filters) (o : Options), Registry.find? name = some m →
      m.formula = some .repRoi → f.reasons = [] → selectStrategy m o = .ok (.special, .rep) →
      (∀ ids, ∃ names, e.names.resolve ids = .ok names) →
      (Plan.Answered e.zones answer m f o.settings .rep →
        ∃ (known : Named Float) (blank : Float), known.names.Nodup ∧ ∀ f', f.Respelled f' →
          (e.execute ⟨name, f', some o⟩ none).Answers fun response =>
            ∃ rows, response.result = .rep rows ∧
              (rows.map RepRow.pair).Perm (known ++
                (((Identifier.kept f'.repIds).removeAll known.names).eraseDups.map
                  fun id => (id, blank))) ∧
              ((rows.map fun row => Identifier.canonical row.repId).Nodup ↔
                ∀ a ∈ known.names ++ Identifier.kept f'.repIds,
                  ∀ b ∈ known.names ++ Identifier.kept f'.repIds,
                    Identifier.canonical a = Identifier.canonical b → a = b)) ∧
      (¬Plan.Answered e.zones answer m f o.settings .rep → ∀ f', f.Respelled f' →
        (e.execute ⟨name, f', some o⟩ none).Answers
          fun response => response.result = .rep []) := by
  constructor
  · intro v users metrics records hcheck hrecords hread hlower
    obtain ⟨row, hrow, htable⟩ :=
      Engine.exists_userTable_respelled he hblind hcheck hrecords hread
    refine ⟨row, hrow, fun others h limit => ?_⟩
    have hfound : (Identifier.kept others).filter (fun user => Identifier.canonical user = user ∧
        Identifier.canonical user ∈ Profile.foundIds records) =
          (Identifier.kept others).filter (· ∈ Profile.foundIds records) := by
      refine List.filter_congr fun user _ => decide_eq_decide.mpr ?_
      constructor
      · rintro ⟨hsame, hmem⟩
        rwa [hsame] at hmem
      · intro hmem
        have hsame := hlower user hmem
        exact ⟨hsame, hsame.symm ▸ hmem⟩
    rw [hfound]
    exact htable others h limit
  · intro name m f o hm hformula hf hs hnames
    refine ⟨fun hanswered => ?_, Engine.answers_nobody he hblind hnames hm hformula hf hs⟩
    obtain ⟨known, blank, hnodup, hanswers⟩ :=
      Engine.answers_reps he hblind hnames hm hformula hf hs hanswered
    refine ⟨known, blank, hnodup, fun f' h => (hanswers f' h).mono fun response => ?_⟩
    rintro ⟨rows, hresult, hperm⟩
    exact ⟨rows, hresult, hperm, Result.nodup_reps_iff hnodup hperm⟩

/-- Kim is asked for in capitals and in lower case, for a table and for the cash against allocated
spend. The table has one row, and without figures the cash shows Kim twice. -/
theorem letterCase_separates_kim : ∃ (e : Engine) (v : View) (f : Filters) (row : UserRow),
    row.userId = "0f8fad5b-d9cb-469f-a165-70867728950e" ∧
    (e.userTable v 2 ["0F8FAD5B-D9CB-469F-A165-70867728950E",
      "0f8fad5b-d9cb-469f-a165-70867728950e"] ["cash_per_dial"]).Gives (.ok [row]) ∧
    f.reasons = [] ∧ (e.execute ⟨"rep_roi", f, some .none⟩ none).Answers fun response =>
      ∃ rows, response.result = .rep rows ∧
        ¬(rows.map fun row => Identifier.canonical row.repId).Nodup := by
  let twice := ["0F8FAD5B-D9CB-469F-A165-70867728950E", "0f8fad5b-d9cb-469f-a165-70867728950e"]
  have hkept : Identifier.kept twice = twice := by decide
  let e := Engine.plain kimAnswer
  obtain ⟨htable, hreps⟩ := @letterCase_separates kimAnswer e rfl caseBlind_kimAnswer
  obtain ⟨row, hrow, htable⟩ := htable Profile.february twice ["cash_per_dial"] [kim] check_february
    (Profile.rowsAfter_finding (by rw [hkept]; nofun)) readable_kim (by decide)
  have hshown : ((Identifier.kept twice).filter fun user => Identifier.canonical user = user ∧
      Identifier.canonical user ∈ Profile.foundIds [kim]).eraseDups =
        ["0f8fad5b-d9cb-469f-a165-70867728950e"] := by decide
  have hgives := htable twice rfl 2
  rw [hshown] at hgives
  let f := Filters.between "north" "2024-01-29" "2024-02-20" twice []
  have hm := @Registry.find?_special Registry.specialMetrics[1] (List.getElem_mem _)
  have hf : f.reasons = [] := by decide
  have hanswered : Plan.Answered e.zones kimAnswer Registry.specialMetrics[1] f [] .rep := by
    obtain ⟨start, finish, hc⟩ := Filters.checked_of_reasons hf
    have hcount : f.headcount = ⟨2, 0⟩ := congrArg (fun ids => Headcount.mk ids.length 0) hkept
    have hcall : ∀ d : Draft, "user_id_0" ∉ d.scope.names ⟨2, 0⟩ → kimAnswer
        (d.call f start finish).sql (d.call f start finish).params = .ok (.list []) := by
      intro d hd
      refine Profile.finding_of_notMem _ _ _ ?_
      rwa [Draft.call, Scope.names_fields, hcount]
    refine (Engine.answered_iff rfl hc.days []).mpr ⟨⟨[], 0.0, 0.0⟩, ?_⟩
    rw [Engine.repFigures, Plan.repFigures, hcall _ (by decide),
      hcall _ (by decide), hcall _ (by decide)]
    rfl
  have hnames : ∀ ids, ∃ names, e.names.resolve ids = .ok names := fun _ => ⟨_, rfl⟩
  obtain ⟨known, blank, -, hanswers⟩ := (hreps "rep_roi" _ f .none hm rfl hf rfl hnames).1 hanswered
  have hshows := hanswers f ⟨rfl, rfl, rfl, rfl⟩
  refine ⟨e, Profile.february, f, row _, hrow _, hgives, hf, hshows.mono ?_⟩
  rintro response ⟨rows, hresult, -, honce⟩
  refine ⟨rows, hresult, fun hnodup => ?_⟩
  have hrequested : ∀ id ∈ twice, id ∈ known.names ++ Identifier.kept f.repIds :=
    fun id hid => List.mem_append_right _ (hkept.symm ▸ hid)
  have hsame := honce.mp hnodup _ (hrequested _ List.mem_cons_self) _
    (hrequested _ (List.mem_cons_of_mem _ List.mem_cons_self)) (by decide)
  exact absurd hsame (by decide)

/-- Kim has a row under the identifier in lower case and none under the same one in capitals. -/
theorem row_lost_in_capitals : ∃ (answer : String → Fields → Except Fault Value) (e : Engine)
    (v : View) (row : UserRow), e.store = .ofFunction answer ∧ CaseBlind answer ∧
    v.check ["cash_per_dial"] = .ok () ∧
    Identifier.Respelled ["0f8fad5b-d9cb-469f-a165-70867728950e"]
      ["0F8FAD5B-D9CB-469F-A165-70867728950E"] ∧
    (e.userTable v 2 ["0f8fad5b-d9cb-469f-a165-70867728950e"] ["cash_per_dial"]).Gives
      (.ok [row]) ∧
    (e.userTable v 2 ["0F8FAD5B-D9CB-469F-A165-70867728950E"] ["cash_per_dial"]).Gives
      (.ok []) := by
  have hlower : Identifier.kept ["0f8fad5b-d9cb-469f-a165-70867728950e"] =
      ["0f8fad5b-d9cb-469f-a165-70867728950e"] := by decide
  have hcapitals : Identifier.kept ["0F8FAD5B-D9CB-469F-A165-70867728950E"] =
      ["0F8FAD5B-D9CB-469F-A165-70867728950E"] := by decide
  have hfound : Profile.foundIds [kim] = ["0f8fad5b-d9cb-469f-a165-70867728950e"] := rfl
  let e := Engine.plain kimAnswer
  obtain ⟨row, -, htable⟩ := @Engine.exists_userTable_respelled kimAnswer e Profile.february _ _ _
    rfl caseBlind_kimAnswer check_february
    (Profile.rowsAfter_finding (by rw [hlower]; nofun)) readable_kim
  have hrespelled : Identifier.Respelled ["0f8fad5b-d9cb-469f-a165-70867728950e"]
      ["0F8FAD5B-D9CB-469F-A165-70867728950E"] := by
    unfold Identifier.Respelled
    decide
  have hkim := htable _ rfl 2
  have hnobody := htable _ hrespelled 2
  rw [hlower, hfound] at hkim
  rw [hcapitals, hfound] at hnobody
  exact ⟨kimAnswer, e, Profile.february, _, rfl, caseBlind_kimAnswer, check_february, hrespelled,
    hkim, hnobody⟩

end Funnel
