import Funnel.Proofs.Engine.Answer
import Funnel.Proofs.Engine.Steady
import Funnel.Proofs.Named

/-!
# Looking up names

A lookup that is not answered gives no names, and everyone is shown by identifier. One that is
answered has to list profiles whose names are texts or not given: a row that is something else fails
the lookup, and with it every request whose result has somebody in it.
-/

set_option autoImplicit false

namespace Funnel

theorem Text.trim_trim (s : String) : trim (trim s) = trim s := by
  rw [trim, trim, String.toList_ofList, trimChars_trimChars]

namespace NameSource

def IsTrimmed (s : String) : Prop := s ≠ "" ∧ Text.trim s = s

/-- Each person has one name, and both are trimmed texts. -/
def IsNameMap (names : Named String) : Prop :=
  names.names.Nodup ∧ ∀ p ∈ names, IsTrimmed p.1 ∧ IsTrimmed p.2

def ProfileReadable : Value → Prop
  | .object profile =>
    let name := (Named.find? profile "full_name").getD .null
    name.isGiven = true → ∃ s, name = .text s
  | _ => False

/-- What a lookup is answered with lists profiles that can be read, or is not given. -/
def ProfilesReadable (rows : Value) : Prop :=
  rows.isGiven = true → ∃ items, rows = .list items ∧ ∀ item ∈ items, ProfileReadable item

def idOf (profile : Fields) : String :=
  Text.trim ((Named.find? profile "id").getD (.text "")).toText

theorem entryOf?_object (profile : Fields) : entryOf? (.object profile) =
    match ((Named.find? profile "full_name").getD .null).orElse (.text "") with
    | .text name =>
      .ok (if idOf profile = "" ∨ Text.trim name = "" then none
        else some (idOf profile, Text.trim name))
    | _ => .error .noSuchField := rfl

theorem exists_orElse_eq_text_iff {v : Value} :
    (∃ s, v.orElse (.text "") = .text s) ↔ (v.isGiven = true → ∃ s, v = .text s) := by
  unfold Value.orElse
  split
  · rename_i hgiven
    exact ⟨fun h _ => h, fun h => h hgiven⟩
  · rename_i hmissing
    exact ⟨fun _ h => absurd h hmissing, fun _ => ⟨"", rfl⟩⟩

theorem exists_entryOf?_iff {row : Value} :
    (∃ entry, entryOf? row = .ok entry) ↔ ProfileReadable row := by
  cases row with
  | object profile =>
    rw [entryOf?_object, ProfileReadable, ← exists_orElse_eq_text_iff]
    generalize ((Named.find? profile "full_name").getD .null).orElse (.text "") = name
    cases name with
    | text s => exact ⟨fun _ => ⟨s, rfl⟩, fun _ => ⟨_, rfl⟩⟩
    | _ =>
      constructor
      · rintro ⟨_, ⟨⟩⟩
      · rintro ⟨_, ⟨⟩⟩
  | _ =>
    constructor
    · rintro ⟨_, ⟨⟩⟩
    · exact False.elim

theorem isTrimmed_of_entryOf? {row : Value} {p : String × String}
    (h : entryOf? row = .ok (some p)) : IsTrimmed p.1 ∧ IsTrimmed p.2 := by
  cases row with
  | object profile =>
    rw [entryOf?_object] at h
    split at h
    · split at h
      · cases h
      · rename_i hfilled
        obtain rfl := Option.some.inj (Except.ok.inj h)
        obtain ⟨hid, hname⟩ := not_or.mp hfilled
        exact ⟨⟨hid, Text.trim_trim _⟩, hname, Text.trim_trim _⟩
    · cases h
  | _ => cases h

theorem isList_of_readable {rows : Value} {items : List Value} (hgiven : rows.isGiven = true)
    (hitems : rows.entries = .ok items) (h : ∀ item ∈ items, ProfileReadable item) :
    rows = .list items := by
  cases rows with
  | list own => exact congrArg Value.list (Except.ok.inj hitems)
  | text s =>
    cases hitems
    cases hs : s.toList with
    | nil => simp [Value.isGiven, String.toList_eq_nil_iff.mp hs] at hgiven
    | cons c cs => exact (h (.text (String.singleton c)) (by simp [hs])).elim
  | object fields =>
    cases hitems
    cases fields with
    | nil => cases hgiven
    | cons p fields => exact (h (.text p.1) List.mem_cons_self).elim
  | _ => cases hitems

theorem namesOfRows_eq (rows : Value) : namesOfRows rows = (do
    let items ← (if rows.isGiven then rows.entries else .ok [])
    let entries ← items.mapM entryOf?
    .ok (Named.putAll [] (entries.filterMap id))) := by
  unfold namesOfRows
  split <;> rfl

theorem exists_namesOfRows_iff {rows : Value} :
    (∃ names, namesOfRows rows = .ok names) ↔ ProfilesReadable rows := by
  have hread : (∃ names, namesOfRows rows = .ok names) ↔
      ∃ items, (if rows.isGiven then rows.entries else .ok []) = .ok items ∧
        ∀ item ∈ items, ProfileReadable item := by
    simp only [namesOfRows_eq, Fault.bind_eq_ok_iff, ← exists_entryOf?_iff,
      ← Fault.exists_mapM_eq_ok_iff]
    constructor
    · rintro ⟨names, items, hitems, entries, hentries, -⟩
      exact ⟨items, hitems, entries, hentries⟩
    · rintro ⟨items, hitems, entries, hentries⟩
      exact ⟨_, items, hitems, entries, hentries, rfl⟩
  rw [hread, ProfilesReadable]
  by_cases hgiven : rows.isGiven = true
  · rw [if_pos hgiven]
    constructor
    · rintro ⟨items, hitems, hall⟩ -
      exact ⟨items, isList_of_readable hgiven hitems hall, hall⟩
    · intro h
      obtain ⟨items, rfl, hall⟩ := h hgiven
      exact ⟨items, rfl, hall⟩
  · rw [if_neg hgiven]
    exact ⟨fun _ h => absurd h hgiven, fun _ => ⟨[], rfl, List.forall_mem_nil _⟩⟩

theorem isNameMap_of_namesOfRows {rows : Value} {names : Named String}
    (h : namesOfRows rows = .ok names) : IsNameMap names := by
  rw [namesOfRows_eq] at h
  obtain ⟨items, -, h⟩ := Fault.bind_eq_ok_iff.mp h
  obtain ⟨entries, hentries, h⟩ := Fault.bind_eq_ok_iff.mp h
  cases h
  have hall := Fault.forall_of_mapM (fun _ _ => isTrimmed_of_entryOf?) hentries
  refine ⟨@Named.nodup_names_putAll _ [] List.nodup_nil _, fun p hp => ?_⟩
  rcases Named.mem_putAll hp with hp | hp
  · cases hp
  · exact hall p hp

theorem lookup?_eq_none_iff {ids : List String} : lookup? ids = none ↔ ∀ id ∈ ids, id = "" := by
  have hnone : lookup? ids = none ↔ lookupIds ids = [] := by
    unfold lookup?
    split
    · rename_i hnil
      exact ⟨fun _ => hnil, fun _ => rfl⟩
    · rename_i hne
      exact ⟨nofun, fun hnil => absurd hnil hne⟩
  have hempty : lookupIds ids = [] ↔ ids.filter (fun id => id != "") = [] :=
    ⟨Result.eq_nil_of_sorted_eq_nil, fun h => by simp [lookupIds, h]⟩
  rw [hnone, hempty, List.filter_eq_nil_iff]
  simp

theorem resolve_profiles (rows : Option Value) (ids : List String) :
    (profiles rows).resolve ids = match lookup? ids with
      | some _ => rows.elim (.ok []) namesOfRows
      | none => .ok [] := by
  cases hasked : lookup? ids <;> cases rows <;> simp [resolve, hasked]

/-- Profiles give names exactly if nobody is looked up, the lookup is not answered, or all that it
is answered with can be read. -/
theorem exists_resolve_profiles_iff {rows : Option Value} {ids : List String} :
    (∃ names, (profiles rows).resolve ids = .ok names) ↔
      (∀ id ∈ ids, id = "") ∨ ∀ found ∈ rows, ProfilesReadable found := by
  rw [← lookup?_eq_none_iff, resolve_profiles]
  cases lookup? ids with
  | none => exact ⟨fun _ => .inl rfl, fun _ => ⟨[], rfl⟩⟩
  | some asked =>
    cases rows with
    | none => exact ⟨fun _ => .inr nofun, fun _ => ⟨[], rfl⟩⟩
    | some found => simp [exists_namesOfRows_iff]

theorem isNameMap_of_resolve_profiles {rows : Option Value} {ids : List String}
    {names : Named String} (h : (profiles rows).resolve ids = .ok names) : IsNameMap names := by
  have hnil : IsNameMap [] := ⟨List.nodup_nil, List.forall_mem_nil _⟩
  rw [resolve_profiles] at h
  split at h
  · cases rows with
    | none =>
      cases h
      exact hnil
    | some found => exact isNameMap_of_namesOfRows h
  · cases h
    exact hnil

end NameSource

theorem Session.run_bind_pure_ok_iff {α β : Type} {x : Session α} {g : α → β} {t : Trace} :
    (∃ b u, (x >>= fun a => pure (g a)).run t = (.ok b, u)) ↔ ∃ a u, x.run t = (.ok a, u) := by
  rw [run_bind]
  rcases x.run t with ⟨fault | a, u⟩
  · constructor
    · rintro ⟨_, _, ⟨⟩⟩
    · rintro ⟨_, _, ⟨⟩⟩
  · exact ⟨fun _ => ⟨a, u, rfl⟩, fun _ => ⟨g a, u, rfl⟩⟩

namespace Result

theorem userIds_withNames (names : Named String) (r : Result) :
    (r.withNames names).userIds = r.userIds := by
  cases r <;> simp [withNames, userIds, Function.comp_def]

theorem Sound.ne_empty_of_mem_userIds {gap : Bool} {r : Result} (h : r.Sound gap) :
    ∀ id ∈ r.userIds, id ≠ "" := by
  intro id hid
  unfold userIds at hid
  rw [List.mem_mergeSort, List.mem_eraseDups] at hid
  cases r with
  | total value => cases hid
  | time rows => cases hid
  | rep rows =>
    obtain ⟨row, hrow, rfl⟩ := List.mem_map.mp hid
    exact (h row hrow).1
  | setter rows =>
    obtain ⟨row, hrow, rfl⟩ := List.mem_map.mp hid
    exact (h row hrow).1
  | link rows =>
    rcases List.mem_append.mp hid with hid | hid
    · obtain ⟨row, hrow, rfl⟩ := List.mem_map.mp hid
      exact (h row hrow).1.2
    · obtain ⟨row, hrow, rfl⟩ := List.mem_map.mp hid
      exact (h row hrow).1.1

end Result

namespace Engine

open NameSource

theorem answers_fillNames_nowhere {e : Engine} (he : e.names = .nowhere) (r : Result) :
    (e.fillNames r).Answers fun filled => filled.userIds = r.userIds := by
  have hnames : ∀ ids, ∃ names, e.names.resolve ids = .ok names := fun _ => ⟨[], by rw [he]; rfl⟩
  refine (answers_fillNames_or e hnames r).mono ?_
  rintro _ (⟨-, rfl⟩ | ⟨names, rfl⟩)
  · rfl
  · exact Result.userIds_withNames names r

/-- Names are filled in from profiles exactly if nobody is in the result or the profiles can be
read. -/
theorem fillNames_profiles_ok_iff {e : Engine} {rows : Option Value}
    (he : e.names = .profiles rows) {gap : Bool} {r : Result} (h : r.Sound gap) (t : Trace) :
    (∃ filled u, (e.fillNames r).run t = (.ok filled, u)) ↔
      r.userIds = [] ∨ ∀ found ∈ rows, ProfilesReadable found := by
  have hids := h.ne_empty_of_mem_userIds
  rw [fillNames, he]
  split
  · rename_i hnobody
    exact ⟨fun _ => .inl hnobody, fun _ => ⟨r, t, rfl⟩⟩
  · rename_i hsomebody
    obtain ⟨id, hid⟩ := List.exists_mem_of_ne_nil _ hsomebody
    have hlooked : ¬ ∀ id ∈ r.userIds, id = "" := fun hall => hids id hid (hall id hid)
    have hresolve := @exists_resolve_profiles_iff rows r.userIds
    rw [or_iff_right hlooked] at hresolve
    rw [or_iff_right hsomebody, ← hresolve]
    change (∃ filled u, (Session.noteLookup r.userIds >>= fun _ =>
      Session.ofExcept ((profiles rows).resolve r.userIds) >>= fun names =>
        pure (r.withNames names)).run t = (.ok filled, u)) ↔ _
    cases (profiles rows).resolve r.userIds with
    | ok names => exact ⟨fun _ => ⟨names, rfl⟩, fun _ => ⟨r.withNames names, _, rfl⟩⟩
    | error fault =>
      constructor
      · rintro ⟨filled, u, ⟨⟩⟩
      · rintro ⟨names, ⟨⟩⟩

/-- A checked request comes to the same result before names are filled in, wherever these are
looked up. -/
theorem exists_run_execute (e : Engine) {r : Request} {m : Metric} (hf : r.filters.reasons = [])
    (hm : Registry.find? r.metricName = some m) (o : Option Options) (t : Trace) :
    ∃ result s b u, result.Sound m.gapWhenEmpty ∧ ∀ source,
      ({ e with names := source }.execute r o).run t =
        ({ e with names := source }.fillNames result >>= fun named =>
          pure ⟨r.metricName, r.filters, named, b, s⟩ : Session Response).run u := by
  obtain ⟨_, ht⟩ := Registry.exists_table hm
  obtain ⟨s, b, hs⟩ := exists_selectStrategy ht ((o.or r.options).getD .none)
  have hwork := Registry.breakdown_of_workTimeframe hm
  obtain ⟨result, u, hrun, hfits⟩ := Session.answers_orElse (yields_run e hwork hs r.filters)
    ⟨Result.breakdown_empty b, Result.sound_empty _ b⟩ t
  refine ⟨result, s, b, u, hfits.2, fun source => ?_⟩
  rw [execute_eq hm hf hs]
  exact Session.run_bind_of_ok hrun

/-- With profiles as the source of names, a checked request is answered exactly if its result has
nobody in it or the profiles can be read. -/
theorem execute_profiles_ok_iff (e : Engine) (rows : Option Value) {r : Request} {m : Metric}
    (hf : r.filters.reasons = []) (hm : Registry.find? r.metricName = some m)
    (o : Option Options) (t : Trace) : ∃ plain u,
      ({ e with names := .nowhere }.execute r o).run t = (.ok plain, u) ∧
      ((∃ named v, ({ e with names := .profiles rows }.execute r o).run t = (.ok named, v)) ↔
        plain.result.userIds = [] ∨ ∀ found ∈ rows, ProfilesReadable found) := by
  obtain ⟨result, s, b, u, hsound, hrun⟩ := exists_run_execute e hf hm o t
  obtain ⟨filled, v, hfilled, hsame⟩ := answers_fillNames_nowhere
    (e := { e with names := .nowhere }) rfl result u
  refine ⟨⟨r.metricName, r.filters, filled, b, s⟩, v, ?_, ?_⟩
  · rw [hrun, Session.run_bind_of_ok hfilled]
    rfl
  · simp only [hrun]
    rw [Session.run_bind_pure_ok_iff, hsame]
    exact fillNames_profiles_ok_iff (e := { e with names := .profiles rows }) rfl hsound u

/-- A failed lookup of names is harmless exactly if it fails as a whole. What profiles give is a map
between trimmed texts, but they give it only if nobody is looked up, the lookup is not answered, or
all rows it is answered with are profiles whose names are texts or not given. A checked request that
has an answer without names is answered under the same condition, or if its result has nobody in
it. -/
theorem lookup_harmless_iff (e : Engine) (rows : Option Value) :
    (∀ ids, (∃ names, (profiles rows).resolve ids = .ok names) ↔
      (∀ id ∈ ids, id = "") ∨ ∀ found ∈ rows, ProfilesReadable found) ∧
    (∀ ids names, (profiles rows).resolve ids = .ok names → IsNameMap names) ∧
    ∀ (r : Request) (m : Metric), r.filters.reasons = [] → Registry.find? r.metricName = some m →
      ∀ (o : Option Options) (t : Trace), ∃ plain u,
        ({ e with names := .nowhere }.execute r o).run t = (.ok plain, u) ∧
        ((∃ named v, ({ e with names := .profiles rows }.execute r o).run t = (.ok named, v)) ↔
          plain.result.userIds = [] ∨ ∀ found ∈ rows, ProfilesReadable found) :=
  ⟨fun _ => exists_resolve_profiles_iff,
    fun _ _ => isNameMap_of_resolve_profiles,
    fun _ _ hf hm o t => execute_profiles_ok_iff e rows hf hm o t⟩

/-- The people in the response of a session, if it has one. -/
def peopleIn (x : Session Response) : List String :=
  match (x.run .start).1 with
  | .ok response => response.result.userIds
  | .error _ => []

theorem peopleIn_of_run {x : Session Response} {response : Response} {u : Trace}
    (h : x.run .start = (.ok response, u)) : peopleIn x = response.result.userIds := by
  simp only [peopleIn, h]

/-- An engine whose store answers every query with a row of one rep. -/
def ofOneRep (source : NameSource) : Engine :=
  ⟨⟨fun _ _ => .ok (.list [.object [("rep_id", .text "u1"), ("value", .int 3)]])⟩, source,
    fun _ => none, 10, fun _ => 0⟩

def repsOfJanuary : Request :=
  ⟨"rep_roi", Filters.between "north" "2024-01-01" "2024-01-31" [] [], none⟩

theorem find?_repsOfJanuary :
    Registry.find? repsOfJanuary.metricName = some Registry.specialMetrics[1] :=
  @Registry.find?_special Registry.specialMetrics[1] (List.getElem_mem _)

theorem reasons_repsOfJanuary : repsOfJanuary.filters.reasons = [] := by decide

theorem peopleIn_ofOneRep : peopleIn ((ofOneRep .nowhere).execute repsOfJanuary none) = ["u1"] := by
  have hs : selectStrategy Registry.specialMetrics[1] .none = .ok (.special, .rep) := rfl
  have hrun := execute_eq (e := ofOneRep .nowhere) (p := none) find?_repsOfJanuary
    reasons_repsOfJanuary hs
  rw [hrun]
  decide +kernel

/-- A profile with a name that is a text gives it, and the request for the rep has a response. -/
theorem lookup_harmless_of_name :
    let found : Value := .list [.object [("id", .text "u1"), ("full_name", .text " Ann ")]]
    (∃ names, (profiles (some found)).resolve ["u1"] = .ok names ∧ IsNameMap names) ∧
    ∃ response u, ((ofOneRep (.profiles (some found))).execute repsOfJanuary none).run .start =
      (.ok response, u) := by
  intro found
  have hread : ∀ rows ∈ some found, ProfilesReadable rows := by
    rintro _ ⟨⟩ -
    refine ⟨_, rfl, List.forall_mem_singleton.mpr fun _ => ?_⟩
    exact ⟨" Ann ", rfl⟩
  obtain ⟨hresolve, hmap, hexecute⟩ :=
    lookup_harmless_iff (ofOneRep (.profiles (some found))) (some found)
  constructor
  · obtain ⟨names, hnames⟩ := (hresolve ["u1"]).mpr (.inr hread)
    exact ⟨names, hnames, hmap _ _ hnames⟩
  · obtain ⟨plain, u, -, hiff⟩ :=
      hexecute repsOfJanuary _ reasons_repsOfJanuary find?_repsOfJanuary none .start
    exact hiff.mpr (.inr hread)

/-- One profile whose name is a number leaves a request for a rep without a response. -/
theorem names_lost_to_one_profile :
    let found : Value := .list [.object [("id", .text "u1"), ("full_name", .int 7)]]
    (¬ ∃ names, (profiles (some found)).resolve ["u1"] = .ok names) ∧
    ∃ (e : Engine) (r : Request), e.names = .profiles (some found) ∧ r.filters.reasons = [] ∧
      (∃ m, Registry.find? r.metricName = some m) ∧
      ¬ ∃ response u, (e.execute r none).run .start = (.ok response, u) := by
  intro found
  have hunreadable : ¬ ∀ rows ∈ some found, ProfilesReadable rows := by
    intro h
    obtain ⟨items, hitems, hall⟩ := h found rfl rfl
    obtain rfl := Value.list.inj hitems
    obtain ⟨s, ⟨⟩⟩ := hall _ (List.mem_singleton_self _) rfl
  refine ⟨fun h => ?_, ofOneRep (.profiles (some found)), repsOfJanuary, rfl,
    reasons_repsOfJanuary, ⟨_, find?_repsOfJanuary⟩, fun h => ?_⟩
  · rcases exists_resolve_profiles_iff.mp h with hnobody | hread
    · exact absurd (hnobody "u1" (List.mem_singleton_self _)) (by decide)
    · exact hunreadable hread
  · obtain ⟨plain, u, hplain, hiff⟩ := execute_profiles_ok_iff (ofOneRep (.profiles (some found)))
      (some found) reasons_repsOfJanuary find?_repsOfJanuary none .start
    rcases hiff.mp h with hnobody | hread
    · have hpeople := peopleIn_of_run hplain
      exact absurd (peopleIn_ofOneRep.symm.trans (hpeople.trans hnobody)) (List.cons_ne_nil _ _)
    · exact hunreadable hread

end Engine

end Funnel
