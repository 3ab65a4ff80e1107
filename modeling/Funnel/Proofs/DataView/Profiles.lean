import Funnel.DataView.Users
import Funnel.Proofs.Engine.Steady
import Funnel.Proofs.Fault
import Funnel.Proofs.Named
import Funnel.Proofs.Plan.People
import Funnel.Proofs.Store.Gives

/-!
# Profiles that are found

Profiles are found under the identifiers that were asked for, so the identifier of a profile is one
that a filter keeps as it is.
-/

set_option autoImplicit false

namespace Funnel.Profile

open Session

theorem userId_of_mem_byUser {rows : Value} {found : Named Profile} (h : byUser rows = .ok found)
    {q : String × Profile} (hq : q ∈ found) : q.2.userId = q.1 := by
  obtain ⟨items, -, h⟩ := Fault.bind_eq_ok_iff.mp h
  obtain ⟨profiles, -, h⟩ := Fault.bind_eq_ok_iff.mp h
  cases h
  rcases Named.mem_putAll hq with hq | hq
  · cases hq
  · obtain ⟨p, -, rfl⟩ := List.mem_map.mp hq
    rfl

/-- Profiles are looked up one by one for the people who were asked for. -/
theorem yields_lookup (e : Engine) (v : View) (tokens : List String) :
    (load e v tokens).Yields fun profiles => ∃ found : Named Profile,
      (∀ user p, found.find? user = some p → p.userId = user) ∧
        profiles = (Identifier.kept tokens).filterMap found.find? := by
  unfold load
  split
  · rename_i hkept
    exact yields_pure ⟨[], nofun, by rw [hkept]; rfl⟩
  · refine yields_bind_last fun rows => ?_
    refine yields_bind (yields_ofExcept fun found h => h) fun found hfound => ?_
    exact yields_pure ⟨found, fun user p h => userId_of_mem_byUser hfound (Named.mem_of_find? h),
      rfl⟩

theorem yields_load (e : Engine) (v : View) (tokens : List String) :
    (load e v tokens).Yields fun profiles => ∀ p ∈ profiles, p.userId ∈ Identifier.kept tokens := by
  intro t profiles h p hp
  obtain ⟨found, hself, rfl⟩ := yields_lookup e v tokens t profiles h
  obtain ⟨id, hid, hsome⟩ := List.mem_filterMap.mp hp
  exact hself id p hsome ▸ hid

theorem yields_single (e : Engine) (v : View) (tokens : List String) :
    (load e v tokens).Yields fun profiles =>
      ∀ p ∈ profiles, ∀ q ∈ profiles, p.userId = q.userId → p = q := by
  intro t profiles h p hp q hq hsame
  obtain ⟨found, hself, rfl⟩ := yields_lookup e v tokens t profiles h
  obtain ⟨i, -, hfirst⟩ := List.mem_filterMap.mp hp
  obtain ⟨j, -, hsecond⟩ := List.mem_filterMap.mp hq
  rw [← hself i p hfirst, hsame, hself j q hsecond, hsecond] at hfirst
  exact (Option.some.inj hfirst).symm

theorem kept_of_load {e : Engine} {v : View} {tokens : List String} {t : Trace}
    {profiles : List Profile} (h : ((load e v tokens).run t).1 = .ok profiles) {p : Profile}
    (hp : p ∈ profiles) : Identifier.kept [p.userId] = [p.userId] :=
  Identifier.kept_of_mem_kept (yields_load e v tokens t profiles h p hp)

/-- A row that holds what a profile takes as texts, or leaves it out. -/
def Readable (record : Value) : Prop :=
  ∀ field ∈ ["user_id", "name", "account_role"], ∃ v, record.get field = .ok v ∧
    (v = .null ∨ ∃ s, v = .text s)

theorem readable_of_fields {userId name role : Value} (hid : userId = .null ∨ ∃ s, userId = .text s)
    (hname : name = .null ∨ ∃ s, name = .text s) (hrole : role = .null ∨ ∃ s, role = .text s) :
    Readable (.object [("user_id", userId), ("name", name), ("account_role", role)]) := by
  intro field hfield
  simp only [List.mem_cons, List.not_mem_nil, or_false] at hfield
  rcases hfield with rfl | rfl | rfl
  · exact ⟨userId, rfl, hid⟩
  · exact ⟨name, rfl, hname⟩
  · exact ⟨role, rfl, hrole⟩

def foundIds (records : List Value) : List String :=
  records.filterMap fun record =>
    match record.get "user_id" with
    | .ok v => v.asText?
    | .error _ => none

structure ReadFrom (p : Profile) (record : Value) : Prop where
  row : ofRow? record = .ok (some p)
  userId : record.get "user_id" = .ok (.text p.userId)
  given : p.userId ≠ ""
  name : ∃ s, p.name = .text s
  role : p.role = .null ∨ ∃ s, p.role = .text s

theorem exists_text_orElse {v : Value} (h : v = .null ∨ ∃ s, v = .text s) (s : String) :
    ∃ r, v.orElse (.text s) = .text r := by
  rcases h with rfl | ⟨r, rfl⟩
  · exact ⟨s, rfl⟩
  · unfold Value.orElse
    split
    · exact ⟨r, rfl⟩
    · exact ⟨s, rfl⟩

/-- A row of texts is a profile, or names nobody. -/
theorem ofRow?_of_readable {record : Value} (h : Readable record) :
    (ofRow? record = .ok none ∧ ∀ id, id ≠ "" → record.get "user_id" ≠ .ok (.text id)) ∨
      ∃ p : Profile, p.ReadFrom record := by
  obtain ⟨id, hid, hidText⟩ := h "user_id" (by decide)
  obtain ⟨name, hname, hnameText⟩ := h "name" (by decide)
  obtain ⟨role, hrole, hroleText⟩ := h "account_role" (by decide)
  have hrow : ofRow? record =
      if id.isGiven then .ok (some ⟨id.toText, name.orElse (.text id.toText), role⟩)
      else .ok none := by
    simp only [ofRow?, hid, hname, hrole, bind, Except.bind]
  rcases hidText with rfl | ⟨s, rfl⟩
  · refine .inl ⟨hrow, fun other _ hother => ?_⟩
    cases hid.symm.trans hother
  · by_cases hs : s = ""
    · subst hs
      refine .inl ⟨hrow, fun other hne hother => hne ?_⟩
      cases hid.symm.trans hother
      rfl
    · have hgiven : (Value.text s).isGiven = true := by simpa [Value.isGiven] using hs
      refine .inr ⟨⟨s, name.orElse (.text s), role⟩, ?_, hid, hs,
        exists_text_orElse hnameText s, hroleText⟩
      rw [hrow, if_pos hgiven]
      rfl

section ByUser

variable {records : List Value} (hrecords : ∀ record ∈ records, Readable record)

include hrecords

/-- Rows of texts are profiles by person: exactly those whom a row names are found, and as the row
has them. -/
theorem exists_byUser : ∃ found, byUser (.list records) = .ok found ∧
    (∀ user p, found.find? user = some p →
      p.userId = user ∧ ∃ record ∈ records, p.ReadFrom record) ∧
    ∀ user, user ≠ "" → ((∃ p, found.find? user = some p) ↔ user ∈ foundIds records) := by
  obtain ⟨profiles, hprofiles⟩ : ∃ profiles, records.mapM ofRow? = .ok profiles := by
    refine Fault.exists_mapM_eq_ok fun record hrecord => ?_
    rcases ofRow?_of_readable (hrecords record hrecord) with h | ⟨p, h⟩
    · exact ⟨_, h.1⟩
    · exact ⟨_, h.row⟩
  have hread : ∀ p, p ∈ profiles.filterMap id ↔ ∃ record ∈ records, p.ReadFrom record := by
    intro p
    rw [List.mem_filterMap]
    constructor
    · rintro ⟨o, ho, rfl⟩
      obtain ⟨record, hrecord, hrow⟩ := (Fault.mem_of_mapM hprofiles).mp ho
      refine ⟨record, hrecord, ?_⟩
      rcases ofRow?_of_readable (hrecords record hrecord) with h | ⟨q, h⟩
      · cases h.1.symm.trans hrow
      · cases h.row.symm.trans hrow
        exact h
    · rintro ⟨record, hrecord, h⟩
      exact ⟨some p, (Fault.mem_of_mapM hprofiles).mpr ⟨record, hrecord, h.row⟩, rfl⟩
  have hby : byUser (.list records) = .ok (Named.putAll [] ((profiles.filterMap id).map fun p =>
      (p.userId, p))) := by
    simp only [byUser, Value.entries, hprofiles, bind, Except.bind]
  generalize profiles.filterMap id = known at hread hby
  have hfound : ∀ user p, (Named.putAll [] (known.map fun p => (p.userId, p))).find? user = some p →
      p.userId = user ∧ ∃ record ∈ records, p.ReadFrom record := by
    intro user p hp
    rcases Named.mem_putAll (Named.mem_of_find? hp) with h | h
    · cases h
    · obtain ⟨q, hq, heq⟩ := List.mem_map.mp h
      cases heq
      exact ⟨rfl, (hread p).mp hq⟩
  refine ⟨_, hby, hfound, ?_⟩
  intro user huser
  constructor
  · rintro ⟨p, hp⟩
    obtain ⟨rfl, record, hrecord, hread⟩ := hfound user p hp
    refine List.mem_filterMap.mpr ⟨record, hrecord, ?_⟩
    rw [hread.userId]
    rfl
  · intro hmem
    obtain ⟨record, hrecord, htext⟩ := List.mem_filterMap.mp hmem
    have hget : record.get "user_id" = .ok (.text user) := by
      split at htext
      · rename_i v hv
        cases v <;> cases htext
        exact hv
      · cases htext
    rcases ofRow?_of_readable (hrecords record hrecord) with h | ⟨p, h⟩
    · exact absurd hget (h.2 user huser)
    · cases h.userId.symm.trans hget
      apply Named.exists_find?_of_mem_names
      rw [Named.names_putAll_nil, List.mem_eraseDups]
      have hp := (hread p).mpr ⟨record, hrecord, h⟩
      exact List.mem_map.mpr ⟨_, List.mem_map.mpr ⟨p, hp, rfl⟩, rfl⟩

end ByUser

namespace ReadFrom

variable {p : Profile} {record : Value}

theorem emptyRow (h : p.ReadFrom record) :
    p.emptyRow = .ok ⟨p.userId, p.name.toText, p.role.asText?, []⟩ := by
  obtain ⟨name, hname⟩ := h.name
  have hrole : Result.nameViolations "account_role" p.role = [] := by
    rcases h.role with hrole | ⟨role, hrole⟩ <;> rw [hrole] <;> rfl
  rw [Profile.emptyRow, hrole, hname]
  rfl

theorem emptyPeriods (h : p.ReadFrom record) (metric : String) :
    p.emptyPeriods metric = .ok ⟨p.userId, p.name.toText, metric, [], 0.0⟩ := by
  obtain ⟨name, hname⟩ := h.name
  rw [Profile.emptyPeriods, hname]
  rfl

theorem exists_role (h : p.ReadFrom record) : ∃ role, roleOf p.role = .ok role := by
  obtain ⟨role, hrole⟩ := exists_text_orElse h.role ""
  exact ⟨Text.lower role, by rw [roleOf, hrole]⟩

end ReadFrom

/-- People looked up among profiles by person: those whom the rows name, in the order of the lookup,
one profile for each person. -/
theorem exists_lookup {records : List Value} (hrecords : ∀ record ∈ records, Readable record)
    {ids : List String} (hne : ∀ id ∈ ids, id ≠ "") : ∃ found, byUser (.list records) = .ok found ∧
      (ids.filterMap found.find?).map Profile.userId = ids.filter (· ∈ foundIds records) ∧
      (∀ p ∈ ids.filterMap found.find?, ∃ record ∈ records, p.ReadFrom record) ∧
      ∀ p ∈ ids.filterMap found.find?, ∀ q ∈ ids.filterMap found.find?,
        p.userId = q.userId → p = q := by
  obtain ⟨found, hfound, hread, hknown⟩ := exists_byUser hrecords
  have hself : ∀ p ∈ ids.filterMap found.find?, found.find? p.userId = some p := by
    intro p hp
    obtain ⟨user, -, hsome⟩ := List.mem_filterMap.mp hp
    rw [(hread user p hsome).1]
    exact hsome
  refine ⟨found, hfound, ?_, fun p hp => (hread _ p (hself p hp)).2, ?_⟩
  · clear hself
    induction ids with
    | nil => rfl
    | cons user ids ih =>
      rw [List.forall_mem_cons] at hne
      have hiff := hknown user hne.1
      cases hfind : found.find? user with
      | none =>
        have hnot : user ∉ foundIds records := fun h => by simpa [hfind] using hiff.mpr h
        rw [List.filterMap_cons_none hfind, List.filter_cons_of_neg (by simpa using hnot),
          ih hne.2]
      | some p =>
        have hmem : user ∈ foundIds records := hiff.mp ⟨p, hfind⟩
        rw [List.filterMap_cons_some hfind, List.filter_cons_of_pos (by simpa using hmem),
          List.map_cons, ih hne.2, (hread user p hfind).1]
  · intro p hp q hq hsame
    have hp := hself p hp
    rw [hsame] at hp
    exact Option.some.inj (hp.symm.trans (hself q hq))

/-- The profiles of some people are those whom the rows name, in the order asked for, one profile
for each person. -/
theorem exists_gives_load {e : Engine} {v : View} {users : List String} {records : List Value}
    (hrecords : ∀ record ∈ records, Readable record)
    (hanswer : Identifier.kept users ≠ [] →
      (ask e.store (call v (Identifier.kept users))).Gives (.ok (.list records))) :
    ∃ profiles, (load e v users).Gives (.ok profiles) ∧
      profiles.map Profile.userId = (Identifier.kept users).filter (· ∈ foundIds records) ∧
      (∀ p ∈ profiles, ∃ record ∈ records, p.ReadFrom record) ∧
      ∀ p ∈ profiles, ∀ q ∈ profiles, p.userId = q.userId → p = q := by
  obtain ⟨found, hfound, hprofiles⟩ :=
    exists_lookup hrecords fun _ => @Identifier.ne_empty_of_mem_kept users _
  refine ⟨_, ?_, hprofiles⟩
  unfold load
  cases hkept : Identifier.kept users with
  | nil => exact gives_pure []
  | cons user more =>
    rw [hkept] at hanswer
    exact gives_bind_ok (gives_orElse (hanswer nofun) _)
      (gives_bind_ok (fun _ => hfound) (gives_pure _))

/-- The rows of profiles that a lookup has after some calls. It has none where nobody is to be
looked up, and where it is refused. -/
def rowsAfter (e : Engine) (v : View) (users : List String) (earlier : List Call) : Value :=
  match Identifier.kept users with
  | [] => .list []
  | ids =>
    match e.store.answer earlier (call v ids) with
    | .ok rows => rows
    | .error _ => .list []

/-- The people who are found after some calls, in the order asked for. -/
def foundAfter (e : Engine) (v : View) (users : List String) (earlier : List Call) :
    List String :=
  match rowsAfter e v users earlier with
  | .list records => (Identifier.kept users).filter (· ∈ foundIds records)
  | _ => []

/-- Rows that hold what profiles take as texts, or leave it out. -/
def AllReadable (rows : Value) : Prop :=
  ∃ records, rows = .list records ∧ ∀ record ∈ records, Readable record

/-- A lookup is answered also where the store refuses it: with those of the people whom the rows
name. -/
theorem run_load {e : Engine} {v : View} {users : List String} {t : Trace} {found : Named Profile}
    (hfound : byUser (rowsAfter e v users t.calls) = .ok found) : ∃ u,
    (load e v users).run t = (.ok ((Identifier.kept users).filterMap found.find?), u) := by
  unfold load
  unfold rowsAfter at hfound
  cases hkept : Identifier.kept users with
  | nil => exact ⟨t, rfl⟩
  | cons user more =>
    rw [hkept] at hfound
    have hrun : ∃ rows u, ((ask e.store (call v (user :: more))).orElse (.list [])).run t =
        (.ok rows, u) ∧ byUser rows = .ok found := by
      cases hanswer : e.store.answer t.calls (call v (user :: more)) with
      | ok rows =>
        simp only [hanswer] at hfound
        exact ⟨rows, _, run_orElse_of_ok _ (by rw [run_ask, hanswer]), hfound⟩
      | error fault =>
        simp only [hanswer] at hfound
        exact ⟨.list [], _, run_orElse_of_error _ (by rw [run_ask, hanswer]), hfound⟩
    obtain ⟨rows, u, hrun, hrows⟩ := hrun
    refine ⟨u, ?_⟩
    simp only [run_bind, hrun, run_ofExcept, hrows]
    rfl

theorem exists_run_load {e : Engine} {v : View} {users : List String} {t : Trace}
    (hrows : AllReadable (rowsAfter e v users t.calls)) :
    ∃ profiles u, (load e v users).run t = (.ok profiles, u) ∧
      profiles.map Profile.userId = foundAfter e v users t.calls ∧
      ∀ p ∈ profiles, ∃ record, p.ReadFrom record := by
  obtain ⟨records, heq, hrecords⟩ := hrows
  obtain ⟨found, hfound, hids, hread, -⟩ :=
    exists_lookup hrecords fun _ => @Identifier.ne_empty_of_mem_kept users _
  obtain ⟨u, hload⟩ := run_load (heq ▸ hfound)
  refine ⟨_, u, hload, ?_, fun p hp => (hread p hp).imp fun _ h => h.2⟩
  rw [hids, foundAfter, heq]

theorem rowsAfter_ofFunction {answer : String → Fields → Except Fault Value} {e : Engine}
    (he : e.store = .ofFunction answer) (v : View) (users : List String) (earlier : List Call) :
    rowsAfter e v users earlier = rowsAfter e v users [] := by
  rw [rowsAfter, rowsAfter, he]
  rfl

theorem gives_load {answer : String → Fields → Except Fault Value} {e : Engine}
    (he : e.store = .ofFunction answer) {v : View} {users : List String} {found : Named Profile}
    (hfound : byUser (rowsAfter e v users []) = .ok found) :
    (load e v users).Gives (.ok ((Identifier.kept users).filterMap found.find?)) := by
  intro t
  rw [← rowsAfter_ofFunction he v users t.calls] at hfound
  obtain ⟨u, hrun⟩ := run_load hfound
  rw [hrun]

def kim (id : String) (role : Value) : Value :=
  .object [("user_id", .text id), ("name", .text "Kim"), ("account_role", role)]

theorem readable_kim (id : String) {role : Value} (h : role = .null ∨ ∃ s, role = .text s) :
    ∀ record ∈ [kim id role], Readable record :=
  List.forall_mem_singleton.mpr (readable_of_fields (.inr ⟨id, rfl⟩) (.inr ⟨"Kim", rfl⟩) h)

/-- Finds a record for whoever is looked up, and has one answer to everything else. -/
def finding (record : Value) (otherwise : Except Fault Value) (_ : String) (params : Fields) :
    Except Fault Value :=
  if (params.find? "user_id_0").isSome then .ok (.list [record]) else otherwise

theorem finding_call (record : Value) (otherwise : Except Fault Value) (v : View)
    {ids : List String} (h : ids ≠ []) :
    finding record otherwise (call v ids).sql (call v ids).params = .ok (.list [record]) := by
  obtain ⟨id, more, rfl⟩ := List.exists_cons_of_ne_nil h
  refine if_pos ?_
  rw [params_call]
  rfl

theorem finding_of_notMem (record : Value) (otherwise : Except Fault Value) (sql : String)
    {params : Fields} (h : "user_id_0" ∉ params.names) :
    finding record otherwise sql params = otherwise := by
  refine if_neg fun hbound => h ?_
  obtain ⟨x, hx⟩ := Option.isSome_iff_exists.mp hbound
  exact List.mem_map.mpr ⟨_, Named.mem_of_find? hx, rfl⟩

theorem rowsAfter_finding {record : Value} {otherwise : Except Fault Value} {v : View}
    {users : List String} (h : Identifier.kept users ≠ []) :
    rowsAfter (Engine.plain (finding record otherwise)) v users [] = .list [record] := by
  have hanswer := finding_call record otherwise v h
  unfold rowsAfter
  cases hkept : Identifier.kept users with
  | nil => exact absurd hkept h
  | cons user more =>
    rw [hkept] at hanswer
    have hstore : (Engine.plain (finding record otherwise)).store.answer []
        (call v (user :: more)) = .ok (.list [record]) := hanswer
    simp only [hstore]

def february : View := ⟨some "north", ⟨some "2024-01-29", some "2024-02-20"⟩, []⟩

theorem reasons_february : february.filters.reasons = [] := by decide

end Funnel.Profile
