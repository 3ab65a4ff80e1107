import Funnel.Proofs.DataView.Periods

/-!
# Which matrices are answered

The periods of a matrix are cut out of its range before anything is asked of the store, and a bucket
is cut where the next one begins. A matrix is therefore refused just where the calendar ends before
the bucket after its last one, although no period goes that far. Otherwise it is answered, with
whatever figures the store can give.
-/

set_option autoImplicit false

namespace Funnel

open Calendar Session

/-- What goes wrong with a bucket whose next one is not in the calendar. -/
def Granularity.beyond : Granularity → Fault
  | .day | .week => .outOfRange
  | .month => .badValue

variable {g : Granularity} {start finish : Date} {fault : Fault}

theorem eq_of_elim_eq_error {o : Option Date} {e : Fault}
    (h : o.elim (.error e) Except.ok = .error fault) : fault = e := by
  cases o with
  | none =>
    cases h
    rfl
  | some d => cases h

theorem nextBucket_error {d : Date} (h : nextBucket d g = .error fault) : fault = g.beyond := by
  cases g with
  | day | week | month => exact eq_of_elim_eq_error h

theorem seriesFrom_error {last : Date} {fuel : Nat} {current : Date}
    (h : seriesFrom g last fuel current = .error fault) : fault = g.beyond := by
  induction fuel generalizing current with
  | zero => cases h
  | succ fuel ih =>
    rw [seriesFrom] at h
    split at h
    · cases hnext : nextBucket current g with
      | error e =>
        rw [hnext] at h
        cases h
        exact nextBucket_error hnext
      | ok next =>
        rw [hnext] at h
        cases hrest : seriesFrom g last fuel next with
        | error e =>
          simp only [bind, Except.bind, hrest] at h
          cases h
          exact ih hrest
        | ok rest =>
          simp only [bind, Except.bind, hrest] at h
          cases h
    · cases h

theorem bucketWindows_beyond (hle : start ≤ finish) (h : lastDay < bucketEnd finish g) :
    bucketWindows start finish g = .error g.beyond := by
  cases hseries : bucketSeries start finish g with
  | error e =>
    rw [bucketWindows, hseries, ← seriesFrom_error hseries]
    rfl
  | ok series =>
    have hend := (exists_bucketSeries_iff hle).mp ⟨series, hseries⟩
    exact absurd hend (Nat.not_le_of_lt h)

theorem View.periods_beyond {v : View} (hdays : v.filters.days = .ok (start, finish))
    (hle : start ≤ finish) (h : lastDay < bucketEnd finish g) :
    v.periods g = .error g.beyond := by
  rw [Engine.periods_of_days hdays, bucketWindows_beyond hle h]
  rfl

namespace Engine

variable {e : Engine} {v : View} {users metrics : List String} {kind : String} {limit : Int}
  {t : Trace}

theorem run_periodMatrix_of_error (hcheck : v.check metrics = .ok ())
    (hkind : periodGranularity? kind = some g) (hperiods : v.periods g = .error fault) :
    (e.periodMatrix v limit users metrics kind).run t = (.error fault, t) := by
  have hg : periodGranularity kind = .ok g := by rw [periodGranularity, hkind]
  unfold periodMatrix
  refine (run_bind_of_ok (congrArg (·, t) hg)).trans ?_
  refine (run_bind_of_ok (congrArg (·, t) hcheck)).trans ?_
  exact run_bind_of_error (congrArg (·, t) hperiods)

/-- With periods and with rows of profiles that can be read, a matrix has one row for each person
found and each metric. -/
theorem exists_run_periodMatrix (hcheck : v.check metrics = .ok ())
    (hkind : periodGranularity? kind = some g) (hdays : v.filters.days = .ok (start, finish))
    {ws : List BucketWindow} (hws : bucketWindows start finish g = .ok ws)
    (hparts : IsPartition start finish g ws)
    (hrows : Profile.AllReadable (Profile.rowsAfter e v users t.calls)) :
    ∃ rows u, (e.periodMatrix v limit users metrics kind).run t = (.ok rows, u) ∧
      (rows.map PeriodRow.key).Nodup ∧ ∀ user name, (user, name) ∈ rows.map PeriodRow.key ↔
        user ∈ Profile.foundAfter e v users t.calls ∧ name ∈ metrics := by
  obtain ⟨hf, hmetrics⟩ := View.of_check hcheck
  have hg : periodGranularity kind = .ok g := by rw [periodGranularity, hkind]
  obtain ⟨profiles, u, hload, hids, hread⟩ := Profile.exists_run_load hrows
  obtain ⟨rows, w, hrest, values, hlength, hfilled, hnodup⟩ :=
    answers_periodRows (e := e) hf hmetrics hdays hparts hread limit u
  refine ⟨rows, w, ?_, hnodup, fun user name => ?_⟩
  · unfold periodMatrix
    refine (run_bind_of_ok (congrArg (·, t) hg)).trans ?_
    refine (run_bind_of_ok (congrArg (·, t) hcheck)).trans ?_
    refine (run_bind_of_ok (congrArg (·, t) (periods_eq hdays hws))).trans ?_
    exact (run_bind_of_ok hload).trans hrest
  · rw [mem_keys_of_filled hlength hfilled, hids]

end Engine

/-- Which valid requests for a matrix are answered. Whatever has been asked before and whatever the
store does, as long as the rows of profiles can be read, a matrix has one row for each person found
and each metric if the calendar holds the first day after the bucket of the last day. If it does
not, the request fails before anything is asked. -/
theorem matrix_answered_iff (e : Engine) {v : View} {users metrics : List String}
    (hcheck : v.check metrics = .ok ()) {kind : String} {g : Granularity}
    (hkind : periodGranularity? kind = some g) {start finish : Date}
    (hdays : v.filters.days = .ok (start, finish)) {t : Trace}
    (hrows : Profile.AllReadable (Profile.rowsAfter e v users t.calls)) (limit : Int) :
    (bucketEnd finish g ≤ lastDay →
      ∃ rows u, (e.periodMatrix v limit users metrics kind).run t = (.ok rows, u) ∧
        (rows.map PeriodRow.key).Nodup ∧ ∀ user name, (user, name) ∈ rows.map PeriodRow.key ↔
          user ∈ Profile.foundAfter e v users t.calls ∧ name ∈ metrics) ∧
    (lastDay < bucketEnd finish g →
      (e.periodMatrix v limit users metrics kind).run t = (.error g.beyond, t)) := by
  obtain ⟨hf, -⟩ := View.of_check hcheck
  obtain ⟨_, _, hchecked⟩ := Filters.checked_of_reasons hf
  obtain ⟨rfl, rfl⟩ := Prod.mk.inj (Except.ok.inj (hdays.symm.trans hchecked.days))
  constructor
  · intro hend
    obtain ⟨series, hseries⟩ := (exists_bucketSeries_iff hchecked.ordered).mpr hend
    obtain ⟨ws, hws, -, hparts⟩ := bucketWindows_of_bucketSeries hchecked.ordered hseries
    exact Engine.exists_run_periodMatrix hcheck hkind hdays hws hparts hrows
  · intro hend
    exact Engine.run_periodMatrix_of_error hcheck hkind
      (View.periods_beyond hdays hchecked.ordered hend)

/-- A store that knows one person and refuses everything else. -/
theorem matrix_answered_of_refusals : ∃ (e : Engine) (v : View) (rows : List PeriodRow) (u : Trace),
    (e.periodMatrix v 2 ["00000000-0000-0000-0000-00000000000a", "nobody"] ["cash_per_dial"]
      "weekly").run .start = (.ok rows, u) ∧
    (rows.map PeriodRow.key).Nodup ∧ ∀ user name, (user, name) ∈ rows.map PeriodRow.key ↔
      user = "00000000-0000-0000-0000-00000000000a" ∧ name = "cash_per_dial" := by
  let record := Profile.kim "00000000-0000-0000-0000-00000000000a" .null
  let e := Engine.plain (Profile.finding record (.error (.queryFailed "refused")))
  let v := Profile.february
  let users := ["00000000-0000-0000-0000-00000000000a", "nobody"]
  have hcheck : v.check ["cash_per_dial"] = .ok () := View.check_of_known Profile.reasons_february
    (List.forall_mem_singleton.mpr ⟨_, Registry.find?_cashPerDial⟩)
  have hs : dateOfText? "2024-01-29" = some ⟨738914, by decide, by decide⟩ := by decide
  have he : dateOfText? "2024-02-20" = some ⟨738936, by decide, by decide⟩ := by decide
  have hdays := Filters.days_of_texts (f := v.filters) rfl hs he
  have hkept : Identifier.kept users = ["00000000-0000-0000-0000-00000000000a"] := by
    decide
  have hanswer : Profile.rowsAfter e v users [] = .list [record] :=
    Profile.rowsAfter_finding (by rw [hkept]; nofun)
  have hrows : Profile.AllReadable (Profile.rowsAfter e v users Trace.start.calls) :=
    ⟨[record], hanswer, Profile.readable_kim _ (.inl rfl)⟩
  obtain ⟨hanswered, -⟩ := @matrix_answered_iff e v users ["cash_per_dial"] hcheck "weekly" .week
    rfl _ _ hdays .start hrows 2
  obtain ⟨rows, u, hrun, hnodup, hkeys⟩ := hanswered (by decide)
  have hfound : Profile.foundAfter e v users [] = ["00000000-0000-0000-0000-00000000000a"] := by
    rw [Profile.foundAfter, hanswer, hkept]
    decide
  refine ⟨e, v, rows, u, hrun, hnodup, fun user name => ?_⟩
  rw [hkeys user name]
  change user ∈ Profile.foundAfter e v users [] ∧ name ∈ ["cash_per_dial"] ↔ _
  rw [hfound, List.mem_singleton, List.mem_singleton]

/-- The last weeks of the calendar, for a store that knows nobody. -/
theorem matrix_refused_at_last_day : ∃ (e : Engine) (v : View),
    v.check ["cash_per_dial"] = .ok () ∧ periodGranularity? "weekly" = some .week ∧
    Profile.AllReadable (Profile.rowsAfter e v ["00000000-0000-0000-0000-00000000000a"] []) ∧
    (e.periodMatrix v 2 ["00000000-0000-0000-0000-00000000000a"] ["cash_per_dial"] "weekly").run
      .start = (.error .outOfRange, .start) := by
  let e := Engine.plain fun _ _ => .ok (.list [])
  let v : View := ⟨some "north", ⟨some "9999-12-20", some "9999-12-31"⟩, []⟩
  have hf : v.filters.reasons = [] := by decide
  have hcheck : v.check ["cash_per_dial"] = .ok () :=
    View.check_of_known hf (List.forall_mem_singleton.mpr ⟨_, Registry.find?_cashPerDial⟩)
  have hs : dateOfText? "9999-12-20" = some ⟨3652048, by decide, by decide⟩ := by decide
  have he : dateOfText? "9999-12-31" = some ⟨3652059, by decide, by decide⟩ := by decide
  have hdays := Filters.days_of_texts (f := v.filters) rfl hs he
  have hperiods : v.periods .week = .error .outOfRange :=
    View.periods_beyond hdays (by decide) (by decide)
  have hkept : Identifier.kept ["00000000-0000-0000-0000-00000000000a"] =
      ["00000000-0000-0000-0000-00000000000a"] := by decide
  have hanswer : Profile.rowsAfter e v ["00000000-0000-0000-0000-00000000000a"] [] = .list [] := by
    unfold Profile.rowsAfter
    rw [hkept]
    rfl
  exact ⟨e, v, hcheck, rfl, ⟨[], hanswer, nofun⟩,
    Engine.run_periodMatrix_of_error hcheck rfl hperiods⟩

end Funnel
