import Funnel.Proofs.DataView.Figure

/-!
# A table is its cells

Figures come back from the pool as one list, are paired with their people and metrics again and are
put into rows by the names of both. What stands in a row under a metric is the figure that the
person has for it alone.
-/

set_option autoImplicit false

namespace Funnel

open Session

abbrev PlacedCell := (Profile × String) × Cell

/-- The figures of one person, in the order in which they were asked for. -/
def cellsOf (user : String) (cells : List PlacedCell) : Named Cell :=
  (cells.filter fun c => c.1.1.userId = user).map fun c => (c.1.2, c.2)

def UserRow.add (row : UserRow) (cells : Named Cell) : UserRow :=
  { row with cells := row.cells.putAll cells }

theorem fillCells_cons (rows : Named UserRow) (c : PlacedCell) (cells : List PlacedCell) :
    Engine.fillCells rows (c :: cells) = Engine.fillCells
      (match rows.find? c.1.1.userId with
        | some row => Named.put rows c.1.1.userId (row.add [(c.1.2, c.2)])
        | none => rows) cells := rfl

theorem names_fillCells (rows : Named UserRow) (cells : List PlacedCell) :
    (Engine.fillCells rows cells).names = rows.names := by
  induction cells generalizing rows with
  | nil => rfl
  | cons c cells ih =>
    rw [fillCells_cons, ih]
    split
    · rename_i row hrow
      have hmem : c.1.1.userId ∈ rows.names :=
        List.mem_map.mpr ⟨_, Named.mem_of_find? hrow, rfl⟩
      rw [Named.names_put, if_pos hmem]
    · rfl

theorem find?_fillCells (rows : Named UserRow) (cells : List PlacedCell) (user : String) :
    (Engine.fillCells rows cells).find? user =
      (rows.find? user).map fun row => row.add (cellsOf user cells) := by
  induction cells generalizing rows with
  | nil => exact (Option.map_id_apply).symm
  | cons c cells ih =>
    rw [fillCells_cons, ih]
    by_cases hown : c.1.1.userId = user
    · have hcells : cellsOf user (c :: cells) = (c.1.2, c.2) :: cellsOf user cells := by
        rw [cellsOf, List.filter_cons_of_pos (by simpa using hown)]
        rfl
      rw [hcells, hown]
      split
      · rename_i row hrow
        rw [Named.find?_put, if_pos rfl, hrow]
        rfl
      · rename_i hnone
        rw [hnone]
        rfl
    · have hcells : cellsOf user (c :: cells) = cellsOf user cells := by
        rw [cellsOf, List.filter_cons_of_neg (by simpa using hown)]
        rfl
      rw [hcells]
      split
      · rw [Named.find?_put, if_neg (Ne.symm hown)]
      · rfl

def tasks (profiles : List Profile) (metrics : List String) : List (Profile × String) :=
  profiles.flatMap fun p => metrics.map fun m => (p, m)

section Tasks

variable {profiles : List Profile} {metrics : List String} (g : Profile × String → Cell)

theorem mem_tasks {t : Profile × String} :
    t ∈ tasks profiles metrics ↔ t.1 ∈ profiles ∧ t.2 ∈ metrics := by
  obtain ⟨p, m⟩ := t
  simp only [tasks, List.mem_flatMap, List.mem_map, Prod.mk.injEq]
  constructor
  · rintro ⟨q, hq, n, hn, rfl, rfl⟩
    exact ⟨hq, hn⟩
  · rintro ⟨hp, hm⟩
    exact ⟨p, hp, m, hm, rfl, rfl⟩

theorem mem_cellsOf_tasks {user : String} {q : String × Cell}
    (h : q ∈ cellsOf user ((tasks profiles metrics).map fun t => (t, g t))) :
    ∃ p ∈ profiles, p.userId = user ∧ q.1 ∈ metrics ∧ q.2 = g (p, q.1) := by
  obtain ⟨c, hc, rfl⟩ := List.mem_map.mp h
  obtain ⟨hc, huser⟩ := List.mem_filter.mp hc
  obtain ⟨⟨p, m⟩, ht, rfl⟩ := List.mem_map.mp hc
  obtain ⟨hp, hm⟩ := mem_tasks.mp ht
  exact ⟨p, hp, of_decide_eq_true huser, hm, rfl⟩

theorem cellsOf_map (q : Profile) (user : String) (metrics : List String) :
    cellsOf user (metrics.map fun m => ((q, m), g (q, m))) =
      if q.userId = user then metrics.map fun m => (m, g (q, m)) else [] := by
  split
  · rename_i hown
    have hall : (metrics.map fun m => ((q, m), g (q, m))).filter
        (fun c => decide (c.1.1.userId = user)) = metrics.map fun m => ((q, m), g (q, m)) :=
      List.filter_eq_self.mpr (by simp [hown])
    rw [cellsOf, hall, List.map_map]
    rfl
  · rename_i hother
    simp [cellsOf, List.filter_map, hother, Function.comp_def]

/-- However often a person was asked for, each metric is there once. -/
theorem eraseDups_names_cellsOf_tasks {p : Profile} (hp : p ∈ profiles) :
    (cellsOf p.userId ((tasks profiles metrics).map fun t => (t, g t))).names.eraseDups =
      metrics.eraseDups := by
  induction profiles with
  | nil => cases hp
  | cons q more ih =>
    have hsplit : cellsOf p.userId ((tasks (q :: more) metrics).map fun t => (t, g t)) =
        cellsOf p.userId (metrics.map fun m => ((q, m), g (q, m))) ++
          cellsOf p.userId ((tasks more metrics).map fun t => (t, g t)) := by
      simp [cellsOf, tasks, Function.comp_def]
    rw [hsplit, Named.names_append, cellsOf_map]
    split
    · have hfirst : Named.names (metrics.map fun m => (m, g (q, m))) = metrics := by
        simp [Named.names, Function.comp_def]
      have hrest : (cellsOf p.userId ((tasks more metrics).map fun t => (t, g t))).names.removeAll
          metrics = [] := by
        refine List.filter_eq_nil_iff.mpr fun n hn => ?_
        obtain ⟨c, hc, rfl⟩ := List.mem_map.mp hn
        obtain ⟨-, -, -, hm, -⟩ := mem_cellsOf_tasks g hc
        simpa using hm
      rw [hfirst, List.eraseDups_append, hrest]
      simp
    · rename_i hother
      refine ih ((List.mem_cons.mp hp).resolve_left ?_)
      rintro rfl
      exact hother rfl

def filled (profiles : List Profile) (metrics : List String) (row : Profile → UserRow) :
    Named UserRow :=
  Engine.fillCells (Named.putAll [] (profiles.map fun p => (p.userId, row p)))
    ((tasks profiles metrics).map fun t => (t, g t))

variable (row : Profile → UserRow)

theorem names_filled :
    (filled g profiles metrics row).names = (profiles.map Profile.userId).eraseDups := by
  have hnames : Named.names (profiles.map fun p => (p.userId, row p)) =
      profiles.map Profile.userId := by
    simp [Named.names, Function.comp_def]
  rw [filled, names_fillCells, Named.names_putAll_nil, hnames]

theorem mem_filled {user : String} {r : UserRow} (h : (user, r) ∈ filled g profiles metrics row) :
    ∃ p ∈ profiles, p.userId = user ∧
      r = (row p).add (cellsOf user ((tasks profiles metrics).map fun t => (t, g t))) := by
  have hnodup : (filled g profiles metrics row).names.Nodup := by
    rw [filled, names_fillCells]
    exact @Named.nodup_names_putAll _ [] List.nodup_nil _
  have hfind := Named.find?_of_mem hnodup h
  rw [filled, find?_fillCells] at hfind
  obtain ⟨old, hold, rfl⟩ := Option.map_eq_some_iff.mp hfind
  rcases Named.mem_putAll (Named.mem_of_find? hold) with hmem | hmem
  · cases hmem
  · obtain ⟨p, hp, heq⟩ := List.mem_map.mp hmem
    cases heq
    exact ⟨p, hp, rfl, rfl⟩

/-- All figures of a person who is asked for are those of each metric once. -/
theorem putAll_cellsOf_tasks (hone : ∀ p ∈ profiles, ∀ q ∈ profiles, p.userId = q.userId → p = q)
    {p : Profile} (hp : p ∈ profiles) :
    Named.putAll [] (cellsOf p.userId ((tasks profiles metrics).map fun t => (t, g t))) =
      metrics.eraseDups.map fun m => (m, g (p, m)) := by
  have hnames := @eraseDups_names_cellsOf_tasks profiles metrics g p hp
  have hnodup := @Named.nodup_names_putAll _ [] List.nodup_nil
    (cellsOf p.userId ((tasks profiles metrics).map fun t => (t, g t)))
  rw [← Named.names_putAll_nil] at hnames
  rw [hnames] at hnodup
  refine @Named.eq_map_of_names _ _ _ metrics.eraseDups (fun m => m) (fun m => g (p, m))
    (hnames.trans (List.map_id' _).symm) ((List.map_id' _).symm ▸ hnodup) fun q hq => ?_
  have hcell := (Named.mem_putAll hq).resolve_left nofun
  have hname : q.1 ∈ metrics.eraseDups := hnames ▸ List.mem_map_of_mem hq
  obtain ⟨p', hp', hsame, -, hvalue⟩ := mem_cellsOf_tasks g hcell
  obtain rfl := hone p' hp' p hp hsame
  exact ⟨q.1, hname, Prod.ext rfl hvalue⟩

def fullRow (metrics : List String) (p : Profile) : UserRow :=
  { row p with cells := metrics.eraseDups.map fun m => (m, g (p, m)) }

/-- People who are looked up have their full rows, each once. -/
theorem filled_eq {found : Named Profile} {ids : List String}
    (hself : ∀ user p, found.find? user = some p → p.userId = user)
    (hblank : ∀ p, (row p).cells = []) {value : String → UserRow}
    (hvalue : ∀ user p, found.find? user = some p → value user = fullRow g row metrics p) :
    filled g (ids.filterMap found.find?) metrics row =
      ((ids.filterMap found.find?).map Profile.userId).eraseDups.map
        fun user => (user, value user) := by
  have hknown : ∀ p ∈ ids.filterMap found.find?, found.find? p.userId = some p := by
    intro p hp
    obtain ⟨user, -, hsome⟩ := List.mem_filterMap.mp hp
    rwa [hself user p hsome]
  have hone : ∀ p ∈ ids.filterMap found.find?, ∀ q ∈ ids.filterMap found.find?,
      p.userId = q.userId → p = q := by
    intro p hp q hq hsame
    have hfirst := hknown p hp
    rw [hsame, hknown q hq] at hfirst
    exact (Option.some.inj hfirst).symm
  have hnames := @names_filled (ids.filterMap found.find?) metrics g row
  have hnodup : (filled g (ids.filterMap found.find?) metrics row).names.Nodup := by
    rw [filled, names_fillCells]
    exact @Named.nodup_names_putAll _ [] List.nodup_nil _
  rw [hnames] at hnodup
  refine @Named.eq_map_of_names _ _ _ _ (fun user => user) value
    (hnames.trans (List.map_id' _).symm) ((List.map_id' _).symm ▸ hnodup) fun q hq => ?_
  obtain ⟨p, hp, huser, hrow⟩ := mem_filled g row hq
  have hname : q.1 ∈ ((ids.filterMap found.find?).map Profile.userId).eraseDups :=
    hnames ▸ List.mem_map_of_mem hq
  refine ⟨q.1, hname, Prod.ext rfl ?_⟩
  rw [hrow, ← huser, hvalue p.userId p (hknown p hp), UserRow.add, hblank,
    putAll_cellsOf_tasks g hone hp, fullRow]

end Tasks

theorem View.of_check {v : View} {metrics : List String} (h : v.check metrics = .ok ()) :
    v.filters.reasons = [] ∧ ∀ name ∈ metrics, ∃ m, Registry.find? name = some m := by
  have hreasons : v.filters.reasons ++ metricReasons metrics = [] := by
    unfold View.check at h
    split at h
    · assumption
    · cases h
  obtain ⟨hf, hmetrics⟩ := List.append_eq_nil_iff.mp hreasons
  refine ⟨hf, fun name hname => ?_⟩
  have hknown := List.filter_eq_nil_iff.mp (List.map_eq_nil_iff.mp hmetrics) name hname
  exact Option.ne_none_iff_exists'.mp (by simpa using hknown)

theorem View.check_of_known {v : View} {metrics : List String} (hf : v.filters.reasons = [])
    (hmetrics : ∀ name ∈ metrics, ∃ m, Registry.find? name = some m) :
    v.check metrics = .ok () := by
  have hknown : metricReasons metrics = [] := by
    rw [metricReasons, List.map_eq_nil_iff, List.filter_eq_nil_iff]
    intro name hname
    obtain ⟨m, hm⟩ := hmetrics name hname
    simp [hm]
  rw [View.check, hf, hknown]
  rfl

namespace Engine

variable {answer : String → Fields → Except Fault Value} {e : Engine} {v : View}
  {metrics : List String}

/-- The table of some people who were loaded is filled with the figures that they have alone. -/
theorem gives_userTable {limit : Int} {users : List String} {profiles : List Profile}
    (hcheck : v.check metrics = .ok ()) (hload : (Profile.load e v users).Gives (.ok profiles))
    {row : Profile → UserRow} (hrow : ∀ p ∈ profiles, p.emptyRow = .ok (row p))
    {g : Profile × String → Cell}
    (hg : ∀ t ∈ tasks profiles metrics, (e.userCell v t.1 t.2).Gives (.ok (g t))) :
    (e.userTable v limit users metrics).Gives
      (.ok ((filled g profiles metrics row).map Prod.snd)) := by
  have hcells : (Pool.run limit e.schedule (tasks profiles metrics) fun t =>
      e.userCell v t.1 t.2).Gives (.ok ((tasks profiles metrics).map g)) :=
    Pool.gives_run hg limit e.schedule
  have hrows : (profiles.mapM fun p => do .ok (p.userId, ← p.emptyRow)) =
      .ok (profiles.map fun p => (p.userId, row p)) := by
    refine Fault.mapM_eq_ok fun p hp => ?_
    rw [hrow p hp]
    rfl
  have hzip : (tasks profiles metrics).zip ((tasks profiles metrics).map g) =
      (tasks profiles metrics).map fun t => (t, g t) := by
    simpa using @List.zip_map' _ _ _ id g (tasks profiles metrics)
  rw [filled, ← hzip]
  unfold userTable
  refine gives_bind_ok (fun _ => hcheck) (gives_bind_ok hload (gives_bind_ok hcells ?_))
  exact gives_bind_ok (fun _ => hrows) (gives_pure _)

end Engine

namespace Engine

variable {answer : String → Fields → Except Fault Value} {e : Engine} {v : View}

def figureOf (e : Engine) (v : View) (t : Profile × String) : Cell :=
  (e.userCell v t.1 t.2).valueOr ⟨0.0, "", "", none⟩

theorem gives_figureOf (he : e.store = .ofFunction answer) (hf : v.filters.reasons = [])
    {p : Profile} {record : Value} (h : p.ReadFrom record) {name : String}
    (hname : ∃ m, Registry.find? name = some m) :
    (e.userCell v p name).Gives (.ok (e.figureOf v (p, name))) := by
  obtain ⟨m, hm⟩ := hname
  obtain ⟨role, hrole⟩ := h.exists_role
  exact gives_valueOr (exists_gives_userCell he hf hm hrole) _

end Engine

def Profile.blankRow (p : Profile) : UserRow := ⟨p.userId, p.name.toText, p.role.asText?, []⟩

theorem Profile.cells_blankRow (p : Profile) : p.blankRow.cells = [] := rfl

/-- Whatever is refused to single figures, however many may be pending and in whatever order they
end, a table has one row for each person who was asked for under a valid identifier and is found,
in the order in which they were first asked for. A row has each metric that was asked for once, and
under it the figure that the person has for it alone. -/
theorem userTable_cellwise {answer : String → Fields → Except Fault Value} {e : Engine}
    (he : e.store = .ofFunction answer) {v : View} {users metrics : List String}
    (hcheck : v.check metrics = .ok ()) {records : List Value}
    (hrecords : ∀ record ∈ records, Profile.Readable record)
    (hanswer : Identifier.kept users ≠ [] →
      answer (Profile.call v (Identifier.kept users)).sql
        (Profile.call v (Identifier.kept users)).params = .ok (.list records)) (limit : Int) :
    ∃ rows, (e.userTable v limit users metrics).Gives (.ok rows) ∧
      rows.map UserRow.userId =
        ((Identifier.kept users).filter (· ∈ Profile.foundIds records)).eraseDups ∧
      ∀ row ∈ rows, row.cells.names = metrics.eraseDups ∧
        ∃ record ∈ records, ∃ p : Profile, p.ReadFrom record ∧
          p.emptyRow = .ok { row with cells := [] } ∧
          ∀ name cell, (name, cell) ∈ row.cells → (e.userCell v p name).Gives (.ok cell) := by
  obtain ⟨hf, hmetrics⟩ := View.of_check hcheck
  have hask : Identifier.kept users ≠ [] →
      (ask e.store (Profile.call v (Identifier.kept users))).Gives (.ok (.list records)) := by
    intro hne
    rw [he, ← hanswer hne]
    exact gives_ask answer _
  obtain ⟨profiles, hload, hids, hread, hone⟩ := Profile.exists_gives_load hrecords hask
  have hblank : ∀ p ∈ profiles, p.emptyRow = .ok p.blankRow := by
    intro p hp
    obtain ⟨record, -, h⟩ := hread p hp
    exact h.emptyRow
  have hg : ∀ t ∈ tasks profiles metrics,
      (e.userCell v t.1 t.2).Gives (.ok (e.figureOf v t)) := by
    intro t ht
    obtain ⟨hp, hname⟩ := mem_tasks.mp ht
    obtain ⟨record, -, h⟩ := hread t.1 hp
    exact Engine.gives_figureOf he hf h (hmetrics t.2 hname)
  have hrows : ∀ q ∈ filled (e.figureOf v) profiles metrics Profile.blankRow, ∃ p ∈ profiles,
      p.userId = q.1 ∧ q.2 = p.blankRow.add
        (cellsOf q.1 ((tasks profiles metrics).map fun t => (t, e.figureOf v t))) :=
    fun _ hq => mem_filled (e.figureOf v) Profile.blankRow hq
  refine ⟨_, Engine.gives_userTable hcheck hload hblank hg, ?_, ?_⟩
  · rw [← hids, ← names_filled (e.figureOf v) Profile.blankRow, Named.names, List.map_map]
    refine List.map_congr_left fun q hq => ?_
    obtain ⟨p, -, hp, heq⟩ := hrows q hq
    rw [Function.comp_apply, heq]
    exact hp
  · intro r hr
    obtain ⟨q, hq, rfl⟩ := List.mem_map.mp hr
    obtain ⟨p, hp, huser, heq⟩ := hrows q hq
    obtain ⟨record, hrecord, hfrom⟩ := hread p hp
    rw [heq, ← huser]
    refine ⟨?_, record, hrecord, p, hfrom, hfrom.emptyRow, fun name cell hcell => ?_⟩
    · rw [UserRow.add, p.cells_blankRow, Named.names_putAll_nil]
      exact eraseDups_names_cellsOf_tasks (e.figureOf v) hp
    · rcases Named.mem_putAll hcell with hnone | hcell
      · cases hnone
      · obtain ⟨p', hp', hsame, hname, hvalue⟩ := mem_cellsOf_tasks (e.figureOf v) hcell
        obtain rfl : p' = p := hone p' hp' p hp hsame
        have hshown : cell = e.figureOf v (p', name) := hvalue
        rw [hshown]
        exact Engine.gives_figureOf he hf hfrom (hmetrics name hname)

/-- One person, asked for twice and with blanks around once, and one metric, asked for twice, with a
store that knows the person and refuses everything else. -/
theorem userTable_cellwise_refused : ∃ (e : Engine) (v : View) (p : Profile) (row : UserRow),
    (e.userTable v 2 [" 00000000-0000-0000-0000-00000000000a", "nobody",
      "00000000-0000-0000-0000-00000000000a"] ["cash_per_dial", "cash_per_dial"]).Gives
        (.ok [row]) ∧
    row.userId = "00000000-0000-0000-0000-00000000000a" ∧ row.cells.names = ["cash_per_dial"] ∧
    ∀ name cell, (name, cell) ∈ row.cells → (e.userCell v p name).Gives (.ok cell) := by
  let record := Profile.kim "00000000-0000-0000-0000-00000000000a" .null
  let answer := Profile.finding record (.error (.queryFailed "refused"))
  let users := [" 00000000-0000-0000-0000-00000000000a", "nobody",
    "00000000-0000-0000-0000-00000000000a"]
  have hknown : ∀ name ∈ ["cash_per_dial", "cash_per_dial"], ∃ m, Registry.find? name = some m := by
    simp only [List.forall_mem_cons]
    exact ⟨⟨_, Registry.find?_cashPerDial⟩, ⟨_, Registry.find?_cashPerDial⟩, List.forall_mem_nil _⟩
  have hcheck := View.check_of_known Profile.reasons_february hknown
  have hkept : Identifier.kept users = ["00000000-0000-0000-0000-00000000000a",
      "00000000-0000-0000-0000-00000000000a"] := by decide
  obtain ⟨rows, hrows, hids, hcells⟩ := @userTable_cellwise answer (Engine.plain answer) rfl
    Profile.february users _ hcheck [record] (Profile.readable_kim _ (.inl rfl))
    (Profile.finding_call record _ _) 2
  have hfound : ((Identifier.kept users).filter (· ∈ Profile.foundIds [record])).eraseDups =
      ["00000000-0000-0000-0000-00000000000a"] := by
    rw [hkept]
    decide
  have hmetrics : ["cash_per_dial", "cash_per_dial"].eraseDups = ["cash_per_dial"] := by decide
  obtain ⟨row, rfl, hrow⟩ := List.map_eq_singleton_iff.mp (hids.trans hfound)
  obtain ⟨hnames, _, -, p, -, -, hfigures⟩ := hcells row List.mem_cons_self
  exact ⟨_, _, p, row, hrows, hrow, hnames.trans hmetrics, hfigures⟩

end Funnel
