import Mathlib.Data.List.Pairwise
import Funnel.Proofs.Named
import Funnel.Wire.Check

/-!
# What readers make of values

A reader reads a value as something when it does so at the end of every path. Fields are found
under either of their names as long as no name of one field is a name of another, so that an object
whose fields go by any choice of names holds what it was built from.
-/

set_option autoImplicit false

namespace Funnel.Wire

variable {α β : Type} {read : Reader α} {v : Value} {x : α}

/-- A value that is read as `x` wherever it stands. -/
def Reads (read : Reader α) (v : Value) (x : α) : Prop := ∀ path, read path v = .ok x

theorem reads_text (s : String) : Reads text (.text s) s := fun _ => rfl

theorem reads_double (x : Float) : Reads double (.double x) x := fun _ => rfl

theorem reads_whole (n : Int) : Reads whole (.int n) n := fun _ => rfl

theorem reads_anyValue (v : Value) : Reads anyValue v v := fun _ => rfl

theorem reads_null : Reads (nullable read) .null none := fun _ => rfl

theorem Reads.nullable (h : Reads read v x) (hv : v ≠ .null) :
    Reads (nullable read) v (some x) := by
  intro path
  cases v with
  | null => exact absurd rfl hv
  | _ => simp only [Wire.nullable, h path, Except.map]

theorem reads_listOf {write : α → Value} (h : ∀ x, Reads read (write x) x) (xs : List α) :
    Reads (listOf read) (.list (xs.map write)) xs := by
  intro path
  have hevery : ∀ place,
      every (fun i v => read (path ++ [.index i]) v) place (xs.map write) = .ok xs := by
    induction xs with
    | nil => exact fun _ => rfl
    | cons x xs ih =>
      intro place
      simp only [List.map_cons, every, ih, h x _, Except.map, Checked.and]
  exact hevery 0

theorem reads_mapOf {write : α → Value} (h : ∀ x, Reads read (write x) x) (xs : Named α) :
    Reads (mapOf read) (.object (xs.map fun (n, x) => (n, write x))) xs := by
  intro path
  simp only [mapOf]
  induction xs with
  | nil => rfl
  | cons entry xs ih =>
    simp only [List.map_cons, everyField, ih, h entry.2 _, Except.map, Checked.and]

/-- The name of a field as it is written: in lower case where that is chosen. -/
def nameIn (plain : String → Bool) (name : String) : String :=
  if plain name then plainName name else name

def named (plain : String → Bool) (fields : Fields) : Fields :=
  fields.map fun (n, v) => (nameIn plain n, v)

/-- The fields of requests, responses and rows, and the names they have in lower case. -/
def fieldNames : Named String :=
  [("accountId", "account_id"), ("accountRole", "account_role"), ("breakdown", "breakdown"),
    ("data", "data"), ("date", "date"), ("dateRange", "date_range"),
    ("displayValue", "display_value"), ("dynamicBreakdown", "dynamic_breakdown"),
    ("effectiveBreakdown", "effective_breakdown"), ("end", "end"), ("executedAt", "executed_at"),
    ("executionTimeMs", "execution_time_ms"), ("filters", "filters"),
    ("metricName", "metric_name"), ("metrics", "metrics"), ("name", "name"),
    ("options", "options"), ("periods", "periods"), ("repId", "rep_id"), ("repIds", "rep_ids"),
    ("repName", "rep_name"), ("result", "result"), ("role", "role"), ("setterId", "setter_id"),
    ("setterIds", "setter_ids"), ("setterName", "setter_name"), ("start", "start"),
    ("strategy", "strategy"), ("total", "total"), ("type", "type"), ("userId", "user_id"),
    ("value", "value"), ("vizType", "viz_type"), ("widgetSettings", "widget_settings")]

theorem plainName_fieldNames : ∀ entry ∈ fieldNames, plainName entry.1 = entry.2 := by
  decide

theorem nameIn_eq_or (plain : String → Bool) (name : String) :
    nameIn plain name = name ∨ nameIn plain name = plainName name := by
  unfold nameIn
  split
  · exact .inr rfl
  · exact .inl rfl

theorem named_wire (fields : Fields) : named (fun _ => false) fields = fields := List.map_id fields

/-- No name of one field is a name of another. -/
def Apart (names : List String) : Prop :=
  names.Pairwise fun a b => ∀ a' ∈ [a, plainName a], ∀ b' ∈ [b, plainName b], a' ≠ b'

instance (names : List String) : Decidable (Apart names) :=
  inferInstanceAs (Decidable (names.Pairwise _))

theorem find?_named_eq_none {plain : String → Bool} {fields : Fields} {name : String}
    (h : ∀ entry ∈ fields, nameIn plain entry.1 ≠ name) :
    (named plain fields).find? name = none := by
  induction fields with
  | nil => rfl
  | cons entry fields ih =>
    have hne : name ≠ nameIn plain entry.1 := (h entry List.mem_cons_self).symm
    rw [named, List.map_cons, Named.find?_cons, if_neg hne]
    exact ih fun e he => h e (List.mem_cons_of_mem _ he)

/-- Under a name of a field stands that field or nothing. -/
theorem find?_named {plain : String → Bool} {fields : Fields}
    (hapart : Apart (fields.map Prod.fst)) {entry : String × Value} (hmem : entry ∈ fields)
    {name : String} (hname : name ∈ [entry.1, plainName entry.1]) :
    (named plain fields).find? name =
      if nameIn plain entry.1 = name then some entry.2 else none := by
  have hother : ∀ other : String × Value, nameIn plain other.1 ∈ [other.1, plainName other.1] :=
    fun other => by simpa using nameIn_eq_or plain other.1
  induction fields with
  | nil => cases hmem
  | cons first fields ih =>
    obtain ⟨hfirst, hrest⟩ := List.pairwise_cons.mp hapart
    rw [named, List.map_cons, Named.find?_cons]
    rcases List.mem_cons.mp hmem with rfl | hmem
    · by_cases hsame : name = nameIn plain entry.1
      · rw [if_pos hsame, if_pos hsame.symm]
      · rw [if_neg hsame, if_neg (Ne.symm hsame)]
        exact find?_named_eq_none fun other he =>
          (hfirst other.1 (List.mem_map_of_mem he) name hname _ (hother other)).symm
    · have hne : name ≠ nameIn plain first.1 :=
        (hfirst entry.1 (List.mem_map_of_mem hmem) _ (hother first) name hname).symm
      rw [if_neg hne]
      exact ih hrest hmem

/-- A field that can be found under one of its names. -/
def Record.Holds (r : Record) (name : String) (v : Value) : Prop :=
  ∃ found, namedField r.fields name = some (found, v)

theorem holds_named (plain : String → Bool) (path : List Step) {fields : Fields}
    (hapart : Apart (fields.map Prod.fst)) {entry : String × Value} (hmem : entry ∈ fields) :
    (Record.mk path (named plain fields)).Holds entry.1 entry.2 := by
  have hwire := @find?_named plain _ hapart _ hmem entry.1 List.mem_cons_self
  have hplain := @find?_named plain _ hapart _ hmem (plainName entry.1) (by simp)
  by_cases h : nameIn plain entry.1 = entry.1
  · rw [if_pos h] at hwire
    refine ⟨entry.1, ?_⟩
    simp only [namedField, hwire, Option.map_some, Option.some_or]
  · rw [if_neg h] at hwire
    rw [if_pos ((nameIn_eq_or plain entry.1).resolve_left h)] at hplain
    refine ⟨plainName entry.1, ?_⟩
    simp only [namedField, hwire, hplain, Option.map_none, Option.map_some, Option.none_or]

namespace Record

variable {r : Record} {name : String}

def HoldsAll (r : Record) : Fields → Prop
  | [] => True
  | (name, v) :: rest => r.Holds name v ∧ r.HoldsAll rest

theorem Holds.fieldOf (h : r.Holds name v) : fieldOf r.fields name = some v := by
  obtain ⟨found, hfound⟩ := h
  rw [Wire.fieldOf, hfound]
  rfl

theorem Holds.required (h : r.Holds name v) (hread : Reads read v x) :
    r.required name read = .ok x := by
  obtain ⟨found, hfound⟩ := h
  simp only [Record.required, hfound, hread _]

theorem Holds.optional (h : r.Holds name v) (hread : Reads read v x) (missing : α) :
    r.optional name missing read = .ok x := by
  obtain ⟨found, hfound⟩ := h
  simp only [Record.optional, hfound, hread _]

end Record

theorem holdsAll_named (plain : String → Bool) (path : List Step) {fields : Fields}
    (hapart : Apart (fields.map Prod.fst)) :
    (Record.mk path (named plain fields)).HoldsAll fields := by
  have hall : ∀ part : Fields, (∀ entry ∈ part, entry ∈ fields) →
      (Record.mk path (named plain fields)).HoldsAll part := by
    intro part hpart
    induction part with
    | nil => trivial
    | cons entry rest ih =>
      exact ⟨holds_named plain path hapart (hpart entry List.mem_cons_self),
        ih fun e he => hpart e (List.mem_cons_of_mem _ he)⟩
  exact hall fields fun _ h => h

/-- An object is read by what its fields are, not by the names they go by. -/
theorem reads_record {plain : String → Bool} {rule : Rule} {fields : Fields} {names : List String}
    {read : Record → Checked α} (hapart : Apart names) (hnames : fields.map Prod.fst = names)
    (h : ∀ r : Record, r.HoldsAll fields → read r = .ok x) :
    Reads (record rule read) (.object (named plain fields)) x :=
  fun path => h ⟨path, named plain fields⟩ (holdsAll_named plain path (hnames ▸ hapart))

end Funnel.Wire
