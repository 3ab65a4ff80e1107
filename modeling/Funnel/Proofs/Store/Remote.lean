import Funnel.Proofs.Fault
import Funnel.Proofs.Query.Guard
import Funnel.Store.Remote

/-!
# How a remote query can end

A statement that the guard refuses reaches no procedure. One that it hands on reaches the procedure
once, as the guard hands it on, and ends with rows or as a failed query. A statement at which the
parser fails in a way of its own is not refused but ends in that failure, before anything is asked.
-/

set_option autoImplicit false

namespace Funnel

open Sql

variable {parse : Parser} {sql name : String}

/-- A statement that comes to the parser, which fails at it in a way that has a name of its own. -/
structure FailsParser (parse : Parser) (sql name : String) : Prop where
  given : Text.trimChars sql.toList ≠ []
  noKeyword : ∀ w ∈ writeKeywords, ¬ StandsIn w (dropSemicolons (Text.trimChars sql.toList))
  fails : parse (placeholdersAsNull (.ofList (dropSemicolons (Text.trimChars sql.toList)))) =
    .error (.named name)

theorem guard_eq_parserFailed_iff :
    guard parse sql = .error (.parserFailed name) ↔ FailsParser parse sql name := by
  unfold guard
  by_cases hempty : Text.trimChars sql.toList = []
  · rw [hempty, if_pos rfl]
    constructor
    · intro h
      cases h
    · intro h
      exact absurd hempty h.given
  · rw [if_neg hempty]
    dsimp only
    constructor
    · intro h
      split at h
      · cases h
      next hword =>
        have hnone := (writeKeyword?_eq_none_iff false _).mp hword
        split at h
        · cases h
        next other hfails =>
          cases h
          exact ⟨hempty, hnone, hfails⟩
        · split at h <;> cases h
    · intro h
      rw [(writeKeyword?_eq_none_iff false _).mpr h.noKeyword]
      simp only [h.fails]

/-- The guard fails by refusing, or else as the parser does. -/
theorem guard_failsAs (parse : Parser) (sql : String) :
    Fault.FailsAs (fun e => (∃ refusal, e = .unsafeQuery refusal) ∨ ∃ name, e = .parserFailed name)
      (guard parse sql) := by
  unfold guard
  dsimp only
  split
  · exact Fault.failsAs_error (.inl ⟨_, rfl⟩)
  split
  · exact Fault.failsAs_error (.inl ⟨_, rfl⟩)
  split
  · exact Fault.failsAs_error (.inl ⟨_, rfl⟩)
  · exact Fault.failsAs_error (.inr ⟨_, rfl⟩)
  split
  · exact Fault.failsAs_ok _
  · exact Fault.failsAs_error (.inl ⟨_, rfl⟩)

namespace Remote

/-- Data that is rows as it stands: a list of objects, or one object. -/
inductive AreRows : Value → List Value → Prop
  | one (fields : Fields) : AreRows (.object fields) [.object fields]
  | many {items : List Value} (h : ∀ v ∈ items, isObject v = true) : AreRows (.list items) items

/-- The rows that the data of an answer holds. Data that is not given holds no rows, and a text
holds what it spells. -/
inductive Holds : Value → List Value → Prop
  | nothing {data : Value} (h : data.isGiven = false) : Holds data []
  | direct {data : Value} {rows : List Value} (h : AreRows data rows)
    (hgiven : data.isGiven = true) :
    Holds data rows
  | spelled {s : String} {v : Value} {rows : List Value} (hgiven : s ≠ "")
    (hread : Json.read? s = some v) (h : AreRows v rows) : Holds (.text s) rows

theorem AreRows.isObject {v : Value} {rows : List Value} (h : AreRows v rows) :
    ∀ row ∈ rows, isObject row = true := by
  cases h with
  | one fields =>
    intro row hrow
    rw [List.mem_singleton.mp hrow]
    rfl
  | many h => exact h

theorem Holds.isObject {v : Value} {rows : List Value} (h : Holds v rows) :
    ∀ row ∈ rows, Remote.isObject row = true := by
  cases h with
  | nothing => exact fun row hrow => absurd hrow List.not_mem_nil
  | direct h => exact h.isObject
  | spelled _ _ h => exact h.isObject

theorem not_areRows_text {s : String} {rows : List Value} : ¬ AreRows (.text s) rows := nofun

theorem areRows_list_iff {items rows : List Value} :
    AreRows (.list items) rows ↔ items.all Remote.isObject = true ∧ rows = items := by
  constructor
  · rintro ⟨⟩
    next h => exact ⟨List.all_eq_true.mpr h, rfl⟩
  · rintro ⟨h, rfl⟩
    exact .many (List.all_eq_true.mp h)

def asRows (procedure : String) (v : Value) : Except Fault (List Value) :=
  match v with
  | .object fields => .ok [.object fields]
  | .list items =>
    if items.all Remote.isObject then .ok items
    else .error (.queryFailed
      (procedure ++ " returned " ++ kindName (.list items) ++ ", expected a list of rows"))
  | v => .error (.queryFailed
      (procedure ++ " returned " ++ kindName v ++ ", expected a list of rows"))

theorem asRows_eq_ok_iff {procedure : String} {v : Value} {rows : List Value} :
    asRows procedure v = .ok rows ↔ AreRows v rows := by
  cases v with
  | object fields =>
    constructor
    · rintro ⟨⟩
      exact .one fields
    · rintro ⟨⟩
      rfl
  | list items =>
    rw [areRows_list_iff]
    by_cases h : items.all Remote.isObject = true
    · simp only [asRows, h, if_true, true_and, Except.ok.injEq]
      exact eq_comm
    · simp [asRows, h]
  | _ =>
    constructor
    · intro hok
      cases hok
    · intro hrows
      cases hrows

theorem rowsOf_of_nothing {procedure : String} {data : Value} (h : data.isGiven = false) :
    rowsOf procedure data = .ok [] := by
  unfold rowsOf Value.orElse
  rw [h]
  rfl

theorem rowsOf_text {procedure s : String} (h : s ≠ "") : rowsOf procedure (.text s) =
    match Json.read? s with
    | some v => asRows procedure v
    | none => .error (.queryFailed (procedure ++ " returned malformed JSON")) := by
  have hgiven : (Value.text s).isGiven = true := bne_iff_ne.mpr h
  unfold rowsOf Value.orElse
  rw [if_pos hgiven]
  dsimp only
  cases Json.read? s with
  | none => rfl
  | some v => cases v <;> rfl

theorem rowsOf_of_given {procedure : String} {data : Value} (h : data.isGiven = true)
    (htext : ∀ s, data ≠ .text s) : rowsOf procedure data = asRows procedure data := by
  unfold rowsOf Value.orElse
  rw [if_pos h]
  cases data with
  | text s => exact absurd rfl (htext s)
  | _ => rfl

theorem rowsOf_eq_ok_iff {procedure : String} {data : Value} {rows : List Value} :
    rowsOf procedure data = .ok rows ↔ Holds data rows := by
  by_cases hgiven : data.isGiven = true
  · by_cases htext : ∃ s, data = .text s
    · obtain ⟨s, rfl⟩ := htext
      have hs : s ≠ "" := bne_iff_ne.mp hgiven
      rw [rowsOf_text hs]
      constructor
      · intro h
        split at h
        next v hread => exact .spelled hs hread (asRows_eq_ok_iff.mp h)
        · cases h
      · intro h
        cases h with
        | nothing hnot => exact absurd hgiven (by rw [hnot]; exact Bool.false_ne_true)
        | direct h => exact absurd h not_areRows_text
        | spelled _ hread h =>
          rw [hread]
          exact asRows_eq_ok_iff.mpr h
    · have hne : ∀ s, data ≠ .text s := fun s h => htext ⟨s, h⟩
      rw [rowsOf_of_given hgiven hne, asRows_eq_ok_iff]
      constructor
      · intro h
        exact .direct h hgiven
      · intro h
        cases h with
        | nothing hnot => exact absurd hgiven (by rw [hnot]; exact Bool.false_ne_true)
        | direct h => exact h
        | spelled => exact absurd rfl (hne _)
  · have hnot : data.isGiven = false := Bool.eq_false_iff.mpr hgiven
    rw [rowsOf_of_nothing hnot]
    constructor
    · rintro ⟨⟩
      exact .nothing hnot
    · intro h
      cases h with
      | nothing => rfl
      | direct _ h => exact absurd h hgiven
      | spelled hs => exact absurd (bne_iff_ne.mpr hs) hgiven

theorem asRows_failsAs (procedure : String) (v : Value) :
    Fault.FailsAs (fun e => ∃ reason, e = .queryFailed reason) (asRows procedure v) := by
  unfold asRows
  split
  · exact Fault.failsAs_ok _
  · split
    · exact Fault.failsAs_ok _
    · exact Fault.failsAs_error ⟨_, rfl⟩
  · exact Fault.failsAs_error ⟨_, rfl⟩

theorem rowsOf_failsAs (procedure : String) (data : Value) :
    Fault.FailsAs (fun e => ∃ reason, e = .queryFailed reason) (rowsOf procedure data) := by
  by_cases hgiven : data.isGiven = true
  · by_cases htext : ∃ s, data = .text s
    · obtain ⟨s, rfl⟩ := htext
      rw [rowsOf_text (bne_iff_ne.mp hgiven)]
      split
      · exact asRows_failsAs procedure _
      · exact Fault.failsAs_error ⟨_, rfl⟩
    · rw [rowsOf_of_given hgiven fun s h => htext ⟨s, h⟩]
      exact asRows_failsAs procedure data
  · rw [rowsOf_of_nothing (Bool.eq_false_iff.mpr hgiven)]
    exact Fault.failsAs_ok []

/-- The three ways in which the query of a statement ought to end, each with what reached the
procedure. -/
inductive Outcome (r : Remote) (parse : Parser) (params : Fields) (sql : String) :
    Except Fault (List Value) × List (String × Fields) → Prop
  /-- The statement is refused and reaches nothing. -/
  | refused {refusal : Refusal} (hguard : guard parse sql = .error (.unsafeQuery refusal)) :
    Outcome r parse params sql (.error (.unsafeQuery refusal), [])
  /-- The call fails, or its data holds no rows. -/
  | failed {out reason : String} (hguard : guard parse sql = .ok out)
    (hreply : ∀ data, r.reply out params = .ok data → ∀ rows, ¬ Holds data rows) :
    Outcome r parse params sql (.error (.queryFailed reason), [(out, params)])
  /-- The call is answered with data that holds rows, all of them objects. -/
  | answered {out : String} {data : Value} {rows : List Value} (hguard : guard parse sql = .ok out)
    (hreply : r.reply out params = .ok data) (hrows : Holds data rows)
    (hobjects : ∀ row ∈ rows, Remote.isObject row = true) :
    Outcome r parse params sql (.ok rows, [(out, params)])

variable (r : Remote) (params : Fields)

theorem query_of_guard_error {e : Fault} (h : guard parse sql = .error e) :
    r.query parse sql params = (.error e, []) := by
  rw [query, h]

theorem outcome_of_guard_ok {out : String} (h : guard parse sql = .ok out) :
    r.Outcome parse params sql (r.query parse sql params) := by
  rw [query, h]
  dsimp only
  cases hreply : r.reply out params with
  | error reason =>
    refine .failed h ?_
    intro data hdata
    rw [hreply] at hdata
    cases hdata
  | ok data =>
    dsimp only
    cases hrows : rowsOf r.procedure data with
    | ok rows =>
      have hholds := rowsOf_eq_ok_iff.mp hrows
      exact .answered h hreply hholds hholds.isObject
    | error e =>
      obtain ⟨reason, rfl⟩ := rowsOf_failsAs r.procedure data e hrows
      refine .failed h ?_
      intro data' hdata rows hholds
      obtain rfl : data = data' := Except.ok.inj (hreply.symm.trans hdata)
      rw [rowsOf_eq_ok_iff.mpr hholds] at hrows
      cases hrows

/-- Every query ends in one of the three ways, whatever the procedure and the parser do, unless the
parser fails at its statement in a way of its own. Then the query ends in that failure, and nothing
has reached the procedure. -/
theorem query_outcome (parse : Parser) (sql : String) :
    (r.Outcome parse params sql (r.query parse sql params) ↔ ∀ name, ¬ FailsParser parse sql name) ∧
    ∀ name, FailsParser parse sql name →
      r.query parse sql params = (.error (.parserFailed name), []) := by
  have hfails : ∀ name, FailsParser parse sql name →
      r.query parse sql params = (.error (.parserFailed name), []) := by
    intro name h
    exact query_of_guard_error r params (guard_eq_parserFailed_iff.mpr h)
  refine ⟨⟨?_, ?_⟩, hfails⟩
  · intro houtcome name h
    rw [hfails name h] at houtcome
    cases houtcome
  · intro h
    cases hguard : guard parse sql with
    | ok out => exact outcome_of_guard_ok r params hguard
    | error e =>
      rcases guard_failsAs parse sql e hguard with ⟨refusal, rfl⟩ | ⟨name, rfl⟩
      · rw [query_of_guard_error r params hguard]
        exact .refused hguard
      · exact absurd (guard_eq_parserFailed_iff.mp hguard) (h name)

/-- A quote that is never closed ends in none of the three ways. -/
theorem not_outcome_of_open_quote :
    let r : Remote := ⟨metricsProcedure, fun _ _ => .ok (.list [])⟩
    let parse := Parser.ofClosed byOpening
    parse "SELECT 'abc" = .error (.named "TokenError") ∧
      ¬ r.Outcome parse [] "SELECT 'abc" (r.query parse "SELECT 'abc" []) := by
  intro r parse
  have hempty : Text.trimChars "SELECT 'abc".toList ≠ [] := by decide
  have hword :
      writeKeyword? false (dropSemicolons (Text.trimChars "SELECT 'abc".toList)) = none := by
    decide
  have hopen : ("SELECT 'abc".toList.foldl Place.step (.code [])).isOpen = true := by
    decide +kernel
  have hseen : placeholdersAsNull (.ofList (dropSemicolons (Text.trimChars "SELECT 'abc".toList))) =
      "SELECT 'abc" := by
    decide +kernel
  have hfails : parse "SELECT 'abc" = .error (.named "TokenError") := if_pos hopen
  have hguard := guard_eq_parserFailed_iff.mpr
    ⟨hempty, (writeKeyword?_eq_none_iff false _).mp hword, hseen ▸ hfails⟩
  refine ⟨hfails, ?_⟩
  rw [query_of_guard_error _ _ hguard]
  intro h
  cases h

end Remote

end Funnel
