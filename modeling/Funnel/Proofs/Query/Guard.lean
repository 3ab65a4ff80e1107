import Funnel.Proofs.Fault
import Funnel.Proofs.Query.Keywords
import Funnel.Proofs.Query.Lexical
import Funnel.Query.Guard
import Mathlib.Data.List.Infix

/-!
# What the read-only guard hands on

What the guard hands on has none of the keywords that write as a whole word, and the parser takes it
for a query. A parser shows the tree of the first statement alone, so that this is less than one
read-only statement: an INTO is no keyword of the list, and more statements can follow.
-/

set_option autoImplicit false

namespace Funnel

open Sql

variable {parse : Parser} {sql out : String}

/-- What is handed on of a text: all of it but the blanks around it and the semicolons at its end, if
no keyword that writes stands in it and it has the tree of a query. -/
structure Passes (parse : Parser) (sql out : String) : Prop where
  given : Text.trimChars sql.toList ≠ []
  text : out.toList = dropSemicolons (Text.trimChars sql.toList)
  noKeyword : ∀ w ∈ writeKeywords, ¬ StandsIn w out.toList
  query : ∃ t, parse (placeholdersAsNull out) = .ok t ∧ t.isQuery = true

theorem guard_eq_ok_iff : guard parse sql = .ok out ↔ Passes parse sql out := by
  unfold guard
  by_cases hempty : Text.trimChars sql.toList = []
  · rw [hempty, if_pos rfl]
    constructor
    · intro h
      cases h
    · intro h
      exact absurd hempty h.given
  · rw [if_neg hempty]
    dsimp only
    constructor
    · intro h
      split at h
      · cases h
      next hword =>
        split at h
        · cases h
        · cases h
        next t ht =>
          by_cases hquery : t.isQuery = true
          · rw [if_pos hquery] at h
            obtain rfl := Except.ok.inj h
            refine ⟨hempty, String.toList_ofList, ?_, t, ht, hquery⟩
            rw [String.toList_ofList]
            exact (writeKeyword?_eq_none_iff false _).mp hword
          · rw [if_neg hquery] at h
            cases h
    · intro h
      have hword := (writeKeyword?_eq_none_iff false _).mpr h.noKeyword
      obtain ⟨t, ht, hquery⟩ := h.query
      rw [← h.text, hword, String.ofList_toList]
      simp only [ht, hquery, if_true]

/-- A text is one statement, a query that names no table for its rows. -/
structure ReadsOnly (parse : Parser) (s : String) : Prop where
  one : OneStatement s
  query : ∃ t, parse (placeholdersAsNull s) = .ok t ∧ t.isQuery = true ∧ t.hasTarget = false

/-- The guard hands on exactly what passes. Of what it hands on the first statement is a query, and
the text reads only if that is its one statement and names no table for its rows. -/
theorem guard_hands_on (hfirst : parse.TakesFirst) (sql out : String) :
    (guard parse sql = .ok out ↔ Passes parse sql out) ∧
    (guard parse sql = .ok out → ∃ t, parse (firstStatement (placeholdersAsNull out)) = .ok t ∧
      t.isQuery = true ∧ (ReadsOnly parse out ↔ OneStatement out ∧ t.hasTarget = false)) := by
  refine ⟨guard_eq_ok_iff, ?_⟩
  intro h
  obtain ⟨t, ht, hquery⟩ := (guard_eq_ok_iff.mp h).query
  refine ⟨t, hfirst _ t ht, hquery, ?_⟩
  constructor
  · intro hreads
    obtain ⟨u, hu, -, htarget⟩ := hreads.query
    obtain rfl : t = u := Except.ok.inj (ht.symm.trans hu)
    exact ⟨hreads.one, htarget⟩
  · intro hone
    exact ⟨hone.1, t, ht, hquery, hone.2⟩

/-- A parser that goes by what a text starts with, and by an INTO between blanks. -/
def Sql.byOpening : Parser := fun s =>
  if ["SELECT ", "WITH "].any (·.toList.isPrefixOf s.toList) then
    .ok ⟨.select, decide (" INTO ".toList <:+: s.toList)⟩
  else .error .badSyntax

/-- The semicolon at the end of a query is taken away. -/
theorem guard_hands_on_one : (Parser.ofFirst byOpening).TakesFirst ∧
    guard (.ofFirst byOpening) "SELECT 1;" = .ok "SELECT 1" ∧
    ∃ t, byOpening (firstStatement (placeholdersAsNull "SELECT 1")) = .ok t ∧
      t.isQuery = true := by
  have hfirst := takesFirst_ofFirst byOpening
  have hguard : guard (.ofFirst byOpening) "SELECT 1;" = .ok "SELECT 1" :=
    Fault.eq_ok_of_toOption (by decide +kernel)
  obtain ⟨t, ht, hquery, -⟩ := (guard_hands_on hfirst "SELECT 1;" "SELECT 1").2 hguard
  rw [Parser.ofFirst, firstStatement_firstStatement] at ht
  exact ⟨hfirst, hguard, t, ht, hquery⟩

theorem not_readsOnly_of_parts {s : String} (h : firstStatement s ≠ s) : ¬ ReadsOnly parse s := by
  intro hreads
  exact h ((firstStatement_eq_self_iff s).mpr hreads.one)

theorem not_readsOnly_of_target {s : String}
    (h : (parse (placeholdersAsNull s)).toOption.any (·.hasTarget) = true) :
    ¬ ReadsOnly parse s := by
  intro hreads
  obtain ⟨t, ht, -, htarget⟩ := hreads.query
  rw [ht] at h
  exact absurd h (by simp [Except.toOption, htarget])

/-- A table to write to is let through; a semicolon is, when a blank stands behind it; and so is a
second statement that the placeholders in front of it hide in a comment. -/
theorem not_readsOnly_handed_on : (Parser.ofFirst byOpening).TakesFirst ∧
    (guard (.ofFirst byOpening) "SELECT * INTO leaked FROM contacts" =
        .ok "SELECT * INTO leaked FROM contacts" ∧
      ¬ ReadsOnly (.ofFirst byOpening) "SELECT * INTO leaked FROM contacts") ∧
    (guard (.ofFirst byOpening) "SELECT 1; ;" = .ok "SELECT 1; " ∧
      ¬ ReadsOnly (.ofFirst byOpening) "SELECT 1; ") ∧
    (guard (.ofFirst byOpening) "SELECT $a$ /* $a$; CALL wipe() --*/" =
        .ok "SELECT $a$ /* $a$; CALL wipe() --*/" ∧
      ¬ ReadsOnly (.ofFirst byOpening) "SELECT $a$ /* $a$; CALL wipe() --*/") := by
  refine ⟨takesFirst_ofFirst _, ⟨?_, ?_⟩, ⟨?_, ?_⟩, ⟨?_, ?_⟩⟩
  · exact Fault.eq_ok_of_toOption (by decide +kernel)
  · exact not_readsOnly_of_target (by decide +kernel)
  · exact Fault.eq_ok_of_toOption (by decide +kernel)
  · exact not_readsOnly_of_parts (by decide +kernel)
  · exact Fault.eq_ok_of_toOption (by decide +kernel)
  · exact not_readsOnly_of_parts (by decide +kernel)

end Funnel
