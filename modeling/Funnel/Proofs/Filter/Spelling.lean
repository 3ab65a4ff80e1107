import Funnel.Proofs.Filter.Disguise
import Funnel.Proofs.Plan.Draft

/-!
# Letter case of identifiers

The digits of a UUID may be written in either letter case. A token keeps its form when its letters
are lowered, so lists of tokens that differ in letter case alone keep identifiers that differ in
letter case alone, and queries for these people have one text and parameters that differ in letter
case alone.
-/

set_option autoImplicit false

namespace Funnel

open Calendar Standard

namespace Identifier

/-- What a character shares with its lower case is checked on the codes of the capitals. -/
theorem forall_toLower {Q : Char → Char → Prop} (hsame : ∀ c, Q c c)
    (hcapitals : ∀ n ∈ List.range' 65 26, Q (Char.ofNat n) (Char.ofNat n).toLower) (c : Char) :
    Q c c.toLower := by
  by_cases h : c.toNat ∈ List.range' 65 26
  · have hcapital := hcapitals c.toNat h
    rwa [Char.ofNat_toNat] at hcapital
  · have hlower : c.toLower = c := by
      unfold Char.toLower
      split
      · rename_i hbounds
        have hfirst : 65 ≤ c.toNat := hbounds.1
        have hlast : c.toNat ≤ 90 := hbounds.2
        exact absurd (List.mem_range'_1.mpr ⟨hfirst, by omega⟩) h
      · rfl
    rw [hlower]
    exact hsame c

theorem isHex_toLower (c : Char) : isHex c.toLower = isHex c :=
  forall_toLower (Q := fun c d => isHex d = isHex c) (fun _ => rfl) (by decide) c

theorem isBlank_toLower (c : Char) : Text.isBlank c.toLower = Text.isBlank c :=
  forall_toLower (Q := fun c d => Text.isBlank d = Text.isBlank c) (fun _ => rfl)
    (by decide) c

theorem toLower_eq_dash (c : Char) : c.toLower = '-' ↔ c = '-' :=
  forall_toLower (Q := fun c d => d = '-' ↔ c = '-') (fun _ => Iff.rfl) (by decide) c

theorem dropHex?_lower (n : Nat) (cs : List Char) :
    dropHex? n (cs.map Char.toLower) = (dropHex? n cs).map (List.map Char.toLower) := by
  induction n generalizing cs with
  | zero => rfl
  | succ n ih =>
    cases cs with
    | nil => rfl
    | cons c cs =>
      rw [List.map_cons, dropHex?, dropHex?, isHex_toLower]
      split
      · exact ih cs
      · rfl

theorem isGroups_lower (ns : List Nat) (cs : List Char) :
    isGroups ns (cs.map Char.toLower) = isGroups ns cs := by
  induction ns generalizing cs with
  | nil => cases cs <;> rfl
  | cons n ns ih =>
    cases ns with
    | nil =>
      rw [isGroups, isGroups, dropHex?_lower]
      cases dropHex? n cs with
      | none => rfl
      | some rest => cases rest <;> rfl
    | cons m ns =>
      rw [isGroups, isGroups, dropHex?_lower]
      · cases dropHex? n cs with
        | none => rfl
        | some rest =>
          cases rest with
          | nil => rfl
          | cons c rest =>
            by_cases hdash : c = '-'
            · subst hdash
              exact ih rest
            · have hlower := mt (toLower_eq_dash c).mp hdash
              simp [hdash, hlower]
      all_goals nofun

theorem trimChars_lower (cs : List Char) :
    Text.trimChars (cs.map Char.toLower) = (Text.trimChars cs).map Char.toLower := by
  have hblank : Text.isBlank ∘ Char.toLower = Text.isBlank := funext isBlank_toLower
  simp only [Text.trimChars, List.dropWhile_map, hblank, ← List.map_reverse]

/-- A token in lower case, as stores give identifiers. -/
def canonical (token : String) : String := String.ofList (token.toList.map Char.toLower)

theorem isValid_canonical (token : String) : isValid (canonical token) = isValid token := by
  rw [isValid, canonical, String.toList_ofList, trimChars_lower, isForm, isGroups_lower, isValid,
    isForm]

theorem trim_canonical (token : String) :
    Text.trim (canonical token) = canonical (Text.trim token) := by
  rw [Text.trim, canonical, String.toList_ofList, trimChars_lower, canonical, Text.trim,
    String.toList_ofList]

theorem kept_canonical (tokens : List String) :
    kept (tokens.map canonical) = (kept tokens).map canonical := by
  induction tokens with
  | nil => rfl
  | cons token tokens ih =>
    rw [List.map_cons]
    cases hform : isValid token with
    | false =>
      rw [kept_cons_of_invalid hform, kept_cons_of_invalid ((isValid_canonical token).trans hform),
        ih]
    | true =>
      rw [kept_cons_of_valid hform, kept_cons_of_valid ((isValid_canonical token).trans hform), ih,
        trim_canonical, List.map_cons]

/-- Two lists of the same tokens, letter case aside. -/
def Respelled (tokens others : List String) : Prop := others.map canonical = tokens.map canonical

theorem Respelled.kept_eq {tokens others : List String} (h : Respelled tokens others) :
    (kept others).map canonical = (kept tokens).map canonical := by
  have hkept := congrArg kept h
  rwa [kept_canonical, kept_canonical] at hkept

theorem isValid_of_mem_kept {tokens : List String} {id : String} (h : id ∈ kept tokens) :
    isValid id = true := by
  cases hform : isValid id with
  | true => rfl
  | false =>
    have hkept := kept_of_mem_kept h
    rw [kept_cons_of_invalid hform] at hkept
    cases hkept

end Identifier

/-- A value in which a text that has the form of an identifier is in lower case. -/
def Value.canonical : Value → Value
  | .text s => .text (if Identifier.isValid s then Identifier.canonical s else s)
  | v => v

def canonicalFields (params : Fields) : Fields := params.map fun (n, v) => (n, v.canonical)

/-- The letter case of identifiers among the parameters does not matter to the answer. -/
def CaseBlind (answer : String → Fields → Except Fault Value) : Prop :=
  ∀ sql params others, canonicalFields others = canonicalFields params →
    answer sql others = answer sql params

theorem canonicalFields_append (a b : Fields) :
    canonicalFields (a ++ b) = canonicalFields a ++ canonicalFields b := List.map_append

/-- Which parameters are bound can be seen in either letter case. -/
theorem caseBlind_ite (name : String) (x y : Except Fault Value) :
    CaseBlind fun _ params => if (Named.find? params name).isSome then x else y := by
  have hbound : ∀ params : Fields, (Named.find? params name).isSome =
      (Named.find? (canonicalFields params) name).isSome := by
    intro params
    have hfind : Named.find? (canonicalFields params) name =
        (Named.find? params name).map Value.canonical := Named.find?_map Value.canonical params name
    rw [hfind, Option.isSome_map]
  intro sql params others h
  have hsame := hbound others
  rw [h, ← hbound params] at hsame
  simp only [hsame]

theorem canonicalFields_numberedValues (name : String) (values : List Value) :
    canonicalFields (numberedValues name values) =
      numberedValues name (values.map Value.canonical) := by
  simp [canonicalFields, numberedValues, List.zipIdx_map, Function.comp_def]

theorem map_canonical_text {ids : List String} (h : ∀ id ∈ ids, Identifier.isValid id = true) :
    (ids.map Value.text).map Value.canonical = (ids.map Identifier.canonical).map Value.text := by
  rw [List.map_map, List.map_map]
  refine List.map_congr_left fun id hid => ?_
  simp [Value.canonical, h id hid]

namespace Standard

theorem canonicalFields_personFields (single many : String) {ids : List String}
    (h : ∀ id ∈ ids, Identifier.isValid id = true) :
    canonicalFields (personFields single many ids) =
      personFields single many (ids.map Identifier.canonical) := by
  match ids with
  | [] => rfl
  | [id] =>
    have hid := h id List.mem_cons_self
    simp [canonicalFields, personFields, Value.canonical, hid]
  | id :: other :: ids =>
    rw [personFields, canonicalFields_numberedValues, map_canonical_text h]
    rfl

theorem canonicalFields_kept (single many : String) {tokens others : List String}
    (h : Identifier.Respelled tokens others) :
    canonicalFields (personFields single many (Identifier.kept others)) =
      canonicalFields (personFields single many (Identifier.kept tokens)) := by
  rw [canonicalFields_personFields _ _ fun _ => Identifier.isValid_of_mem_kept,
    canonicalFields_personFields _ _ fun _ => Identifier.isValid_of_mem_kept, h.kept_eq]

end Standard

/-- The second filters are the first with people spelled in another letter case. -/
structure Filters.Respelled (f f' : Filters) : Prop where
  dateRange : f'.dateRange = f.dateRange
  accountId : f'.accountId = f.accountId
  repIds : Identifier.Respelled f.repIds f'.repIds
  setterIds : Identifier.Respelled f.setterIds f'.setterIds

namespace Filters.Respelled

variable {f f' : Filters} {start finish : Date}

theorem days (h : f.Respelled f') : f'.days = f.days := by
  rw [Filters.days, Filters.bounds, h.dateRange]
  rfl

theorem reasons (h : f.Respelled f') : f'.reasons = f.reasons := by
  rw [Filters.reasons, Filters.range, h.dateRange, h.accountId]
  rfl

theorem headcount (h : f.Respelled f') : f'.headcount = f.headcount := by
  have hreps := congrArg List.length h.repIds.kept_eq
  have hsetters := congrArg List.length h.setterIds.kept_eq
  rw [List.length_map, List.length_map] at hreps hsetters
  rw [Filters.headcount, hreps, hsetters]
  rfl

theorem accountValue (h : f.Respelled f') : Standard.accountValue f' = Standard.accountValue f := by
  rw [Standard.accountValue, h.accountId]
  rfl

theorem userFields (h : f.Respelled f') (t : Table) :
    canonicalFields (Standard.userFields f' t) = canonicalFields (Standard.userFields f t) := by
  have hreps := canonicalFields_kept "rep_user_id" "rep_user_ids" h.repIds
  have hsetters := canonicalFields_kept "setter_user_id" "setter_user_ids" h.setterIds
  simp only [Standard.userFields, canonicalFields_append]
  congr 1
  · cases t.repColumn with
    | none => rfl
    | some column => simpa using hreps
  · cases t.setterColumn with
    | none => rfl
    | some column => simpa using hsetters

theorem fields (h : f.Respelled f') (s : Scope) :
    canonicalFields (s.fields f' start finish) = canonicalFields (s.fields f start finish) := by
  have haccount : accountFields f' start finish = accountFields f start finish := by
    rw [accountFields, h.accountValue]
    rfl
  cases s with
  | account => rw [Scope.fields, h.accountValue, Scope.fields]
  | days => rw [Scope.fields, haccount, Scope.fields]
  | people t =>
    rw [Scope.fields, canonicalFields_append, haccount, h.userFields, ← canonicalFields_append,
      Scope.fields]

theorem answer_call {answer : String → Fields → Except Fault Value} (hblind : CaseBlind answer)
    (h : f.Respelled f') (d : Draft) :
    answer (d.call f' start finish).sql (d.call f' start finish).params =
      answer (d.call f start finish).sql (d.call f start finish).params :=
  hblind (d.call f start finish).sql _ _ (h.fields d.scope)

end Filters.Respelled

end Funnel
