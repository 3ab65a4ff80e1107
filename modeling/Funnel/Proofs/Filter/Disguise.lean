import Mathlib.Data.List.TakeWhile
import Funnel.Filter.Standard

/-!
# Identifiers in disguise

A list of tokens can hide identifiers among tokens of other forms and blanks. Only the identifiers
are ever read from it, so a list and its disguise say the same. Filters are read through their
cleaned form, in which the lists hold nothing but identifiers.
-/

set_option autoImplicit false

namespace Funnel

namespace Text

theorem dropWhile_append_blanks {cs after : List Char} (hafter : ∀ c ∈ after, isBlank c = true) :
    ((cs ++ after).dropWhile isBlank).reverse.dropWhile isBlank =
      (cs.dropWhile isBlank).reverse.dropWhile isBlank := by
  rw [List.dropWhile_append]
  split
  · rename_i hempty
    have hnone : after.dropWhile isBlank = [] := List.dropWhile_eq_nil_iff.mpr hafter
    rw [hnone, List.isEmpty_iff.mp hempty]
  · rw [List.reverse_append, List.dropWhile_append_of_pos]
    intro c hc
    exact hafter c (List.mem_reverse.mp hc)

theorem trimChars_pad {before after : List Char} (hbefore : ∀ c ∈ before, isBlank c = true)
    (hafter : ∀ c ∈ after, isBlank c = true) (cs : List Char) :
    trimChars (before ++ cs ++ after) = trimChars cs := by
  rw [trimChars, trimChars, dropWhile_append_blanks hafter,
    List.dropWhile_append_of_pos hbefore]

end Text

namespace Identifier

def pad (before after : List Char) (token : String) : String :=
  String.ofList (before ++ token.toList ++ after)

/-- The second list is the first with tokens of other forms put in anywhere and with blanks around
identifiers. -/
inductive Disguised : List String → List String → Prop where
  | nil : Disguised [] []
  | keep (token : String) {ids tokens : List String} (h : Disguised ids tokens) :
      Disguised (token :: ids) (token :: tokens)
  | insert {token : String} (hform : isValid token = false) {ids tokens : List String}
      (h : Disguised ids tokens) : Disguised ids (token :: tokens)
  | pad {id : String} (hform : isValid id = true) {before after : List Char}
      (hbefore : ∀ c ∈ before, Text.isBlank c = true)
      (hafter : ∀ c ∈ after, Text.isBlank c = true) {ids tokens : List String}
      (h : Disguised ids tokens) : Disguised (id :: ids) (pad before after id :: tokens)

variable {ids tokens : List String} {token : String}

theorem trim_pad {before after : List Char} (hbefore : ∀ c ∈ before, Text.isBlank c = true)
    (hafter : ∀ c ∈ after, Text.isBlank c = true) (token : String) :
    Text.trim (pad before after token) = Text.trim token := by
  rw [Text.trim, pad, String.toList_ofList, Text.trimChars_pad hbefore hafter, Text.trim]

theorem isValid_pad {before after : List Char} (hbefore : ∀ c ∈ before, Text.isBlank c = true)
    (hafter : ∀ c ∈ after, Text.isBlank c = true) (token : String) :
    isValid (pad before after token) = isValid token := by
  rw [isValid, pad, String.toList_ofList, Text.trimChars_pad hbefore hafter, isValid]

theorem kept_cons_of_valid (h : isValid token = true) (tokens : List String) :
    kept (token :: tokens) = Text.trim token :: kept tokens := by
  rw [kept, List.filter_cons_of_pos h, List.map_cons, kept]

theorem kept_cons_of_invalid (h : isValid token = false) (tokens : List String) :
    kept (token :: tokens) = kept tokens :=
  kept_insert_invalid h [] tokens

/-- A disguise hides nothing and adds nothing. -/
theorem kept_of_disguised (h : Disguised ids tokens) : kept tokens = kept ids := by
  induction h with
  | nil => rfl
  | keep token _ ih =>
    rw [← List.singleton_append, kept_append, ih, ← kept_append, List.singleton_append]
  | insert hform _ ih => rw [kept_cons_of_invalid hform, ih]
  | pad hform hbefore hafter _ ih =>
    rw [kept_cons_of_valid ((isValid_pad hbefore hafter _).trans hform),
      kept_cons_of_valid hform, trim_pad hbefore hafter, ih]

theorem disguised_nil (h : ∀ token ∈ tokens, isValid token = false) : Disguised [] tokens := by
  induction tokens with
  | nil => exact .nil
  | cons token tokens ih =>
    exact .insert (h token List.mem_cons_self) (ih fun t ht => h t (List.mem_cons_of_mem _ ht))

@[simp]
theorem kept_kept (tokens : List String) : kept (kept tokens) = kept tokens := by
  induction tokens with
  | nil => rfl
  | cons token tokens ih =>
    cases hform : isValid token with
    | false => rw [kept_cons_of_invalid hform, ih]
    | true =>
      have hmem : Text.trim token ∈ kept (token :: tokens) := by
        rw [kept_cons_of_valid hform]
        exact List.mem_cons_self
      rw [kept_cons_of_valid hform, ← List.singleton_append, kept_append, kept_of_mem_kept hmem, ih]

end Identifier

namespace Filters

def cleaned (f : Filters) : Filters :=
  { f with repIds := Identifier.kept f.repIds, setterIds := Identifier.kept f.setterIds }

/-- The second filters are the first with the lists of people disguised. -/
structure Disguised (f f' : Filters) : Prop where
  dateRange : f'.dateRange = f.dateRange
  accountId : f'.accountId = f.accountId
  repIds : Identifier.Disguised f.repIds f'.repIds
  setterIds : Identifier.Disguised f.setterIds f'.setterIds

variable (f : Filters)

theorem Disguised.cleaned_eq {f f' : Filters} (h : Disguised f f') : f'.cleaned = f.cleaned := by
  rw [cleaned, cleaned, Identifier.kept_of_disguised h.repIds,
    Identifier.kept_of_disguised h.setterIds, h.dateRange, h.accountId]

@[simp]
theorem reasons_cleaned : f.cleaned.reasons = f.reasons := rfl

@[simp]
theorem bounds_cleaned : f.cleaned.bounds = f.bounds := rfl

@[simp]
theorem days_cleaned : f.cleaned.days = f.days := rfl

@[simp]
theorem kept_repIds_cleaned : Identifier.kept f.cleaned.repIds = Identifier.kept f.repIds :=
  Identifier.kept_kept f.repIds

@[simp]
theorem kept_setterIds_cleaned :
    Identifier.kept f.cleaned.setterIds = Identifier.kept f.setterIds :=
  Identifier.kept_kept f.setterIds

end Filters

namespace Standard

variable (f : Filters) (t : Table) (qualifier : Option String)

@[simp]
theorem accountValue_cleaned : accountValue f.cleaned = accountValue f := rfl

@[simp]
theorem userConditions_cleaned :
    userConditions f.cleaned t qualifier = userConditions f t qualifier := by
  simp only [userConditions, people, Filters.kept_repIds_cleaned, Filters.kept_setterIds_cleaned]

@[simp]
theorem conditions_cleaned (start finish : Calendar.Date) (narrowed : Bool) :
    conditions f.cleaned start finish t qualifier narrowed =
      conditions f start finish t qualifier narrowed := by
  simp only [conditions, accountConditions, accountValue_cleaned, userConditions_cleaned]

@[simp]
theorem users_cleaned : users f.cleaned t qualifier = users f t qualifier := by
  simp only [users, userConditions_cleaned]

@[simp]
theorem apply_cleaned (narrowed : Bool) :
    apply f.cleaned t qualifier narrowed = apply f t qualifier narrowed := by
  simp only [apply, Filters.days_cleaned, conditions_cleaned]

end Standard

end Funnel
