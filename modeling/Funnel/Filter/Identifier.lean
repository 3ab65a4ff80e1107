import Funnel.Text.Blank
import Funnel.Value

/-!
# Identifiers of people

An identifier has the form of a UUID: five groups of 8, 4, 4, 4 and 12 hexadecimal digits of
either case, parted by dashes, possibly with blanks around. Tokens of another form are dropped.
-/

set_option autoImplicit false

namespace Funnel.Identifier

def isHex (c : Char) : Bool :=
  ('0' ≤ c && c ≤ '9') || ('a' ≤ c && c ≤ 'f') || ('A' ≤ c && c ≤ 'F')

def dropHex? : (count : Nat) → List Char → Option (List Char)
  | 0, cs => some cs
  | n + 1, c :: cs => if isHex c then dropHex? n cs else none
  | _ + 1, [] => none

def isGroups : List Nat → List Char → Bool
  | [], cs => cs.isEmpty
  | [n], cs => dropHex? n cs == some []
  | n :: ns, cs =>
    match dropHex? n cs with
    | some ('-' :: r) => isGroups ns r
    | _ => false

def isForm (cs : List Char) : Bool := isGroups [8, 4, 4, 4, 12] cs

/-- Whether a token is an identifier once its ends are trimmed. -/
def isValid (token : String) : Bool := isForm (Text.trimChars token.toList)

/-- The identifiers among the tokens, trimmed, in order. -/
def kept (tokens : List String) : List String := (tokens.filter isValid).map Text.trim

/-- A token of any kind is an identifier only if it is a text. -/
def isValidValue (v : Value) : Bool :=
  match v with
  | .text s => isValid s
  | _ => false

def texts (vs : List Value) : List String := vs.filterMap Value.asText?

theorem kept_append (a b : List String) : kept (a ++ b) = kept a ++ kept b := by simp [kept]

/-- A token of another form leaves no trace. -/
theorem kept_insert_invalid {token : String} (h : isValid token = false) (a b : List String) :
    kept (a ++ token :: b) = kept (a ++ b) := by
  simp [kept, h]

/-- An identifier is kept as it is. -/
theorem kept_of_mem_kept {tokens : List String} {id : String} (h : id ∈ kept tokens) :
    kept [id] = [id] := by
  obtain ⟨token, htoken, rfl⟩ := List.mem_map.mp h
  have hvalid := (List.mem_filter.mp htoken).2
  have hsame : isValid (Text.trim token) = true := by
    rw [isValid, Text.trim, String.toList_ofList, Text.trimChars_trimChars]
    exact hvalid
  have htrim : Text.trim (Text.trim token) = Text.trim token := by
    rw [Text.trim, Text.trim, String.toList_ofList, Text.trimChars_trimChars]
  rw [kept, List.filter_cons_of_pos hsame, List.filter_nil, List.map_singleton, htrim]

theorem ne_empty_of_mem_kept {tokens : List String} {id : String} (h : id ∈ kept tokens) :
    id ≠ "" := by
  rintro rfl
  have hnone : kept [""] = [] := by decide
  cases hnone.symm.trans (kept_of_mem_kept h)

end Funnel.Identifier
