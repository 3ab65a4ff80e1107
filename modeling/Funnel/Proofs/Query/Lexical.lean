import Funnel.Query.Parser
import Funnel.Text.Word

/-!
# Semicolons of a text

A semicolon parts statements where it stands in no text constant, quoted name or comment. Which
characters do is told as PostgreSQL reads a text: constants with an E take backslashes, comments can
be nested, and a constant in dollar signs ends with the tag it starts with.
-/

set_option autoImplicit false

namespace Funnel.Sql

/-- What a character stands in, by what was read before it. -/
inductive Place where
  /-- Outside, with the word that is being read, its last character first. -/
  | code (word : List Char)
  | dash
  | slash
  | text (escapes : Bool)
  | escape
  | textEnd (escapes : Bool)
  | name
  | lineComment
  | blockComment (depth : Nat) (last : Char)
  /-- A dollar sign and what may be a tag, its last character first. -/
  | tag (reversed : List Char)
  /-- A constant in dollar signs: its end and what has been read of it, both from behind. -/
  | dollarText (finish seen : List Char)

namespace Place

def code.step (word : List Char) (c : Char) : Place :=
  if c = '\'' then .text (word == ['e'] || word == ['E'])
  else if c = '"' then .name
  else if c = '-' then .dash
  else if c = '/' then .slash
  else if c = '$' ∧ word = [] then .tag []
  else if c = '$' ∨ Text.isWord c then .code (c :: word)
  else .code []

def step : Place → Char → Place
  | .code word, c => code.step word c
  | .dash, c => if c = '-' then .lineComment else code.step [] c
  | .slash, c => if c = '*' then .blockComment 0 ' ' else code.step [] c
  | .text escapes, c =>
    if c = '\'' then .textEnd escapes else if c = '\\' ∧ escapes then .escape else .text escapes
  | .escape, _ => .text true
  | .textEnd escapes, c => if c = '\'' then .text escapes else code.step [] c
  | .name, c => if c = '"' then .code [] else .name
  | .lineComment, c => if c = '\n' ∨ c = '\r' then .code [] else .lineComment
  | .blockComment depth last, c =>
    if last = '*' ∧ c = '/' then if depth = 0 then .code [] else .blockComment (depth - 1) ' '
    else if last = '/' ∧ c = '*' then .blockComment (depth + 1) ' '
    else .blockComment depth c
  | .tag reversed, c =>
    if c = '$' then .dollarText ('$' :: reversed ++ ['$']) []
    else if Text.isWord c ∧ ¬ (reversed = [] ∧ c.isDigit) then .tag (c :: reversed)
    else code.step [] c
  | .dollarText finish seen, c =>
    if finish.isPrefixOf (c :: seen) then .code [] else .dollarText finish (c :: seen)

def isOpen : Place → Bool
  | .text _ | .escape | .name | .blockComment _ _ | .dollarText _ _ => true
  | _ => false

/-- Whether a semicolon parts statements here. -/
def parts : Place → Bool
  | .code _ | .dash | .slash | .textEnd _ | .tag _ => true
  | _ => false

/-- What stands before the first semicolon that parts statements. -/
def first : Place → List Char → List Char
  | _, [] => []
  | p, c :: cs => if c = ';' ∧ p.parts then [] else c :: first (p.step c) cs

theorem first_first (p : Place) (cs : List Char) : p.first (p.first cs) = p.first cs := by
  induction cs generalizing p with
  | nil => rfl
  | cons c cs ih =>
    by_cases h : c = ';' ∧ p.parts = true
    · simp [first, h]
    · rw [first, if_neg h, first, if_neg h, ih]

theorem first_eq_self_iff (p : Place) (cs : List Char) :
    p.first cs = cs ↔ ∀ before after, cs = before ++ ';' :: after →
      (before.foldl step p).parts = false := by
  induction cs generalizing p with
  | nil => simp [first]
  | cons c cs ih =>
    constructor
    · intro h before after hcs
      rw [first] at h
      split at h
      · cases h
      next hnot =>
        cases before with
        | nil =>
          obtain ⟨rfl, -⟩ := List.cons.inj hcs
          simpa using hnot
        | cons b before =>
          obtain ⟨rfl, rfl⟩ := List.cons.inj hcs
          exact (ih _).mp (List.cons.inj h).2 before after rfl
    · intro h
      have hnot : ¬ (c = ';' ∧ p.parts = true) := by
        rintro ⟨rfl, hparts⟩
        have := h [] cs rfl
        rw [List.foldl_nil, hparts] at this
        cases this
      rw [first, if_neg hnot, (ih _).mpr fun before after hcs => h (c :: before) after (hcs ▸ rfl)]

end Place

def firstStatement (s : String) : String := .ofList (Place.first (.code []) s.toList)

/-- No semicolon parts a text into statements. -/
def OneStatement (s : String) : Prop :=
  ∀ before after, s.toList = before ++ ';' :: after →
    (before.foldl Place.step (.code [])).parts = false

theorem firstStatement_eq_self_iff (s : String) : firstStatement s = s ↔ OneStatement s := by
  rw [OneStatement, ← Place.first_eq_self_iff, firstStatement, ← String.toList_inj,
    String.toList_ofList]

theorem firstStatement_firstStatement (s : String) :
    firstStatement (firstStatement s) = firstStatement s := by
  rw [firstStatement, firstStatement, String.toList_ofList, Place.first_first]

/-- The tree of a text is the one of its first statement. -/
def Parser.TakesFirst (parse : Parser) : Prop :=
  ∀ s t, parse s = .ok t → parse (firstStatement s) = .ok t

/-- A parser that is shown the first statement only. -/
def Parser.ofFirst (parse : Parser) : Parser := fun s => parse (firstStatement s)

/-- A parser that fails in a way of its own where something is left open. -/
def Parser.ofClosed (parse : Parser) : Parser := fun s =>
  if (s.toList.foldl Place.step (.code [])).isOpen then .error (.named "TokenError") else parse s

theorem takesFirst_ofFirst (parse : Parser) : (Parser.ofFirst parse).TakesFirst := by
  intro s t h
  rwa [Parser.ofFirst, firstStatement_firstStatement]

example : firstStatement "SELECT ';' /* ; */ -- ;" = "SELECT ';' /* ; */ -- ;" := by
  decide +kernel

end Funnel.Sql
