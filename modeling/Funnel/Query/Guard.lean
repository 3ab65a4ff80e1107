import Funnel.Query.Parser
import Funnel.Query.Placeholder
import Funnel.Fault
import Funnel.Text.Blank
import Funnel.Text.Case
import Funnel.Text.Word

/-!
# Read-only guard

Only what a parser takes for a SELECT, or for a union of them, goes to the store. A keyword that
writes is refused wherever it stands, in quotes and comments too. The parser sees the rest of the
texts with NULL for every placeholder.
-/

set_option autoImplicit false

namespace Funnel

/-- Keywords of statements that write, in lower case. -/
def writeKeywords : List String :=
  ["insert", "update", "delete", "drop", "alter", "truncate", "create", "grant", "revoke", "merge",
    "copy"]

/-- A keyword that stands at the head as a whole word, as it is written. -/
def writeKeywordAt? (cs : List Char) : Option String :=
  writeKeywords.findSome? fun w =>
    match Text.dropWord? w.toList cs with
    | some rest =>
      if rest.head?.any Text.isWord then none else some (String.ofList (cs.take w.length))
    | none => none

/-- The first keyword that writes, as it is written. -/
def writeKeyword? : (afterWord : Bool) → List Char → Option String
  | _, [] => none
  | afterWord, c :: r =>
    match if afterWord then none else writeKeywordAt? (c :: r) with
    | some w => some w
    | none => writeKeyword? (Text.isWord c) r

def dropSemicolons (cs : List Char) : List Char := (cs.reverse.dropWhile (· == ';')).reverse

/-- A statement as the parser sees it. -/
def placeholdersAsNull (s : String) : String :=
  .ofList (Placeholder.replace "NULL".toList s.toList)

/-- Lets a statement through, without blanks around it and semicolons after it. -/
def guard (parse : Sql.Parser) (sql : String) : Except Fault String :=
  let cs := Text.trimChars sql.toList
  if cs = [] then .error (.unsafeQuery .empty)
  else
    let cs := dropSemicolons cs
    match writeKeyword? false cs with
    | some w => .error (.unsafeQuery (.writes w))
    | none =>
      let sql := String.ofList cs
      match parse (placeholdersAsNull sql) with
      | .error .badSyntax => .error (.unsafeQuery .badSyntax)
      | .error (.named name) => .error (.parserFailed name)
      | .ok tree => if tree.isQuery then .ok sql else .error (.unsafeQuery .notSelect)

end Funnel
