import Funnel.Query.Parser
import Funnel.Recognizer.Grammar

/-!
# A recognizer of statements

A parser to run the guard with. A text is cut at its semicolons, and each part has to be a statement.
A command is one by its first word alone, a query by the grammar. What holds of the guard holds with
any other parser too.
-/

set_option autoImplicit false

namespace Funnel.Sql

def commands : List String :=
  ["ANALYZE", "CACHE", "CALL", "COMMENT", "DECLARE", "DO", "EXEC", "EXECUTE", "EXPLAIN", "FETCH",
    "LOAD", "OPTIMIZE", "PREPARE", "REASSIGN", "REFRESH", "REINDEX", "RENAME", "RESET", "SET",
    "SHOW", "UNCACHE", "VACUUM"]

/-- Commands that say nothing without what they apply to. -/
def transitiveCommands : List String := ["DESC", "DESCRIBE", "KILL", "PRAGMA"]

def commandStart (w : String) (rest : List Token) : Option (List Goal) :=
  if commands.contains w ∨ (w = "IF" ∧ !nextIs "(" rest) then some [.anything]
  else if transitiveCommands.contains w then some [.something, .anything]
  else if w = "USE" then
    some [.maybe ["ROLE", "WAREHOUSE", "DATABASE", "SCHEMA", "CATALOG"], .table]
  else if w = "BEGIN" then some [.items .mode false]
  else if w = "COMMIT" ∨ w = "ROLLBACK" ∨ w = "END" then
    some [.maybe ["TRANSACTION", "WORK"], .phrase ["TO"] [.maybe ["SAVEPOINT"], .maybeName],
      .phrase ["AND"] [.maybe ["NO"], .maybe ["CHAIN"]]]
  else none

/-- The kind of a statement; none if the tokens are no statement. -/
def statementKind? (ts : List Token) : Option Kind :=
  match ts with
  | .word w :: rest =>
    match commandStart w rest with
    | some goals => (meets? goals rest).map fun _ => .other
    | none => (meets? [.statement] ts).map kindOf
  | _ => (meets? [.statement] ts).map kindOf

/-- Tokens cut at semicolons, without comments. A last semicolon ends the statement before it,
unless a comment follows. -/
def statements : List Token → List (List Token)
  | [] => [[]]
  | t :: ts =>
    match statements ts with
    | s :: rest =>
      if t = .symbol ";" then if ts = [] then [[]] else [] :: s :: rest
      else if t = .comment then s :: rest
      else (t :: s) :: rest
    | [] => [[t]]

/-- The kind of a text's only statement. Several statements are of no kind of their own; none if
the first one is empty or something is not SQL. -/
def kind? (ts : List Token) : Option Kind :=
  match statements ts with
  | [] => none
  | first :: rest =>
    if rest.all fun s => s.isEmpty || (statementKind? s).isSome then
      (statementKind? first).map fun k => if rest = [] then k else .other
    else none

def recognize : Parser := fun s =>
  match tokens? s.toList with
  | none => .error (.named "TokenError")
  | some ts =>
    match kind? ts with
    | none => .error .badSyntax
    | some k => .ok ⟨k, .word "INTO" ∈ ts⟩

end Funnel.Sql
