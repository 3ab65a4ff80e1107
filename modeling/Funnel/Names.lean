import Funnel.Result

/-!
# Display names

Names of people are read from their profiles. A failed lookup gives no names; rows that are no
objects are a fault.
-/

set_option autoImplicit false

namespace Funnel

/-- Where the names of people are looked up. -/
inductive NameSource where
  | nowhere
  /-- A fixed directory. -/
  | directory (names : Named String)
  /-- The profiles as they come: rows, or no answer at all. -/
  | profiles (rows : Option Value)

namespace NameSource

/-- The identifiers of a lookup: texts that are not empty, each once, in order. -/
def lookupIds (ids : List String) : List String :=
  (ids.filter fun id => id != "").eraseDups.mergeSort fun a b => decide (a ≤ b)

/-- The columns of a table's rows whose `key` is among some identifiers. -/
structure Lookup where
  table : String
  columns : String
  key : String
  ids : List String

def lookup? (ids : List String) : Option Lookup :=
  match lookupIds ids with
  | [] => none
  | ids => some ⟨"profiles", "id,full_name", "id", ids⟩

def entryOf? (row : Value) : Except Fault (Option (String × String)) := do
  let id ← match row with
    | .object fields => .ok (Text.trim ((Named.find? fields "id").getD (.text "")).toText)
    | _ => .error .noSuchField
  match (← row.get "full_name").orElse (.text "") with
  | .text name =>
    let name := Text.trim name
    .ok (if id = "" ∨ name = "" then none else some (id, name))
  | _ => .error .noSuchField

def namesOfRows (rows : Value) : Except Fault (Named String) := do
  let rows ← if rows.isGiven then rows.entries else .ok []
  .ok (Named.putAll [] ((← rows.mapM entryOf?).filterMap id))

def resolve (source : NameSource) (ids : List String) : Except Fault (Named String) :=
  match source with
  | .nowhere => .ok []
  | .directory names => .ok names
  | .profiles rows =>
    match lookup? ids, rows with
    | some _, some rows => namesOfRows rows
    | _, _ => .ok []

end NameSource

end Funnel
