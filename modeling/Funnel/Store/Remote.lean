import Funnel.Json.Reader
import Funnel.Query.Guard
import Funnel.Query.Bound

/-!
# The remote store

Queries go through a remote procedure, after the guard. What comes back is rows, as a list, a
single object, or JSON text of one of them; anything else is a failed query.
-/

set_option autoImplicit false

namespace Funnel

/-- A remote procedure. It answers a statement and its parameters with data or the reason of a
failure. -/
structure Remote where
  procedure : String
  reply : String → Fields → Except String Value

namespace Remote

def metricsProcedure : String := "execute_metrics_query_array"

def kindName : Value → String
  | .null => "NoneType"
  | .bool _ => "bool"
  | .int _ => "int"
  | .double _ => "float"
  | .decimal _ => "Decimal"
  | .text _ => "str"
  | .date _ => "date"
  | .moment _ => "datetime"
  | .list _ => "list"
  | .object _ => "dict"

def isObject : Value → Bool
  | .object _ => true
  | _ => false

def rowsOf (procedure : String) (data : Value) : Except Fault (List Value) := do
  let data := data.orElse (.list [])
  let data ← match data with
    | .text s =>
      match Json.read? s with
      | some v => .ok v
      | none => .error (.queryFailed (procedure ++ " returned malformed JSON"))
    | v => .ok v
  let unusable : Except Fault (List Value) :=
    .error (.queryFailed
      (procedure ++ " returned " ++ kindName data ++ ", expected a list of rows"))
  match data with
  | .object fields => .ok [.object fields]
  | .list items => if items.all isObject then .ok items else unusable
  | _ => unusable

def query (r : Remote) (parse : Sql.Parser) (sql : String) (params : Fields) :
    Except Fault (List Value) × List (String × Fields) :=
  match guard parse sql with
  | .error e => (.error e, [])
  | .ok sql =>
    match r.reply sql params with
    | .error reason =>
      (.error (.queryFailed (r.procedure ++ " failed: " ++ reason)), [(sql, params)])
    | .ok data => (rowsOf r.procedure data, [(sql, params)])

end Remote

end Funnel
