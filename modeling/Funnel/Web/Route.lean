import Funnel.Json.Reader
import Funnel.Web.Query
import Funnel.Wire.Write

/-!
# Routes

What the service answers to a request for a path. A rejected request is answered with every
reason, a body of the wrong form with every violation.
-/

set_option autoImplicit false

namespace Funnel.Web

inductive Body where
  | absent
  | malformed
  | data (v : Value)

def Body.ofText (s : String) : Body :=
  if s = "" then .absent
  else
    match Json.read? s with
    | some v => .data v
    | none => .malformed

structure Incoming where
  method : String
  path : String
  query : String
  body : Body

inductive Reply where
  | answer (status : Nat) (body : Value)
  | invalid (violations : List Violation)

/-- The status of a reply; data of the wrong form cannot be processed. -/
def Reply.status : Reply → Nat
  | .answer status _ => status
  | .invalid _ => 422

def Reply.detail (status : Nat) (v : Value) : Reply := .answer status (.object [("detail", v)])

inductive Endpoint where
  | root | health | catalog | metricOptions | metric | users | periods | account | accountChart
deriving DecidableEq, Repr

namespace Endpoint

/-- The endpoints of a path, with their methods. -/
def ofPath (path : String) : List (String × Endpoint) :=
  if path = "/api/" then [("GET", .root)]
  else if path = "/api/health" then [("GET", .health)]
  else if path = "/api/metrics" then [("GET", .catalog), ("POST", .metric)]
  else if path = "/api/metrics/options" then [("GET", .metricOptions)]
  else if path = "/api/data-view/user-metrics" then [("POST", .users)]
  else if path = "/api/data-view/user-period-metrics" then [("POST", .periods)]
  else if path = "/api/data-view/account-metrics" then [("POST", .account)]
  else if path = "/api/data-view/account-metrics-time-series" then [("POST", .accountChart)]
  else []

/-- Whether an endpoint reads a body and needs the engine. -/
def needsEngine : Endpoint → Bool
  | .root | .health | .catalog | .metricOptions => false
  | _ => true

end Endpoint

def otherSpelling (path : String) : String :=
  match path.toList.reverse with
  | '/' :: r => String.ofList (r.dropWhile (· == '/')).reverse
  | _ => path ++ "/"

def catalogEntry (key : String) (m : Metric) : Value :=
  .object [
    ("name", .text key),
    ("displayName", .text m.name),
    ("description", .text m.description),
    ("breakdownType", .text m.breakdown.text),
    ("unit", .text m.unit.text),
    ("isSpecialMetric", .bool m.isSpecial),
    ("attributionContext", .ofText? (m.attribution.map Attribution.text))]

def catalogBody : Value :=
  let entries := Registry.sortedNames.filterMap fun n => (Registry.find? n).map (catalogEntry n)
  .object [("metrics", .list entries), ("count", .int entries.length)]

def rootBody : Value :=
  .object [("message", .text "Sales Metrics Engine API"), ("metrics", .int Registry.all.length)]

def optionsReply (query : String) : Reply :=
  match queryValue? query "metricName" with
  | none => .invalid [⟨.missing, [.field "query", .field "metricName"]⟩]
  | some name =>
    match Registry.find? name with
    | none => .detail 404 (.text (notFound name))
    | some m => .answer 200 (.object [("metricName", .text name), ("options", .object m.options)])

/-- The path of violations in a body. -/
def bodyPath : List Step := [.field "body"]

/-- The body as data of some form. -/
def Body.read {α : Type} (body : Body) (read : Rule → Wire.Reader α) : Wire.Checked α :=
  match body with
  | .absent => Wire.violated .missing bodyPath
  | .malformed => Wire.violated .jsonInvalid bodyPath
  | .data v => read .modelAttributesType bodyPath v

def rejected (reasons : List String) : Reply :=
  .detail 400 (.object [("error", .text "Invalid metric request"), ("errors", .ofTexts reasons)])

/-- Answers with what was read from the body. A rejection is a reply, any other fault is not. -/
def respond {α : Type} (input : Wire.Checked α) (answer : α → Session Value) : Session Reply :=
  match input with
  | .error violations => pure (.invalid violations)
  | .ok a => ExceptT.mk do
    match ← (answer a).run with
    | .ok v => pure (.ok (.answer 200 v))
    | .error (.invalidRequest reasons) => pure (.ok (rejected reasons))
    | .error e => pure (.error e)

def viewOf (account : String) (range : DateRange) (settings : Fields) : View :=
  ⟨some account, range, settings⟩

/-- How many cells of a table may be pending. -/
def cellLimit : Int := 10

def engineReply (e : Engine) (body : Body) (endpoint : Endpoint) : Session Reply :=
  match endpoint with
  | .users => respond (body.read Wire.usersRequest) fun r => do
    let rows ← e.userTable (viewOf r.accountId r.range r.settings) cellLimit r.userIds r.metricNames
    pure (.object [("users", .list (rows.map UserRow.write))])
  | .periods => respond (body.read Wire.periodsRequest) fun r => do
    let rows ← e.periodMatrix (viewOf r.accountId r.range r.settings) cellLimit r.userIds
      r.metricNames r.periodType
    pure (.object [("periodType", .text r.periodType), ("rows", .list (rows.map PeriodRow.write))])
  | .account => respond (body.read Wire.accountRequest) fun r => do
    pure (← e.accountFigure (viewOf r.accountId r.range r.settings) r.metricName).write
  | .accountChart => respond (body.read Wire.accountRequest) fun r => do
    pure (← e.accountChart (viewOf r.accountId r.range r.settings) r.metricName).write
  | _ => respond (body.read Wire.request) fun r => do
    pure (← e.execute r none).write

def plainReply (query : String) : Endpoint → Reply
  | .catalog => .answer 200 catalogBody
  | .metricOptions => optionsReply query
  | .health => .answer 200 (.object [("status", .text "healthy")])
  | _ => .answer 200 rootBody

def reply (e : Option Engine) (r : Incoming) (endpoint : Endpoint) : Session Reply :=
  if endpoint.needsEngine then
    match e, r.body with
    | none, .malformed => pure (.invalid [⟨.jsonInvalid, bodyPath⟩])
    | none, _ => .ofExcept (.error .notConfigured)
    | some e, body => engineReply e body endpoint
  else pure (plainReply r.query endpoint)

def handle (e : Option Engine) (r : Incoming) : Session Reply :=
  match Endpoint.ofPath r.path with
  | [] =>
    if (Endpoint.ofPath (otherSpelling r.path)).isEmpty then pure (.detail 404 (.text "Not Found"))
    else pure (.answer 307 (.text ""))
  | endpoints =>
    match endpoints.lookup r.method with
    | some endpoint => reply e r endpoint
    | none => pure (.detail 405 (.text "Method Not Allowed"))

end Funnel.Web
