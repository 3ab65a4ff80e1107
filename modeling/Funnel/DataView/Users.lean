import Funnel.DataView.Side
import Funnel.Display
import Funnel.Engine

/-!
# Figures of people

A table of people and metrics is computed cell by cell, each cell by requests of its own that are
narrowed to the person. A matrix has a figure for each period and for the whole range.
-/

set_option autoImplicit false

namespace Funnel

open Calendar

/-- A person of an account, with name and role as they are stored. -/
structure Profile where
  userId : String
  name : Value
  role : Value

structure Cell where
  value : Float
  display : String
  role : String
  /-- The figures of the sides, where there are several. -/
  parts : Option (Named Float)

structure UserRow where
  userId : String
  name : String
  role : Option String
  cells : Named Cell

structure PeriodRow where
  userId : String
  name : String
  metricName : String
  periods : Named Float
  total : Float

/-- An account, a range of days and settings. -/
structure View where
  accountId : Option String
  range : DateRange
  settings : Fields

namespace View

def filters (v : View) : Filters := ⟨some v.range, v.accountId, [], []⟩

def during (v : View) (range : DateRange) : View := { v with range }

def request (v : View) (metric : String) (reps setters : List String) : Request where
  metricName := metric
  filters := { v.filters with repIds := reps, setterIds := setters }
  options := some ⟨some "kpi", some .total, v.settings⟩

def timeFormat (v : View) : Option Display.TimeFormat :=
  (v.settings.find? "timeFormat").bind Display.TimeFormat.ofValue?

def shown (v : View) (m : Metric) (x : Float) : Except Fault String :=
  Display.ofDouble m.unit v.timeFormat x

end View

def View.check (v : View) (metrics : List String) : Except Fault Unit :=
  match v.filters.reasons ++ metricReasons metrics with
  | [] => .ok ()
  | reasons => .error (.invalidRequest reasons)

namespace Profile

def call (v : View) (ids : List String) : Call :=
  let users := numberedValues "user_id" (ids.map .text)
  let references := ", ".intercalate (users.names.map ("$" ++ ·))
  { query := .mk ["p.id AS user_id", "p.full_name AS name", "aa.role AS account_role"] "profiles p"
      [⟨"account_access aa", "aa.user_id = p.id", none⟩]
      (sqlConditions ["aa.account_id = $account_id", "p.id IN (" ++ references ++ ")"]) [] [] [] []
    params := Named.putAll
      [("account_id", Standard.accountValue v.filters)] users }

/-- The profile of a row; a row that names nobody is none. -/
def ofRow? (row : Value) : Except Fault (Option Profile) := do
  let id ← row.get "user_id"
  if id.isGiven then do
    let name ← row.get "name"
    let role ← row.get "account_role"
    .ok (some ⟨id.toText, name.orElse (.text id.toText), role⟩)
  else .ok none

def byUser (rows : Value) : Except Fault (Named Profile) := do
  let profiles ← (← rows.entries).mapM ofRow?
  .ok (Named.putAll [] ((profiles.filterMap id).map fun p => (p.userId, p)))

/-- The profiles of some people, in the order asked for. Without an answer of the store there are
none. -/
def load (e : Engine) (v : View) (tokens : List String) : Session (List Profile) := do
  match Identifier.kept tokens with
  | [] => pure []
  | ids => do
    let rows ← (Session.ask e.store (call v ids)).orElse (.list [])
    let found ← Session.ofExcept (byUser rows)
    pure (ids.filterMap found.find?)

def textViolations (field : String) : Value → List Violation
  | .text _ => []
  | _ => [⟨.stringType, [.field field]⟩]

def emptyRow (p : Profile) : Except Fault UserRow :=
  match textViolations "name" p.name ++ Result.nameViolations "account_role" p.role with
  | [] => .ok ⟨p.userId, p.name.toText, p.role.asText?, []⟩
  | violations => .error (.invalidData violations)

def emptyPeriods (p : Profile) (metric : String) : Except Fault PeriodRow :=
  match textViolations "name" p.name with
  | [] => .ok ⟨p.userId, p.name.toText, metric, [], 0.0⟩
  | violations => .error (.invalidData violations)

end Profile

/-- The number of a result that is a single one. -/
def Result.single : Result → Float
  | .total x => x
  | _ => 0.0

namespace Engine

def sideValue (e : Engine) (v : View) (metric user : String) (s : Side) : Session Float := do
  let response ← e.execute (v.request metric (s.repIds user) (s.setterIds user)) none
  pure response.result.single

def userCell (e : Engine) (v : View) (p : Profile) (metric : String) : Session Cell := do
  match Registry.find? metric with
  | none => .ofExcept (.error .noSuchField)
  | some m => do
    let role ← Session.ofExcept (roleOf p.role)
    match m.sides role with
    | [] => do
      let display ← Session.ofExcept (v.shown m 0.0)
      pure ⟨0.0, display, "none", none⟩
    | sides => do
      let values ← Session.gather (sides.map (e.sideValue v metric p.userId))
      let value := combineSides m.unit values
      let display ← Session.ofExcept (v.shown m value)
      let parts : Named Float := (sides.map Side.label).zip values
      match sides with
      | [side] => pure ⟨value, display, side.label, none⟩
      | _ => pure ⟨value, display, "both", some parts⟩

def fillCells (rows : Named UserRow) (cells : List ((Profile × String) × Cell)) : Named UserRow :=
  cells.foldl (fun rows ((p, metric), cell) =>
    match rows.find? p.userId with
    | some row => Named.put rows p.userId { row with cells := Named.put row.cells metric cell }
    | none => rows) rows

def userTable (e : Engine) (v : View) (limit : Int) (users metrics : List String) :
    Session (List UserRow) := do
  Session.ofExcept (v.check metrics)
  let profiles ← Profile.load e v users
  let tasks := profiles.flatMap fun p => metrics.map fun m => (p, m)
  let cells ← Pool.run limit e.schedule tasks fun (p, m) => e.userCell v p m
  let rows ← Session.ofExcept (profiles.mapM fun p => do .ok (p.userId, ← p.emptyRow))
  pure ((fillCells (Named.putAll [] rows) (tasks.zip cells)).map Prod.snd)

end Engine

/-- The periods that a matrix can have. -/
def periodGranularity? (name : String) : Option Granularity :=
  if name = "daily" then some .day
  else if name = "weekly" then some .week
  else if name = "monthly" then some .month
  else none

/-- The range of one period, labelled by its bucket; without a label it is the whole range. -/
structure Period where
  label : Option String
  range : DateRange

def Period.all (windows : List BucketWindow) (range : DateRange) : List Period :=
  (windows.map fun w => ⟨some w.bucket.iso, ⟨some w.start.iso, some w.finish.iso⟩⟩) ++
    [⟨none, range⟩]

def PeriodRow.add (row : PeriodRow) (p : Period) (x : Float) : PeriodRow :=
  match p.label with
  | some label => { row with periods := Named.put row.periods label x }
  | none => { row with total := x }

structure PeriodTask where
  profile : Profile
  metric : String
  period : Period

/-- Adds a figure to the row of its person and metric, which is begun if it is missing. -/
def addPeriod (rows : List PeriodRow) (task : PeriodTask) (x : Float) :
    Except Fault (List PeriodRow) :=
  let isRow (row : PeriodRow) : Bool :=
    row.userId == task.profile.userId && row.metricName == task.metric
  if rows.any isRow then
    .ok (rows.map fun row => if isRow row then row.add task.period x else row)
  else do
    let row ← task.profile.emptyPeriods task.metric
    .ok (rows ++ [row.add task.period x])

def View.periods (v : View) (g : Granularity) : Except Fault (List Period) := do
  let (start, finish) ← v.filters.days
  let windows ← bucketWindows start finish g
  .ok (Period.all windows v.range)

def periodGranularity (name : String) : Except Fault Granularity :=
  match periodGranularity? name with
  | some g => .ok g
  | none => .error (.invalidRequest ["Unknown period type '" ++ name ++ "'"])

/-- The matrix of some people and metrics, with a row for each person and metric. -/
def Engine.periodMatrix (e : Engine) (v : View) (limit : Int) (users metrics : List String)
    (kind : String) : Session (List PeriodRow) := do
  let g ← Session.ofExcept (periodGranularity kind)
  Session.ofExcept (v.check metrics)
  let periods ← Session.ofExcept (v.periods g)
  let profiles ← Profile.load e v users
  let tasks := profiles.flatMap fun p => metrics.flatMap fun m => periods.map fun d => ⟨p, m, d⟩
  let values ← Pool.run limit e.schedule tasks fun t => do
    pure (← e.userCell (v.during t.period.range) t.profile t.metric).value
  .ofExcept ((tasks.zip values).foldlM (fun rows (t, x) => addPeriod rows t x) [])

end Funnel
