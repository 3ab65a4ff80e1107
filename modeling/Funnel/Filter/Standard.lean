import Funnel.Catalog.Table
import Funnel.Filter.Check
import Funnel.Filter.Condition
import Funnel.Filter.Identifier

/-!
# Standard conditions

Every query over a table is bounded by the two days of the range, on the account's own calendar,
and by the account. Where a query is narrowed to people, the reps and setters follow: one
identifier by equality, several by a list, none by nothing.
-/

set_option autoImplicit false

namespace Funnel.Standard

def accountZone : String :=
  "COALESCE((SELECT business_timezone FROM accounts WHERE id = $account_id), 'UTC')"

/-- The account's calendar day of a row, as an SQL expression. -/
def dayExpression (t : Table) (qualifier : Option String) : String :=
  let column := qualify t.dateColumn qualifier
  match t.dateKind with
  | .timestamp => "(" ++ column ++ " AT TIME ZONE " ++ accountZone ++ ")::date"
  | .local | .date => column

def accountValue (f : Filters) : Value :=
  match f.accountId with
  | some s => .text s
  | none => .null

def personCondition (column : String) (ids : List String) (single many : String) : Filtering :=
  match ids with
  | [id] => ⟨column, .compare "=", .text id, single, none⟩
  | ids => ⟨column, .oneOf, .list (ids.map .text), many, none⟩

/-- The condition on one kind of people, if there are any and the table has their column. -/
def people (column : Option String) (qualifier : Option String) (tokens : List String)
    (single many : String) : List Filtering :=
  match Identifier.kept tokens, column with
  | [], _ | _, none => []
  | ids, some column => [personCondition (qualify column qualifier) ids single many]

def userConditions (f : Filters) (t : Table) (qualifier : Option String) : List Filtering :=
  people t.repColumn qualifier f.repIds "rep_user_id" "rep_user_ids" ++
    people t.setterColumn qualifier f.setterIds "setter_user_id" "setter_user_ids"

def accountConditions (f : Filters) (start finish : Calendar.Date) (t : Table)
    (qualifier : Option String) : List Filtering :=
  let day := dayExpression t qualifier
  [⟨day, .compare ">=", .text start.iso, "start_date", some "date"⟩,
    ⟨day, .compare "<=", .text finish.iso, "end_date", some "date"⟩,
    ⟨qualify "account_id" qualifier, .compare "=", accountValue f, "account_id", none⟩]

def conditions (f : Filters) (start finish : Calendar.Date) (t : Table) (qualifier : Option String)
    (narrowed : Bool) : Applied :=
  Applied.empty.addAll
    (accountConditions f start finish t qualifier ++
      if narrowed then userConditions f t qualifier else [])

def users (f : Filters) (t : Table) (qualifier : Option String) : Applied :=
  Applied.empty.addAll (userConditions f t qualifier)

def apply (f : Filters) (t : Table) (qualifier : Option String) (narrowed : Bool) :
    Except Fault Applied := do
  let (start, finish) ← f.days
  .ok (conditions f start finish t qualifier narrowed)

end Funnel.Standard
