import Funnel.Catalog.Metric

/-!
# Attribution families

A metric over appointments can be credited to the rep who ran the call or to the setter who
booked it, a dial to whoever dialed. A base metric therefore expands into a family: one variant
for each context that makes sense for its table, and the base metric itself under its own key.
-/

set_option autoImplicit false

namespace Funnel

namespace Attribution

def label : Attribution → String
  | .assigned => "Assigned"
  | .booked => "Booked"
  | .dialer => "Dialer"

def description : Attribution → String
  | .assigned => "Attributed to the assigned sales rep (sales_rep_user_id)"
  | .booked => "Attributed to the person who booked it (setter_user_id)"
  | .dialer => "Attributed to the person who made the dial (setter_user_id)"

def ownerColumn : Attribution → String
  | .assigned => "sales_rep_user_id"
  | .booked | .dialer => "setter_user_id"

/-- What the key of a variant ends in. -/
def suffix : Attribution → String
  | .assigned => "_assigned"
  | .booked => "_booked"
  | .dialer => "_dialer"

/-- Contexts that make sense for a table. -/
def applicable (table : String) : List Attribution :=
  if table = "appointments" ∨ table = "discoveries" then [.assigned, .booked]
  else if table = "dials" then [.dialer]
  else []

/-- The context that a key ends in. -/
def ofKey? (key : String) : Option Attribution :=
  all.find? fun a => a.suffix.toList.isSuffixOf key.toList

def baseKey (key : String) : String :=
  match ofKey? key with
  | some a => String.ofList (key.toList.take (key.length - a.suffix.length))
  | none => key

end Attribution

/-- Conditions that only rows with an owner meet. -/
def ownerConditions (attribution : Option Attribution) (qualifier : Option String) : List String :=
  match attribution with
  | none => []
  | some a => [qualify a.ownerColumn qualifier ++ " IS NOT NULL"]

namespace Metric

/-- The options of a family: those of the base metric and the contexts it comes in. -/
def familyOptions (m : Metric) : Fields :=
  match Attribution.applicable m.table with
  | [] => m.options
  | contexts => Named.put m.options "attribution" (.list (contexts.map fun a => .text a.text))

/-- The variant of a base metric for one context. -/
def variant (m : Metric) (baseKey : String) (a : Attribution) : Metric :=
  { m with
    key := baseKey ++ a.suffix
    name := m.name ++ " (" ++ a.label ++ ")"
    description := m.description ++ " - " ++ a.description
    attribution := some a
    options := m.familyOptions }

/-- The base metric as the member of its family without a context. -/
def unattributed (m : Metric) (baseKey : String) : Metric :=
  { m with key := baseKey, attribution := none, options := m.familyOptions }

def family (m : Metric) (baseKey : String) : Named Metric :=
  ((Attribution.applicable m.table).map fun a => (baseKey ++ a.suffix, m.variant baseKey a)) ++
    [(baseKey, m.unattributed baseKey)]

def families (base : Named Metric) : Named Metric :=
  base.foldl (fun all (key, m) => Named.putAll all (m.family key)) []

end Metric

end Funnel
