import Funnel.Catalog.Terms
import Funnel.Query.Placeholder

/-!
# Bound queries

A query with the values of its placeholders, the way it was built and the breakdown it answers.
-/

set_option autoImplicit false

namespace Funnel

/-- How a request is answered. -/
inductive Strategy where
  | generic | timeSeries | special
deriving DecidableEq, Repr

def Strategy.text : Strategy → String
  | .generic => "generic"
  | .timeSeries => "time_series"
  | .special => "special"

/-- What is handed to the store: a query and the values of its placeholders. -/
structure Call where
  query : Select
  params : Fields

def Call.sql (c : Call) : String := c.query.render

structure BoundQuery extends Call where
  strategy : Strategy
  breakdown : Breakdown

def distinct (names : List String) : List String := names.eraseDups

def Call.missing (c : Call) : List String :=
  (distinct (Placeholder.names c.sql)).filter fun n => n ∉ c.params.names

end Funnel
