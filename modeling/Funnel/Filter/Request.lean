/-!
# Filters of a request

The range of days, the account and the reps and setters that a request is narrowed to, as they
come in; `Filter.Check` says which of them can be used.
-/

set_option autoImplicit false

namespace Funnel

/-- Inclusive days, as text. -/
structure DateRange where
  start : Option String
  finish : Option String
deriving DecidableEq, Repr

structure Filters where
  dateRange : Option DateRange
  accountId : Option String
  repIds : List String
  setterIds : List String
deriving DecidableEq, Repr

/-- A text that is there and not empty. -/
def given (s : Option String) : Bool := s.isSome && s != some ""

end Funnel
