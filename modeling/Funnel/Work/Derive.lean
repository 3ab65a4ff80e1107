import Funnel.Filter.Standard
import Funnel.Store.Session
import Funnel.Work.Day

/-!
# Deriving work days

The dials of the requested callers, or of every caller of the account where none are requested,
become work days on the account's calendar, which is that of its zone.
-/

set_option autoImplicit false

namespace Funnel.Work

def callerRoles : List String := ["setter"]

/-- The people of the account with a caller's role. -/
def callersCall (f : Filters) : Call :=
  let roles := numberedValues "role" (callerRoles.map .text)
  let references := ", ".intercalate (roles.names.map ("$" ++ ·))
  { query := .simple ["user_id"] "account_access"
      (sqlConditions ["account_id = $account_id", "role IN (" ++ references ++ ")"])
    params := Named.putAll [("account_id", Standard.accountValue f)] roles }

def zoneCall (f : Filters) : Call where
  query := .simple ["business_timezone"] "accounts" [.sql "id = $account_id"]
  params := [("account_id", Standard.accountValue f)]

def dialsCall (f : Filters) (callers : List String) : Except Fault Call := do
  let applied ← Standard.apply { f with repIds := [], setterIds := callers } .dials none true
  .ok {
    query := .mk ["setter_user_id", "date_called", "booked"] "dials" []
      (sqlConditions (applied.sql ++ ["date_called IS NOT NULL"])) [] [] ["date_called"] []
    params := applied.params }

def callersOfRows (rows : Value) : Except Fault (List String) := do
  let ids ← (← rows.entries).mapM fun row => do
    let id ← row.get "user_id"
    .ok (if id.isGiven then some id.toText else none)
  .ok ((ids.filterMap id).eraseDups.mergeSort fun a b => decide (a ≤ b))

def findCallers (store : Store) (f : Filters) : Session (List String) := do
  match Identifier.kept f.setterIds with
  | [] => do
    let rows ← Session.ask store (callersCall f)
    .ofExcept (callersOfRows rows)
  | requested => pure requested

/-- The name of the zone that rows hold; UTC without one. -/
def zoneOfRows (rows : Value) : Except Fault Value := do
  let zone ← if rows.isGiven then (← rows.first).get "business_timezone" else .ok .null
  .ok (zone.orElse (.text "UTC"))

def derive (known : Calendar.Zones) (store : Store) (f : Filters) : Session (List WorkDay) := do
  match ← findCallers store f with
  | [] => pure []
  | callers => do
    let zoneRows ← Session.ask store (zoneCall f)
    let zone ← Session.ofExcept (zoneOfRows zoneRows)
    let call ← Session.ofExcept (dialsCall f callers)
    let rows ← Session.ask store call
    .ofExcept do
      let z ← Hours.zoneIn known zone
      group (← rows.entries) z

end Funnel.Work
