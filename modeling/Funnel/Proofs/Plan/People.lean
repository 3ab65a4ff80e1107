import Funnel.DataView.Users
import Funnel.Proofs.Plan.Draft
import Funnel.Proofs.Store.Asks

/-!
# Queries of the people of an account

The callers of an account are found by their roles and the profiles of people by a list of numbered
identifiers. Of the identifiers only their number is in the text. Deriving work days asks for the
callers, the account's zone and dials, and loading profiles asks for those of some people.
-/

set_option autoImplicit false

namespace Funnel

open Standard

theorem membership_numberedValues (column name : String) (values : List Value) :
    column ++ " IN (" ++ ", ".intercalate ((numberedValues name values).names.map ("$" ++ ·)) ++
      ")" = membership column name values.length := by
  rw [names_numberedValues, List.map_map, membership]
  rfl

theorem notMem_names_numberedValues {name other : String} (hlen : 3 ≤ name.toList.length)
    (h : other.toList.take 3 ≠ name.toList.take 3) (values : List Value) :
    other ∉ (numberedValues name values).names := by
  rw [names_numberedValues]
  intro hmem
  obtain ⟨i, -, rfl⟩ := List.mem_map.mp hmem
  exact h (take_numbered hlen i)

theorem nodup_names_numberedValues (name : String) (values : List Value) :
    (numberedValues name values).names.Nodup := by
  rw [names_numberedValues, List.Nodup, List.pairwise_map]
  exact List.nodup_range.imp fun hij h => hij (Placeholder.numbered_injective h)

theorem putAll_account {name : String} (hlen : 3 ≤ name.toList.length)
    (h : "account_id".toList.take 3 ≠ name.toList.take 3) (account : Value)
    (values : List Value) : Named.putAll [("account_id", account)] (numberedValues name values) =
      ("account_id", account) :: numberedValues name values := by
  refine Named.putAll_eq_append (List.nodup_cons.mpr ⟨?_, nodup_names_numberedValues name values⟩)
  exact notMem_names_numberedValues hlen h values

namespace Work

theorem query_callersCall (f : Filters) : (callersCall f).query =
    .simple ["user_id"] "account_access" (sqlConditions [equality "account_id" "account_id",
      membership "role" "role" callerRoles.length]) := by
  rw [← @List.length_map _ _ callerRoles Value.text, ← membership_numberedValues]
  rfl

theorem account_callersCall (f : Filters) :
    (callersCall f).params.find? "account_id" = some (accountValue f) := by
  rw [callersCall, putAll_account (by decide) (by decide)]
  rfl

section Derive

variable {P : Call → Prop} {f : Filters} (hcallers : P (callersCall f)) (s : Store)

include hcallers

theorem asks_findCallers : (findCallers s f).Asks P := by
  unfold findCallers
  split
  · exact Session.asks_bind (Session.asks_ask s hcallers) fun _ => Session.asks_ofExcept _
  · exact Session.asks_pure _

theorem asks_derive (hzone : P (zoneCall f))
    (hdials : ∀ callers c, dialsCall f callers = .ok c → P c) (known : Calendar.Zones) :
    (derive known s f).Asks P := by
  unfold derive
  refine Session.asks_bind (asks_findCallers hcallers s) fun callers => ?_
  split
  · exact Session.asks_pure _
  · refine Session.asks_bind (Session.asks_ask s hzone) fun zoneRows => ?_
    refine Session.asks_bind (Session.asks_ofExcept _) fun zone => ?_
    refine Session.asks_ofExcept_bind fun call hcall => ?_
    exact Session.asks_bind (Session.asks_ask s (hdials _ call hcall)) fun _ =>
      Session.asks_ofExcept _

end Derive

end Work

namespace Profile

def query (count : Nat) : Select :=
  .mk ["p.id AS user_id", "p.full_name AS name", "aa.role AS account_role"] "profiles p"
    [⟨"account_access aa", "aa.user_id = p.id", none⟩]
    (sqlConditions [equality "aa.account_id" "account_id", membership "p.id" "user_id" count])
    [] [] [] []

theorem query_call (v : View) (ids : List String) : (call v ids).query = query ids.length := by
  rw [query, ← @List.length_map _ _ ids Value.text, ← membership_numberedValues]
  rfl

theorem params_call (v : View) (ids : List String) : (call v ids).params =
    ("account_id", accountValue v.filters) :: numberedValues "user_id" (ids.map .text) :=
  putAll_account (by decide) (by decide) _ _

theorem asks_load {P : Call → Prop} {v : View} (h : ∀ ids, ids ≠ [] → P (call v ids)) (e : Engine)
    (tokens : List String) : (load e v tokens).Asks P := by
  unfold load
  split
  · exact Session.asks_pure _
  · rename_i hsome
    have hasked := Session.asks_ask e.store (h (Identifier.kept tokens) hsome)
    refine Session.asks_bind (Session.asks_orElse hasked _) fun rows => ?_
    exact Session.asks_bind (Session.asks_ofExcept _) fun _ => Session.asks_pure _

end Profile

end Funnel
