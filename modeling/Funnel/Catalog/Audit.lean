import Funnel.Catalog.Attribution

/-!
# Catalog audit

Every inconsistency of a catalog is listed: a metric under a foreign key, an unknown table, a
context that its table does not have or whose base metric is missing, a breakdown that its table
cannot supply, and a plain metric without exactly one column named `value`.
-/

set_option autoImplicit false

namespace Funnel.Catalog

def attributionProblems (registry : Named Metric) (key : String) (m : Metric) : List String :=
  match m.attribution with
  | none => []
  | some a =>
    (if a ∈ Attribution.applicable m.table then []
      else [key ++ ": attribution '" ++ a.text ++ "' does not apply to " ++ m.table]) ++
    (if Attribution.baseKey key ∈ registry.names then []
      else [key ++ ": base metric missing from registry"])

/-- Problems with a metric whose table is known. -/
def tableProblems (key : String) (m : Metric) (t : Table) : List String :=
  (if t.supports m.breakdown then []
    else
      [key ++ ": " ++ m.table ++ " has no columns for breakdown '" ++ m.breakdown.text ++ "'"]) ++
  if m.isSpecial then []
  else
    (if t.isDerived then [key ++ ": only special metrics may read " ++ m.table] else []) ++
    (if (m.columns.filter fun c => (Metric.valueOf? c).isSome).length = 1 then []
      else [key ++ ": expected exactly one 'AS value' expression"])

def entryProblems (registry : Named Metric) (key : String) (m : Metric) : List String :=
  (if key = m.key then []
    else [key ++ ": registered under a different key (" ++ m.key ++ ")"]) ++
  match Table.find? m.table with
  | none => [key ++ ": unknown table '" ++ m.table ++ "'"]
  | some t => attributionProblems registry key m ++ tableProblems key m t

def problems (registry : Named Metric) : List String :=
  registry.flatMap fun (key, m) => entryProblems registry key m

/-- A catalog is accepted when it has no problems. -/
def audit (registry : Named Metric) : Except Fault Unit :=
  match problems registry with
  | [] => .ok ()
  | ps => .error (.brokenCatalog ps)

theorem audit_eq_ok_iff {registry : Named Metric} :
    audit registry = .ok () ↔ problems registry = [] := by
  unfold audit
  split <;> simp_all

/-- The catalog made of base metrics, expanded into families, and special metrics. No key may
come from both. -/
def build (base special : Named Metric) : Except Fault (Named Metric) := do
  let families := Metric.families base
  let overlap := families.names.filter fun k => k ∈ special.names
  if overlap ≠ [] then
    .error (.brokenCatalog
      ["duplicate metric names: " ++
        ", ".intercalate (overlap.mergeSort fun a b => decide (a ≤ b))])
  else
    let registry := Named.putAll families special
    audit registry
    .ok registry

end Funnel.Catalog
