import Funnel.Query.Bound

/-!
# Conditions with parameters

A condition compares a field with a placeholder, or with a list of numbered placeholders. The
value goes into the parameters under the placeholder's name and never into the text.
-/

set_option autoImplicit false

namespace Funnel

inductive Operator where
  | compare (symbol : String)
  | oneOf
deriving DecidableEq, Repr

def Operator.ofText (s : String) : Operator := if s = "IN" then .oneOf else .compare s

def Operator.text : Operator → String
  | .compare symbol => symbol
  | .oneOf => "IN"

structure Filtering where
  field : String
  operator : Operator
  value : Value
  param : String
  cast : Option String

def numbered (name : String) (i : Nat) : String := name ++ "_" ++ toString i

/-- The values of a list with the names of their parameters. -/
def numberedValues (name : String) (values : List Value) : Fields :=
  values.zipIdx.map fun (v, i) => (numbered name i, v)

theorem names_numberedValues (name : String) (values : List Value) :
    (numberedValues name values).names = (List.range values.length).map (numbered name) := by
  simp only [numberedValues, Named.names, List.map_map]
  apply List.ext_getElem <;> simp

namespace Filtering

def values (c : Filtering) : Except Fault (List Value) :=
  match c.operator with
  | .compare _ => .ok [c.value]
  | .oneOf => c.value.entries

/-- Whether a list operator has a value with entries. -/
def check (c : Filtering) : Except Fault Unit := c.values.map fun _ => ()

/-- The parameters with their values; none for a list operator without entries. -/
def bindings (c : Filtering) : Fields :=
  match c.operator with
  | .compare _ => [(c.param, c.value)]
  | .oneOf => numberedValues c.param (c.values.toOption.getD [])

def reference (c : Filtering) (name : String) : String :=
  match c.cast with
  | none | some "" => "$" ++ name
  | some t => "$" ++ name ++ "::" ++ t

def render (c : Filtering) : String :=
  match c.operator with
  | .compare symbol => c.field ++ " " ++ symbol ++ " " ++ c.reference c.param
  | .oneOf => c.field ++ " IN (" ++ ", ".intercalate (c.bindings.names.map c.reference) ++ ")"

end Filtering

/-- Conditions in the order added, and the parameters they bind. -/
structure Applied where
  conditions : List Filtering
  params : Fields

namespace Applied

def empty : Applied := ⟨[], []⟩

def add (a : Applied) (c : Filtering) : Applied :=
  ⟨a.conditions ++ [c], Named.putAll a.params c.bindings⟩

def addAll (a : Applied) (cs : List Filtering) : Applied := cs.foldl add a

def sql (a : Applied) : List String := a.conditions.map Filtering.render

/-- Whether every condition has a value it can bind. -/
def check (a : Applied) : Except Fault Unit := a.conditions.forM Filtering.check

def whereClause (a : Applied) (additional : List String) : String :=
  match a.sql ++ additional.filter fun s => s != "" with
  | [] => ""
  | cs => "WHERE " ++ " AND ".intercalate cs

theorem sql_add (a : Applied) (c : Filtering) : (a.add c).sql = a.sql ++ [c.render] := by
  simp [sql, add]

end Applied

end Funnel
