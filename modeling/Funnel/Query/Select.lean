/-!
# Queries

A query is kept as a structured value and written out as SQL once. Its fragments are texts; a
condition can also hold a whole query that a field's values are looked up in.
-/

set_option autoImplicit false

namespace Funnel

structure Join where
  table : String
  on : String
  kind : Option String
deriving DecidableEq

mutual

/-- One SELECT. -/
inductive Select where
  | mk (columns : List String) (source : String) (joins : List Join) (conditions : List Condition)
    (groups having order : List String) (ctes : List Cte)

/-- A condition of a WHERE clause: a text, or a field whose value is among those of a query. -/
inductive Condition where
  | sql (text : String)
  | within (field : String) (query : Select)

/-- A named query in front of a SELECT. -/
inductive Cte where
  | mk (name : String) (body : CteBody)

/-- What a name stands for: one query, or several whose rows are taken together. -/
inductive CteBody where
  | one (query : Select)
  | unionAll (queries : List Select)

end

namespace Select

def simple (columns : List String) (source : String) (conditions : List Condition) : Select :=
  .mk columns source [] conditions [] [] [] []

instance : Inhabited Select := ⟨simple [] "" []⟩

def columns : Select → List String
  | .mk columns .. => columns

def source : Select → String
  | .mk _ source .. => source

def joins : Select → List Join
  | .mk _ _ joins .. => joins

def conditions : Select → List Condition
  | .mk _ _ _ conditions .. => conditions

def groups : Select → List String
  | .mk _ _ _ _ groups .. => groups

def having : Select → List String
  | .mk _ _ _ _ _ having .. => having

def order : Select → List String
  | .mk _ _ _ _ _ _ order _ => order

def ctes : Select → List Cte
  | .mk _ _ _ _ _ _ _ ctes => ctes

end Select

def Join.render (j : Join) : String :=
  match j.kind with
  | some kind => kind ++ " JOIN " ++ j.table ++ " ON " ++ j.on
  | none => "JOIN " ++ j.table ++ " ON " ++ j.on

def clause (keyword separator : String) : List String → List String
  | [] => []
  | items => [keyword ++ " " ++ separator.intercalate items]

mutual

def Select.render : Select → String
  | .mk columns source joins conditions groups having order ctes =>
    " ".intercalate <|
      clause "WITH" ", " (renderCtes ctes) ++
      ["SELECT " ++ ", ".intercalate columns, "FROM " ++ source] ++
      joins.map Join.render ++
      clause "WHERE" " AND " (renderConditions conditions) ++
      clause "GROUP BY" ", " groups ++
      clause "HAVING" " AND " having ++
      clause "ORDER BY" ", " order

def Condition.render : Condition → String
  | .sql text => text
  | .within field query => field ++ " IN (" ++ query.render ++ ")"

def Cte.render : Cte → String
  | .mk name body => name ++ " AS (" ++ body.render ++ ")"

def CteBody.render : CteBody → String
  | .one query => query.render
  | .unionAll queries => " UNION ALL ".intercalate (renderSelects queries)

def renderSelects : List Select → List String
  | [] => []
  | q :: qs => q.render :: renderSelects qs

def renderConditions : List Condition → List String
  | [] => []
  | c :: cs => c.render :: renderConditions cs

def renderCtes : List Cte → List String
  | [] => []
  | c :: cs => c.render :: renderCtes cs

end

theorem renderConditions_eq_map (cs : List Condition) :
    renderConditions cs = cs.map Condition.render := by
  induction cs with
  | nil => rfl
  | cons c cs ih => simp [renderConditions, ih]

theorem renderCtes_eq_map (cs : List Cte) : renderCtes cs = cs.map Cte.render := by
  induction cs with
  | nil => rfl
  | cons c cs ih => simp [renderCtes, ih]

def sqlConditions (texts : List String) : List Condition := texts.map .sql

end Funnel
