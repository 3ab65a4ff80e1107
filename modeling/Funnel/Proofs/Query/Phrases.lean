import Funnel.Proofs.Query.Derived

/-!
# Phrases of queries

A query is derived from its fragments: columns, sources, joins and conditions that are derived give
a query clause by clause, and queries under names give a statement.
-/

set_option autoImplicit false

namespace Funnel.Sql

/-- Texts of a part of a query, with placeholders for what is not known. -/
abbrev Readable (p : Part) (s : String) : Prop := Derives IsPlaceholder p s

variable {s r n : String}

theorem readable_name (h : n ∈ names) : Readable .name n := .fixed (.name h)

theorem readable_column (h : n ∈ names) : Readable .value n := .same .column (readable_name h)

theorem readable_member {t : String} (ht : t ∈ names) (hn : n ∈ names) :
    Readable .value (t ++ "." ++ n) :=
  .between .member (readable_name ht) (readable_name hn)

theorem readable_label (h : n ∈ names ∨ n ∈ labels) : Readable .label n := by
  rcases h with h | h
  · exact .same .nameLabel (readable_name h)
  · exact .fixed (.label h)

theorem readable_output (h : Readable .value s) : Readable .column s :=
  .same .shown (.same .value h)

theorem readable_aliased (h : Readable .operand s) (hn : n ∈ names ∨ n ∈ labels) :
    Readable .column (s ++ " AS " ++ n) :=
  .between .aliased h (readable_label hn)

theorem readable_valued (h : Readable .value s) : Readable .column (s ++ " AS value") := by
  have hvalue := readable_aliased (n := "value") (.same .value h) (.inl (by decide))
  rwa [String.append_assoc] at hvalue

theorem readable_descending (h : Readable .value s) : Readable .order (s ++ " DESC") :=
  .followed .descending h

theorem readable_call {before after : String} (hcall : (before, after) ∈ calls)
    (h : Readable .value s) : Readable .value (before ++ s ++ after) :=
  .around (.call hcall) (.same .value h)

theorem readable_countRows : Readable .value "COUNT(*)" := .fixed (.constant (by decide))

theorem readable_unknown (h : IsPlaceholder s) : Readable .value s := .same .unknown (.hole h)

theorem readable_compared {symbol : String} (hs : Readable .value s) (hr : Readable .value r)
    (h : symbol ∈ comparisons) : Readable .condition (s ++ symbol ++ r) :=
  .between (.comparison h) (.same .value hs) (.same .value hr)

theorem readable_equals (hs : Readable .value s) (hr : Readable .value r) :
    Readable .condition (s ++ " = " ++ r) :=
  readable_compared hs hr (by decide)

theorem readable_tested {test : String} (hs : Readable .value s) (h : test ∈ tests) :
    Readable .condition (s ++ test) :=
  .followed (.test h) (.same .value hs)

theorem readable_isNotNull (h : Readable .value s) : Readable .condition (s ++ " IS NOT NULL") :=
  readable_tested h (by decide)

theorem readable_isTrue (h : Readable .value s) : Readable .condition (s ++ " IS TRUE") :=
  readable_tested h (by decide)

theorem readable_conjunction {ss : List String} (h : ∀ t ∈ s :: ss, Readable .condition t) :
    Readable .conjunction (" AND ".intercalate (s :: ss)) :=
  .intercalate (by decide) h

theorem Derives.conjunction (h : Readable .condition s) : Readable .conjunction s := by
  have hone : (.conjunction, .condition, " AND ") ∈ lists := by decide
  exact .same (.first hone) h

theorem readable_among {ss : List String} (h : Readable .value s)
    (hss : ∀ t ∈ r :: ss, IsPlaceholder t) :
    Readable .condition (s ++ " IN (" ++ ", ".intercalate (r :: ss) ++ ")") := by
  have hmembers : Readable .members (", ".intercalate (r :: ss)) :=
    .intercalate (by decide) fun t ht => .hole (hss t ht)
  have hin : Readable .condition (s ++ " IN " ++ ("(" ++ ", ".intercalate (r :: ss) ++ ")")) :=
    .between .among h (.around .members hmembers)
  have htext : " IN (" = " IN " ++ "(" := by decide
  rw [htext]
  simpa only [String.append_assoc] using hin

theorem readable_within (h : Readable .value s) (hr : Readable .rows r) :
    Readable .condition (s ++ " IN (" ++ r ++ ")") := by
  have hin : Readable .condition (s ++ " IN " ++ ("(" ++ r ++ ")")) :=
    .between .among h (.same .foundMembers (.around .subquery hr))
  have htext : " IN (" = " IN " ++ "(" := by decide
  rw [htext]
  simpa only [String.append_assoc] using hin

theorem readable_source (h : n ∈ names) : Readable .source n := .same .table (readable_name h)

theorem readable_renamed (h : s ∈ names) (hn : n ∈ names) : Readable .source (s ++ " " ++ n) :=
  .between .renamed (readable_name h) (readable_name hn)

theorem readable_join {j : Join} (hkind : j.kind ∈ [none, some "LEFT", some "INNER"])
    (hsource : Readable .source j.table) (hon : Readable .conjunction j.on) :
    Readable .join j.render := by
  obtain ⟨table, on, kind⟩ := j
  have hjoining : Readable .joining (table ++ " ON " ++ on) := .between .joining hsource hon
  simp only [List.mem_cons, List.not_mem_nil, or_false] at hkind
  rcases hkind with rfl | rfl | rfl
  · have hjoin : Readable .join ("JOIN " ++ (table ++ " ON " ++ on)) :=
      .led (.join (by decide)) hjoining
    simpa only [Join.render, String.append_assoc] using hjoin
  · have hjoin : Readable .join ("LEFT JOIN " ++ (table ++ " ON " ++ on)) :=
      .led (.join (by decide)) hjoining
    have htext : "LEFT JOIN " = "LEFT" ++ " JOIN " := by decide
    rw [htext] at hjoin
    simpa only [Join.render, String.append_assoc] using hjoin
  · have hjoin : Readable .join ("INNER JOIN " ++ (table ++ " ON " ++ on)) :=
      .led (.join (by decide)) hjoining
    have htext : "INNER JOIN " = "INNER" ++ " JOIN " := by decide
    rw [htext] at hjoin
    simpa only [Join.render, String.append_assoc] using hjoin

def extended (s : String) (ss : List String) : String := ss.foldl (fun s t => s ++ " " ++ t) s

theorem intercalate_blank (s : String) (ss : List String) :
    " ".intercalate (s :: ss) = extended s ss := by
  induction ss generalizing s with
  | nil => exact String.intercalate_singleton
  | cons t ss ih =>
    rw [extended, List.foldl_cons, ← extended, ← ih, String.intercalate_cons_cons]
    cases ss with
    | nil => simp only [String.intercalate_singleton]
    | cons u ss => simp only [String.intercalate_cons_cons, String.append_assoc]

theorem extended_append (s : String) (ss ts : List String) :
    extended s (ss ++ ts) = extended (extended s ss) ts := List.foldl_append

/-- The head of a query with its joins and clauses after it. -/
theorem render_eq_extended (columns : List String) (source : String) (joins : List Join)
    (conditions : List Condition) (groups having order : List String) :
    (Select.mk columns source joins conditions groups having order []).render =
      extended ("SELECT " ++ ", ".intercalate columns ++ " " ++ ("FROM " ++ source))
        (joins.map Join.render ++ clause "WHERE" " AND " (renderConditions conditions) ++
          clause "GROUP BY" ", " groups ++ clause "HAVING" " AND " having ++
          clause "ORDER BY" ", " order) := by
  have hnone : clause "WITH" ", " [] = [] := rfl
  simp only [Select.render, renderCtes, hnone, List.nil_append, List.cons_append,
    intercalate_blank]
  rfl

theorem readable_clause {p q list item : Part} {keyword separator : String} {items : List String}
    (hclause : (p, q, " " ++ keyword ++ " ", list) ∈ clauses)
    (hlist : (list, item, separator) ∈ lists) (h : Readable q s)
    (hitems : ∀ t ∈ items, Readable item t) :
    Readable p (extended s (clause keyword separator items)) := by
  cases items with
  | nil => exact .same (.without hclause) h
  | cons t ts =>
    have hmore : Readable p (s ++ (" " ++ keyword ++ " ") ++ separator.intercalate (t :: ts)) :=
      .between (.clause hclause) h (.intercalate hlist hitems)
    simpa only [clause, extended, List.foldl_cons, List.foldl_nil, String.append_assoc] using hmore

/-- Fragments of which each is what it is meant to be in a query. -/
structure Phrased (columns : List String) (source : String) (joins : List Join)
    (conditions : List Condition) (groups having order : List String) : Prop where
  columns : ∀ s ∈ columns, Readable .column s
  source : Readable .source source
  joins : ∀ j ∈ joins, Readable .join j.render
  conditions : ∀ c ∈ conditions, Readable .condition c.render
  groups : ∀ s ∈ groups, Readable .value s
  having : ∀ s ∈ having, Readable .condition s
  order : ∀ s ∈ order, Readable .order s

variable {columns : List String} {source : String} {joins : List Join}
  {conditions : List Condition} {groups having order : List String}

theorem readable_sourced (hcolumns : ∀ s ∈ columns, Readable .column s)
    (hsource : Readable .source source) :
    Readable .sourced ("SELECT " ++ ", ".intercalate columns ++ " " ++ ("FROM " ++ source)) := by
  cases columns with
  | nil =>
    have hnone : Readable .sourced ("SELECT  FROM " ++ source) := .led .sourceOnly hsource
    have htext : "SELECT  FROM " = "SELECT " ++ ", ".intercalate [] ++ " " ++ "FROM " := by decide
    rw [htext] at hnone
    simpa only [String.append_assoc] using hnone
  | cons s ss =>
    have hselected : Readable .selected ("SELECT " ++ ", ".intercalate (s :: ss)) :=
      .led .select (.intercalate (by decide) hcolumns)
    have hsome :
        Readable .sourced ("SELECT " ++ ", ".intercalate (s :: ss) ++ " FROM " ++ source) :=
      .between .source hselected hsource
    have htext : " FROM " = " " ++ "FROM " := by decide
    rw [htext] at hsome
    simpa only [String.append_assoc] using hsome

theorem readable_joined (h : Readable .joined s) (hjoins : ∀ j ∈ joins, Readable .join j.render) :
    Readable .joined (extended s (joins.map Join.render)) := by
  induction joins generalizing s with
  | nil => exact h
  | cons j joins ih =>
    refine ih (.between .joined h (hjoins j List.mem_cons_self)) ?_
    intro k hk
    exact hjoins k (List.mem_cons_of_mem j hk)

/-- A query before it is put in order, clause by clause. -/
theorem readable_held (h : Phrased columns source joins conditions groups having order) :
    Readable .held (Select.mk columns source joins conditions groups having [] []).render := by
  have hconditions : ∀ s ∈ renderConditions conditions, Readable .condition s := by
    rw [renderConditions_eq_map]
    simpa using h.conditions
  have hgroups : ∀ s ∈ groups, Readable .operand s := fun s hs => .same .value (h.groups s hs)
  have hjoined := readable_joined (.same .unjoined (readable_sourced h.columns h.source)) h.joins
  have hclauses : (.filtered, .joined, " " ++ "WHERE" ++ " ", .conjunction) ∈ clauses ∧
      (.grouped, .filtered, " " ++ "GROUP BY" ++ " ", .keys) ∈ clauses ∧
      (.held, .grouped, " " ++ "HAVING" ++ " ", .conjunction) ∈ clauses := by decide
  have hlists : (.conjunction, .condition, " AND ") ∈ lists ∧ (.keys, .operand, ", ") ∈ lists := by
    decide
  have hfiltered := readable_clause hclauses.1 hlists.1 hjoined hconditions
  have hgrouped := readable_clause hclauses.2.1 hlists.2 hfiltered hgroups
  have hheld := readable_clause hclauses.2.2 hlists.1 hgrouped h.having
  have hnone : clause "ORDER BY" ", " [] = [] := rfl
  rw [render_eq_extended, hnone, List.append_nil, extended_append, extended_append, extended_append]
  exact hheld

theorem readable_rows (h : Phrased columns source joins conditions groups having order) :
    Readable .rows (Select.mk columns source joins conditions groups having order []).render := by
  have hone : (.union, .held, " UNION ALL ") ∈ lists := by decide
  have horder : (.rows, .union, " " ++ "ORDER BY" ++ " ", .orders) ∈ clauses := by decide
  have hlist : (.orders, .order, ", ") ∈ lists := by decide
  have hrows := readable_clause horder hlist (.same (.first hone) (readable_held h)) h.order
  have hnone : clause "ORDER BY" ", " [] = [] := rfl
  rw [render_eq_extended, hnone, List.append_nil] at hrows
  rw [render_eq_extended, extended_append]
  exact hrows

theorem readable_union {ss : List String} (h : ∀ t ∈ s :: ss, Readable .held t) :
    Readable .rows (" UNION ALL ".intercalate (s :: ss)) := by
  have hrows : (.rows, .union, " ORDER BY ", .orders) ∈ clauses := by decide
  exact .same (.without hrows) (.intercalate (by decide) h)

theorem readable_cte (hn : n ∈ names) (h : Readable .rows s) :
    Readable .cte (n ++ " AS (" ++ s ++ ")") := by
  have hcte : Readable .cte (n ++ " AS " ++ ("(" ++ s ++ ")")) :=
    .between .cte (readable_name hn) (.around .subquery h)
  have htext : " AS (" = " AS " ++ "(" := by decide
  rw [htext]
  simpa only [String.append_assoc] using hcte

/-- The named queries are written in front of the query that uses them. -/
theorem readable_statement {c : Cte} {cs : List Cte}
    (h : Phrased columns source joins conditions groups having order)
    (hctes : ∀ d ∈ c :: cs, Readable .cte d.render) :
    Readable .statement
      (Select.mk columns source joins conditions groups having order (c :: cs)).render := by
  have htext : (Select.mk columns source joins conditions groups having order (c :: cs)).render =
      "WITH " ++ ", ".intercalate (c.render :: cs.map Cte.render) ++ " " ++
        (Select.mk columns source joins conditions groups having order []).render := by
    simp [Select.render, renderCtes, renderCtes_eq_map, clause, String.intercalate_cons_cons]
  have hall : ∀ t ∈ c.render :: cs.map Cte.render, Readable .cte t := by
    rw [← List.map_cons]
    simpa using hctes
  rw [htext]
  exact .between .statement (.led .front (.intercalate (by decide) hall)) (readable_rows h)

end Funnel.Sql
