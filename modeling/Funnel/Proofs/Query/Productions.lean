import Funnel.Query.Parser

/-!
# Productions of queries

A grammar of the queries that are asked of the store: a SELECT of columns from the tables of the
schema, with joins, conditions, groups and an order, unions of such queries, and named queries in
front of them. It is a part of the grammar of PostgreSQL, with the words of the schema for names.
What stands for a value that is not known yet is left open.
-/

set_option autoImplicit false

namespace Funnel.Sql

/-- What a piece of a query is. A query is made clause by clause, from its columns to its order. -/
inductive Part where
  | unknown | name | label | value | duration | ends | steps | operand | members | group
  | condition | conjunction | column | columns | keys | order | orders | source | joining | join
  | selected | sourced | joined | filtered | grouped | held | union | rows | subquery
  | cte | ctes | front | statement
deriving DecidableEq

/-- How a part is made: it is a text, another part between two texts, or two parts with a text
between them. -/
inductive Shape where
  | fixed (p : Part) (text : String)
  | around (p : Part) (before : String) (q : Part) (after : String)
  | between (p q : Part) (text : String) (r : Part)

/-- A part that is another one as it stands. -/
def Shape.same (p q : Part) : Shape := .around p "" q ""

def names : List String :=
  ["account_access", "accounts", "agg", "appointments", "buckets", "contacts", "dials",
    "discoveries", "meta_ad_performance", "profiles", "records", "seed", "work_timeframes",
    "a", "aa", "b", "c", "d", "p",
    "account_id", "answered", "booked", "booked_appointment_id", "bucket", "business_hours",
    "business_timezone", "call_outcome", "cash_collected", "contact_id", "data_filled",
    "date_booked", "date_booked_for", "date_called", "date_start", "duration", "full_name",
    "ghl_created_at", "id", "lead_quality", "local_date", "local_month", "local_week",
    "meaningful_conversation", "phone", "pif", "role", "sales_rep_user_id", "setter_user_id",
    "show_outcome", "spend", "total_sales_value", "user_id", "value", "None"]

def labels : List String :=
  ["account_role", "cash", "date", "days", "first_dial_at", "lead_created_at", "name", "rep_id",
    "setter_id"]

def constants : List String := ["0", "1", "86400.0", "'show'", "'won'", "COUNT(*)", "now()"]

def durations : List String :=
  ["interval '1 day'", "interval '1 week'", "interval '1 month'", "interval '24 hours'"]

/-- Calls of one argument, as what stands before it and after it. -/
def calls : List (String × String) :=
  [("COUNT(DISTINCT ", ")"), ("SUM(", ")"), ("AVG(", ")"), ("MIN(", ")"), ("LOWER(", ")"),
    ("COALESCE(", ", 0)"), ("COALESCE(", ", 'UTC')"), ("NULLIF(", ", 0)"),
    ("EXTRACT(EPOCH FROM ", ")"), ("date_trunc('day', ", ")"), ("date_trunc('week', ", ")"),
    ("date_trunc('month', ", ")"), ("to_char(", ", 'YYYY-MM-DD')")]

def comparisons : List String := [" = ", " >= ", " <= ", " > ", " < "]

def tests : List String := [" IS NOT NULL", " IS TRUE", " IS NOT TRUE"]

/-- Lists, with what they are lists of and what parts their items. -/
def lists : List (Part × Part × String) :=
  [(.members, .unknown, ", "), (.conjunction, .condition, " AND "), (.columns, .column, ", "),
    (.keys, .operand, ", "), (.orders, .order, ", "), (.union, .held, " UNION ALL "),
    (.ctes, .cte, ", ")]

/-- What clauses make of a query that may do without them, each with its keyword and what follows. -/
def clauses : List (Part × Part × String × Part) :=
  [(.filtered, .joined, " WHERE ", .conjunction), (.grouped, .filtered, " GROUP BY ", .keys),
    (.held, .grouped, " HAVING ", .conjunction), (.rows, .union, " ORDER BY ", .orders)]

inductive Production : Shape → Prop
  | name {n : String} (h : n ∈ names) : Production (.fixed .name n)
  | label {n : String} (h : n ∈ labels) : Production (.fixed .label n)
  | nameLabel : Production (.same .label .name)
  | constant {s : String} (h : s ∈ constants) : Production (.fixed .value s)
  | duration {s : String} (h : s ∈ durations) : Production (.fixed .duration s)
  | unknown : Production (.same .value .unknown)
  | column : Production (.same .value .name)
  | member : Production (.between .value .name "." .name)
  | found : Production (.same .value .subquery)
  | enclosed : Production (.around .value "(" .operand ")")
  | date : Production (.around .value "" .value "::date")
  | numeric : Production (.around .value "" .value "::numeric")
  | call {before after : String} (h : (before, after) ∈ calls) :
    Production (.around .value before .operand after)
  | countFilter : Production (.around .value "COUNT(*) FILTER (WHERE " .conjunction ")")
  | ends : Production (.between .ends .value ", " .value)
  | steps : Production (.between .steps .ends ", " .duration)
  | series : Production (.around .value "generate_series(" .steps ")")
  | value : Production (.same .operand .value)
  | quotient : Production (.between .operand .value " / " .value)
  | difference : Production (.between .operand .value " - " .value)
  | earlier : Production (.between .operand .value " - " .duration)
  | zoned : Production (.between .operand .value " AT TIME ZONE " .value)
  | comparison {s : String} (h : s ∈ comparisons) :
    Production (.between .condition .operand s .operand)
  | test {s : String} (h : s ∈ tests) : Production (.around .condition "" .operand s)
  | among : Production (.between .condition .value " IN " .group)
  | members : Production (.around .group "(" .members ")")
  | foundMembers : Production (.same .group .subquery)
  | first {p q : Part} {separator : String} (h : (p, q, separator) ∈ lists) :
    Production (.same p q)
  | more {p q : Part} {separator : String} (h : (p, q, separator) ∈ lists) :
    Production (.between p q separator p)
  | shown : Production (.same .column .operand)
  | aliased : Production (.between .column .operand " AS " .label)
  | order : Production (.same .order .value)
  | descending : Production (.around .order "" .value " DESC")
  | table : Production (.same .source .name)
  | renamed : Production (.between .source .name " " .name)
  | derived : Production (.between .source .subquery " AS " .name)
  | joining : Production (.between .joining .source " ON " .conjunction)
  | join {s : String} (h : s ∈ ["JOIN ", "LEFT JOIN ", "INNER JOIN "]) :
    Production (.around .join s .joining "")
  | select : Production (.around .selected "SELECT " .columns "")
  | source : Production (.between .sourced .selected " FROM " .source)
  | sourceOnly : Production (.around .sourced "SELECT  FROM " .source "")
  | unjoined : Production (.same .joined .sourced)
  | joined : Production (.between .joined .joined " " .join)
  | without {p q r : Part} {keyword : String} (h : (p, q, keyword, r) ∈ clauses) :
    Production (.same p q)
  | clause {p q r : Part} {keyword : String} (h : (p, q, keyword, r) ∈ clauses) :
    Production (.between p q keyword r)
  | sourceless : Production (.same .rows .selected)
  | subquery : Production (.around .subquery "(" .rows ")")
  | cte : Production (.between .cte .name " AS " .subquery)
  | front : Production (.around .front "WITH " .ctes "")
  | rows : Production (.same .statement .rows)
  | statement : Production (.between .statement .front " " .rows)

/-- Texts that the productions make, with some texts in the place of values that are not known. -/
inductive Derives (holes : String → Prop) : Part → String → Prop
  | hole {s : String} (h : holes s) : Derives holes .unknown s
  | fixed {p : Part} {s : String} (h : Production (.fixed p s)) : Derives holes p s
  | around {p q : Part} {before after s : String} (h : Production (.around p before q after))
    (hs : Derives holes q s) : Derives holes p (before ++ s ++ after)
  | between {p q r : Part} {text s t : String} (h : Production (.between p q text r))
    (hs : Derives holes q s) (ht : Derives holes r t) : Derives holes p (s ++ text ++ t)

/-- A parser takes whatever the productions make for a query, with NULL for what is not known. -/
def Parser.ReadsQueries (parse : Parser) : Prop :=
  ∀ s, Derives (· = "NULL") .statement s → ∃ t, parse s = .ok t ∧ t.isQuery = true

variable {holes : String → Prop} {p q : Part} {s : String}

theorem Derives.same (h : Production (.same p q)) (hs : Derives holes q s) :
    Derives holes p s := by
  simpa using Derives.around h hs

theorem Derives.led {before : String} (h : Production (.around p before q ""))
    (hs : Derives holes q s) : Derives holes p (before ++ s) := by
  simpa using Derives.around h hs

theorem Derives.followed {after : String} (h : Production (.around p "" q after))
    (hs : Derives holes q s) : Derives holes p (s ++ after) := by
  simpa using Derives.around h hs

theorem Derives.intercalate {separator : String} {ss : List String}
    (h : (p, q, separator) ∈ lists) (hs : ∀ t ∈ s :: ss, Derives holes q t) :
    Derives holes p (separator.intercalate (s :: ss)) := by
  induction ss generalizing s with
  | nil =>
    rw [String.intercalate_singleton]
    exact .same (.first h) (hs s List.mem_cons_self)
  | cons t ss ih =>
    rw [String.intercalate_cons_cons]
    refine .between (.more h) (hs s List.mem_cons_self) (ih ?_)
    intro u hu
    exact hs u (List.mem_cons_of_mem s hu)

end Funnel.Sql
