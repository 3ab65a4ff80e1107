import Funnel.Recognizer.Operand

/-!
# Queries and their tables

How a query, a table and a join can start, and which clauses follow them. Clauses come in any
order, each at most once; after all set operators more tables and clauses may follow where the
query is a statement or stands in parentheses.
-/

set_option autoImplicit false

namespace Funnel.Sql

def afterTableName : List Goal :=
  [.brackets, .symbolThen "*" [], .tableVersion, .tableAlias, .tableHints, .sample,
    .phrase ["WITH", "ORDINALITY"] [.tableAlias]]

def selectHead : List Goal :=
  [.quantifier, .phrase ["AS"] [.maybe ["STRUCT", "VALUE"]], .items .projection false,
    .phrase ["INTO"] [.maybe ["TEMPORARY", "TEMP"], .maybe ["UNLOGGED"], .maybe ["TABLE"],
      .tableName, .aliasColumns]]

def selectBody (t : Tail) : List Goal :=
  selectHead ++ [.phrase ["FROM"] [.table], .joins, .laterals,
    .tail { t with phase := .clauses, seen := [] }]

/-- The goals after a FROM that no SELECT stands before. -/
def fromBody (t : Tail) : List Goal :=
  [.table, .joins, .phrase ["SELECT"] selectHead, .joins, .laterals,
    .tail { t with phase := .clauses, seen := [] }]

def valuesBody (t : Tail) : List Goal :=
  [.items .row true, .tableAlias, .tail { t with phase := .operand, seen := [] }]

def withBody : List Goal :=
  [.maybe ["RECURSIVE"], .cte, .moreCtes, .phrase ["SEARCH"] [], .searchKind, .mainStatement 0]

def queryStart (again : Bool) : Token → Option (List Goal)
  | .word w =>
    if w = "SELECT" then some (selectBody (.start .select .clauses again))
    else if w = "FROM" then some (fromBody (.start .select .clauses again))
    else if w = "VALUES" then some (valuesBody (.start .other .operand again))
    else if w = "WITH" then some withBody
    else none
  | _ => none

def tableNameStart (t : Token) (rest : List Token) : Option (List Goal) :=
  match t with
  | .word w =>
    if nextIs "(" rest ∧ isFunction w then some (callGoals w)
    else if isName w then some [] else none
  | .quotedName n => some (if nextIs "(" rest then callGoals n else [])
  | .text _ => some []
  | .symbol s =>
    if s = "?" then some []
    else if s = ":" then some [.placeholderName]
    else if s = "@" ∨ s = "$" then some [.parameter]
    else if s = "%" then some [.symbolThen "(" [.anyName, symbol ")"], .maybe ["S"]]
    else none
  | _ => none

def afterTableGroup : List Goal := [.tableAlias, .sample]

def tableStart (t : Token) (rest : List Token) : Option (List Goal) :=
  if t = .word "LATERAL" then some [.lateralBody]
  else if t = .word "UNNEST" ∧ nextIs "(" rest then
    some [symbol "(", .items (.expression .equality) true, symbol ")",
      .phrase ["WITH", "ORDINALITY"] [], .tableAlias,
      .phrase ["WITH", "OFFSET"] [.maybe ["AS"], .maybeName]]
  else if t = .word "VALUES" then some [.items .row true, .tableAlias]
  else if t = .symbol "(" ∧ startsWith ["VALUES"] rest then
    some [word "VALUES", .items .row true, .tableAlias, symbol ")", .tableAlias]
  else if t = .symbol "(" then some (.tableGroup :: symbol ")" :: afterTableGroup)
  else if t = .symbol "." then some (.tablePart :: .tableDots :: afterTableName)
  else
    match queryStart false t with
    | some goals => some goals
    | none =>
      if t = .word "ROWS" ∧ startsWith ["FROM"] rest then
        some ([word "FROM", symbol "(", .items .table true, symbol ")"] ++ afterTableName)
      else if t = .word "ONLY" then some (.tableName :: afterTableName)
      else (tableNameStart t rest).map (· ++ .tableDots :: afterTableName)

def joinMethods : List String := ["NATURAL", "ASOF"]

def joinSides : List String := ["LEFT", "RIGHT", "FULL"]

def joinKinds : List String := ["INNER", "OUTER", "CROSS", "SEMI", "ANTI", "STRAIGHT_JOIN"]

/-- The words before a table that is joined, and whether further joins can nest in the join. -/
def joinHead? (ts : List Token) : Option (List Token × Bool) :=
  let take (words : List String) (ts : List Token) : List Token × List Token :=
    match ts with
    | .word w :: r => if words.contains w then ([.word w], r) else ([], ts)
    | _ => ([], ts)
  let (method, ts) := take joinMethods ts
  let (side, ts) := take joinSides ts
  let (kind, ts) := take joinKinds ts
  let (directed, ts) := take ["DIRECTED"] ts
  let head := method ++ side ++ kind ++ directed
  let nests := method.isEmpty && kind != [.word "CROSS"] && !(startsWith ["JOIN", "UNNEST"] ts)
  if startsWith ["JOIN"] ts then some (head ++ [.word "JOIN"], nests)
  else if kind = [.word "STRAIGHT_JOIN"] then some (head, nests)
  else none

def joinStart (t : Token) (rest : List Token) : Option (List Goal) :=
  if t = .symbol "," then
    match rest with
    | [] => some []
    | u :: after => some (if (tableStart u after).isSome then [.table, .joins] else [])
  else if (t = .word "CROSS" ∨ t = .word "OUTER") ∧ startsWith ["APPLY"] rest then
    some [word "APPLY", .lateralBody, .joinCondition false, .joins]
  else
    (joinHead? (t :: rest)).map fun head =>
      head.1.tail.map Goal.token ++ [.table, .joinCondition head.2, .joins]

/-- What a table may be locked for, from the word after FOR or LOCK on. -/
def lockStart (w : String) (rest : List Token) : Option (List Goal) :=
  let more : List Goal :=
    [.phrase ["OF"] [.items .tableName true], .phrase ["NOWAIT"] [],
      .phrase ["WAIT"] [.maybeExpression .unary], .phrase ["SKIP", "LOCKED"] [], .locks]
  if w = "FOR" ∧ startsWith ["SHARE"] rest then some (word "SHARE" :: more)
  else if w = "FOR" ∧ startsWith ["KEY", "SHARE"] rest then
    some (word "KEY" :: word "SHARE" :: more)
  else if w = "LOCK" ∧ startsWith ["IN", "SHARE", "MODE"] rest then
    some (word "IN" :: word "SHARE" :: word "MODE" :: more)
  else none

def sampleBody : List Goal :=
  [.sampleMethod, .sampleSize, .phrase ["SEED"] [symbol "(", .maybeExpression .unary, symbol ")"],
    .phrase ["REPEATABLE"] [symbol "(", .maybeExpression .unary, symbol ")"]]

def clauseStart (w : String) (rest : List Token) : Option (String × List Goal) :=
  if w = "WHERE" ∨ w = "HAVING" ∨ w = "QUALIFY" then some (w, [.expression .disjunction])
  else if w = "GROUP BY" then some (w, [.maybe ["ALL", "DISTINCT"], .groups])
  else if w = "ORDER BY" ∨ w = "SORT BY" ∨ w = "CLUSTER BY" ∨ w = "DISTRIBUTE BY" then
    some (w, [.items .ordered true])
  else if w = "LIMIT" then some (w, limitBody)
  else if w = "FETCH" then some ("LIMIT", fetchBody)
  else if w = "OFFSET" then
    some (w, [.expression .sum, .maybe ["ROW", "ROWS"],
      .phrase ["BY"] [.items (.expression .bits) false]])
  else if w = "WINDOW" then some (w, [.items .window true])
  else if w = "TABLESAMPLE" then some (w, sampleBody)
  else (lockStart w rest).map fun goals => ("FOR", goals)

/-- Clauses of the last query that count as clauses of all of them. -/
def sharedClauses : List String := ["ORDER BY", "LIMIT", "OFFSET"]

def setWords : List String := ["UNION", "EXCEPT", "INTERSECT"]

namespace Tail

def extended (t : Tail) (seen : List String) : Tail :=
  { t with
    kind := if t.phase = .wrapped then .other else t.kind
    phase := .final
    seen := seen }

/-- What the last part of a query takes at a token. -/
def take? (t : Tail) (token : Token) (rest : List Token) : Option (List Goal) :=
  match token with
  | .word w =>
    if t.phase ≠ .final ∧ setWords.contains w then
      some [.maybe ["ALL", "DISTINCT"], .phrase ["BY", "NAME"] [],
        .phrase ["STRICT", "CORRESPONDING"] [], .phrase ["CORRESPONDING"] [],
        .setOperand { t with kind := t.kind.combine w, compound := true }]
    else
      match t.phase, clauseStart w rest with
      | .bare, _ => none
      | .clauses, some (key, goals) | .final, some (key, goals) =>
        if t.seen.contains key then none
        else some (goals ++ [.tail { t with seen := key :: t.seen }])
      | .operand, some (key, goals) | .wrapped, some (key, goals) =>
        if t.again then some (goals ++ [.tail (t.extended [key])]) else none
      | .final, none => none
      | _, none =>
        if !t.again then none
        else
          let seen := if t.compound then t.seen.filter sharedClauses.contains else t.seen
          let goals := if w = "LATERAL" then some [.lateralBody] else joinStart token rest
          goals.map (· ++ [.laterals, .tail (t.extended seen)])
  | .symbol s =>
    if s = ")" ∧ 0 < t.depth then
      some [.tail { t with phase := .wrapped, seen := [], compound := false, depth := t.depth - 1 }]
    else if s = "," ∧ t.again ∧ t.phase ≠ .bare ∧ t.phase ≠ .final then
      let seen := if t.compound then t.seen.filter sharedClauses.contains else t.seen
      (joinStart token rest).map (· ++ [.laterals, .tail (t.extended seen)])
    else none
  | _ => none

end Tail

/-- Tokens that are the name of a lambda's parameter and an arrow. -/
def isLambda (t : Token) (rest : List Token) : Bool :=
  isAnyName t && (nextIs "->" rest || nextIs "=>" rest)

/-- What follows the names up to a closing parenthesis. -/
def dropNames : List Token → Option (List Token)
  | .symbol s :: ts => if s = ")" then some ts else if s = "," then dropNames ts else none
  | .word w :: ts => if isName w then dropNames ts else none
  | .quotedName _ :: ts => dropNames ts
  | _ => none

def argumentStart (aliased : Bool) (t : Token) (rest : List Token) : Option (List Goal) :=
  if isLambda t rest then
    some ((rest.take 1).map Goal.token ++ [.expression .disjunction])
  else if t = .symbol "(" ∧ (dropNames rest).any (fun after => nextIs "->" after) then
    some [.items .name false, symbol ")", symbol "->", .expression .disjunction]
  else if t = .word "DISTINCT" then
    some (.items (.expression .disjunction) false :: argumentEnd)
  else
    match queryStart false t with
    | some goals => some (goals ++ argumentEnd)
    | none =>
      (expressionStart .assignment t rest).map
        (· ++ (if aliased then [.explicitAlias] else []) ++
          .tail (.start .other .bare false) :: argumentEnd)

def Item.start (k : Item) (t : Token) (rest : List Token) : Option (List Goal) :=
  match k with
  | .projection => (expressionStart .assignment t rest).map (· ++ [.alias])
  | .expression l => expressionStart l t rest
  | .column => columnStart t rest
  | .ordered =>
    (expressionStart .disjunction t rest).map
      (· ++ [.maybe ["ASC"], .maybe ["DESC"], .phrase ["NULLS", "FIRST"] [],
        .phrase ["NULLS", "LAST"] []])
  | .name => if isAnyName t then some [] else none
  | .columnSpec =>
    if isAnyName t then some [.maybe ["AS"], .maybeTypeName, .phrase ["FOR", "ORDINALITY"] [],
      .columnNotes]
    else none
  | .subscript =>
    if t = .symbol ":" then some [.maybeExpression .disjunction, .slice]
    else (expressionStart .disjunction t rest).map (· ++ [.explicitAlias, .slice, .slice])
  | .row =>
    if t = .symbol "(" then some [.items .projection false, symbol ")"]
    else (expressionStart .assignment t rest).map (· ++ [.alias])
  | .table => tableStart t rest
  | .tableName => (tableNameStart t rest).map (· ++ [.tableDots])
  | .element =>
    match queryStart true t with
    | some goals => some goals
    | none =>
      (expressionStart .assignment t rest).map
        (· ++ [.tail (.start .other (if t = .symbol "(" ∧ holdsQuery rest then .wrapped else .bare)
          true)])
  | .argument aliased => argumentStart aliased t rest
  | .window => if isAnyName t then some [.maybe ["AS"], .windowBody] else none
  | .groupingSet =>
    if t = .word "GROUPING SETS" then
      some [symbol "(", .items .groupingSet true, symbol ")"]
    else if t = .word "CUBE" ∨ t = .word "ROLLUP" then
      some [symbol "(", .items (.expression .bits) false, symbol ")"]
    else expressionStart .bits t rest
  | .pair =>
    if t = .word "KEY" ∧ !nextIs ":" rest ∧ !nextIs "," rest then
      some [.expression .unary, .pairSeparator, .maybe ["VALUE"], .expression .bits,
        .phrase ["FORMAT", "JSON"] []]
    else
      (columnStart t rest).map
        (· ++ [.pairSeparator, .maybe ["VALUE"], .expression .bits, .phrase ["FORMAT", "JSON"] []])
  | .hint =>
    match t with
    | .word w => some (if nextIs "(" rest ∧ isFunction w then callGoals w else [])
    | _ => if isAnyName t then some [] else none
  | .typeParameter => (valueStart t rest).map (· ++ [.freeWord])
  | .mode =>
    match t with
    | .word w => if isFree w ∨ w = "NOT" then some [.modeWords] else none
    | _ => none

end Funnel.Sql
