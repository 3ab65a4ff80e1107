import Funnel.Recognizer.Source

/-!
# SQL grammar

A goal either takes a token and leaves further goals in its place, or is left out if it is
optional, or the text is not SQL. A goal decides by the next token and those after it, so a text
is recognised in one pass from left to right.

The grammar is a generous one: lists may have gaps, a name may follow any column, and clauses come
in any order.
-/

set_option autoImplicit false

namespace Funnel.Sql

def infixStart (l : Level) (t : Token) (rest : List Token) : Option (List Goal) :=
  match t with
  | .symbol s =>
    match l with
    | .power => if s = "^" then some [.expression .unary, .more .power] else none
    | .product =>
      if s = "*" ∨ s = "/" ∨ s = "<->" then some [.expression .power, .more .product] else none
    | .sum =>
      if s = "+" ∨ s = "-" ∨ s = "%" then some [.expression .product, .more .sum] else none
    | .bits =>
      if s = "&" ∨ s = "|" ∨ s = "#" ∨ s = "||" then some [.expression .sum, .more .bits]
      else if s = "??" then some [.maybeExpression .sum, .more .bits]
      else if (s = "<" ∨ s = ">") ∧ nextIs s rest then
        some [symbol s, .expression .sum, .more .bits]
      else none
    | .order =>
      if s = "<" ∨ s = ">" ∨ s = "<=" ∨ s = ">=" then some [.expression .test, .more .order]
      else none
    | .equality =>
      if s = "=" ∨ s = "==" ∨ s = "<>" ∨ s = "!=" ∨ s = "<=>" then
        some [.expression .order, .more .equality]
      else none
    | .assignment => if s = ":=" then some [.expression .assignment, .more .assignment] else none
    | _ => none
  | .word w =>
    if l = .sum ∧ w = "COLLATE" then some [.expression .product, .more .sum]
    else if l = .conjunction ∧ w = "AND" then some [.expression .equality, .more .conjunction]
    else if l = .disjunction ∧ w = "OR" then some [.expression .conjunction, .more .disjunction]
    else none
  | _ => none

def testWords : List String :=
  ["LIKE", "ILIKE", "RLIKE", "REGEXP", "GLOB", "OVERLAPS", "SIMILAR TO"]

def testSymbols : List String :=
  ["~", "~*", "~~", "~~*", "~~~", "@>", "<@", "?|", "?&", "#-", "&&", "&<", "&>", "@@", "-|-"]

/-- A comparison by a word or symbol, and what it then takes. -/
def testStart (t : Token) (rest : List Token) : Option (List Goal) :=
  match t with
  | .symbol s =>
    if testSymbols.contains s then some [.expression .bits, .phrase ["ESCAPE"] [.textLiteral]]
    else none
  | .word w =>
    if testWords.contains w then some [.expression .bits, .phrase ["ESCAPE"] [.textLiteral]]
    else if w = "BETWEEN" then
      some [.maybe ["SYMMETRIC", "ASYMMETRIC"], .expression .bits, .maybe ["AND"],
        .expression .bits]
    else if w = "IN" then some [.inValues]
    else if w = "IS" then if isGoesOn rest then some [.isValue] else none
    else if w = "ISNULL" then some []
    else if w = "OPERATOR" then
      some (if nextIs "(" rest then [symbol "(", .operatorName] else [])
    else none
  | _ => none

def isValueStart (t : Token) (rest : List Token) : Option (List Goal) :=
  if t = .word "NULL" ∨ t = .word "UNKNOWN" then some [.accesses]
  else if t = .word "DISTINCT" ∧ startsWith ["FROM"] rest then
    some [word "FROM", .expression .bits]
  else if t = .word "JSON" then
    some [.maybe ["VALUE", "SCALAR", "ARRAY", "OBJECT"], .maybe ["WITH", "WITHOUT"],
      .maybe ["UNIQUE"], .maybe ["KEYS"], .accesses]
  else (expressionStart .bits t rest).map (· ++ [.accesses])

def accessStart (s : String) : Option (List Goal) :=
  if s = "[" then some [.items .subscript true, symbol "]", .accesses]
  else if s = "\x7b" then some [.items .subscript false, symbol "\x7d", .accesses]
  else if s = "." then some [.member, .accesses]
  else if s = "::" ∨ s = "?::" then some [.typeName, .accesses]
  else if s = "->" ∨ s = "->>" ∨ s = "#>" ∨ s = "#>>" ∨ s = "?" then some [.path, .accesses]
  else none

def aliasStart (excluded : List String) : Token → Option (List Goal)
  | .word w => if isName w && !excluded.contains w then some [] else none
  | .quotedName _ => some []
  | .symbol s =>
    if s = ":" then some [.placeholderName]
    else if s = "@" ∨ s = "$" then some [.parameter]
    else none
  | _ => none

def countedStart (k : Item) (s : Signature) (n : Nat) (t : Token) (rest : List Token) :
    Option (List Goal) :=
  if t = .symbol ")" then if s.accepts n then some [] else none
  else if t = .symbol "," then some [.counted k s n]
  else if s.admits n then (k.start t rest).map (· ++ [.moreCounted k s (n + 1)])
  else none

/-- What ends the arguments of STRING_AGG. The closing parenthesis can be missing after it. -/
def joinedEnd (n : Nat) (t : Token) (rest : List Token) : Option (List Goal) :=
  let order : List Goal := [orderBy, .phrase ["LIMIT"] limitBody, .symbolThen ")" []]
  if t = .symbol ")" then if 1 ≤ n ∧ n ≤ 3 then some [] else none
  else if t = .word "ORDER BY" then some (.items .ordered true :: order)
  else if t = .word "LIMIT" then some (limitBody ++ [.symbolThen ")" []])
  else if t = .word "ON" ∧ startsWith ["OVERFLOW"] rest then
    some (word "OVERFLOW" :: .phrase ["ERROR"] [] :: .phrase ["WITH", "COUNT"] [] ::
      .phrase ["WITHOUT", "COUNT"] [] :: order)
  else none

/-- What SUBSTRING takes after its arguments, of which there are at most three. -/
def substringEnd (n : Nat) (start length : Bool) (t : Token) : Option (List Goal) :=
  let total := n + start.toNat + length.toNat
  if t = .symbol ")" then if 1 ≤ total ∧ total ≤ 3 then some [] else none
  else if t = .word "FROM" then some [.expression .bits, .substringMore n true length]
  else if t = .word "FOR" then some [.expression .bits, .substringMore n true true]
  else none

def groupStart (t : Token) (rest : List Token) : Option (List Goal) :=
  if t = .symbol "," then some [.groups]
  else if t = .word "CUBE" ∨ t = .word "ROLLUP" then
    some [symbol "(", .items (.expression .bits) false, symbol ")", .groups]
  else if t = .word "GROUPING SETS" then
    some [symbol "(", .items .groupingSet true, symbol ")", .groups]
  else if t = .word "WITH" then
    match rest.head? with
    | some (.word w) =>
      if w = "CUBE" ∨ w = "ROLLUP" ∨ w = "TOTALS" then some [word w, .groups] else none
    | _ => none
  else none

def statementStart (t : Token) (rest : List Token) : Option (List Goal) :=
  if t = .word "VALUES" ∧ !nextIs "(" rest then
    some [.alias, .tail (.start .other .bare true)]
  else if t = .word "TABLE" ∧ (rest.head?.any fun u => (tableNameStart u []).isSome) then
    some [.tableName, .tail (.start .select .operand true)]
  else
    match queryStart true t with
    | some goals => some goals
    | none =>
      let phase : Phase := if t = .symbol "(" ∧ holdsQuery rest then .wrapped else .bare
      (expressionStart .assignment t rest).map
        (· ++ [.alias, .tail (.start .other phase true)])

def mainStart (depth : Nat) (t : Token) (rest : List Token) : Option (List Goal) :=
  let tail (kind : Kind) (phase : Phase) : Tail :=
    { Tail.start kind phase true with depth := depth }
  match t with
  | .word w =>
    if w = "SELECT" then some (selectBody (tail .select .clauses))
    else if w = "FROM" then some (fromBody (tail .select .clauses))
    else if w = "TABLE" then some [.tableName, .tail (tail .select .operand)]
    else if w = "VALUES" then
      some [.items .row true, .tableAlias, .setOperator (tail .other .operand)]
    else if w = "WITH" ∧ 0 < depth then
      some [.maybe ["RECURSIVE"], .cte, .moreCtes, .mainStatement depth]
    else none
  | .symbol s => if s = "(" ∧ holdsQuery rest then some [.mainStatement (depth + 1)] else none
  | _ => none

def setOperandStart (t : Tail) : Token → Option (List Goal)
  | .word w =>
    if w = "SELECT" then some (selectBody t)
    else if w = "FROM" then some (fromBody t)
    else if w = "VALUES" then some (valuesBody t)
    else if w = "TABLE" then some [.tableName, .tail { t with phase := .operand, seen := [] }]
    else if w = "WITH" then some (withBody ++ [.tail { t with phase := .operand, seen := [] }])
    else none
  | .symbol s =>
    if s = "(" then
      some ([.nested, symbol ")"] ++ afterTableGroup ++
        [.tail { t with phase := .operand, seen := [] }])
    else none
  | _ => none

namespace Goal

/-- What a goal leaves to do once it has taken a token; none if it cannot take the token. -/
def take? (g : Goal) (t : Token) (rest : List Token) : Option (List Goal) :=
  match g with
  | .token u => if t = u then some [] else none
  | .maybe words =>
    match t with
    | .word w => if words.contains w then some [] else none
    | _ => none
  | .phrase words goals =>
    if startsWith words (t :: rest) then some (words.tail.map word ++ goals) else none
  | .symbolThen s goals => if t = .symbol s then some goals else none
  | .something => some []
  | .anything => some [.anything]
  | .items k needed =>
    match k.start t rest with
    | some goals => some (goals ++ [.moreItems k])
    | none => if t = .symbol "," then some [.items k needed] else none
  | .moreItems k => if t = .symbol "," then some [.items k false] else none
  | .counted k s n => countedStart k s n t rest
  | .moreCounted k s n =>
    if t = .symbol ")" then if s.accepts n then some [] else none
    else if t = .symbol "," then some [.counted k s n]
    else none
  | .expression l | .maybeExpression l => expressionStart l t rest
  | .more l => infixStart l t rest
  | .test =>
    if t = .word "NOT" ∨ t = .symbol "!" then some [.negatedTest] else testStart t rest
  | .negatedTest => if t = .word "NULL" then some [] else testStart t rest
  | .notNull => if t = .word "NOTNULL" then some [] else none
  | .isTest => if t = .word "IS" ∧ isGoesOn rest then some [.isValue] else none
  | .isValue => if t = .word "NOT" then some [.isValue] else isValueStart t rest
  | .inValues =>
    if t = .symbol "(" then some [.items .element false, symbol ")"]
    else if t = .symbol "[" then some [.items .element false, symbol "]"]
    else columnStart t rest
  | .operatorName =>
    if t = .symbol ")" then some [.expression .bits, .operatorAgain] else some [.operatorName]
  | .operatorAgain =>
    if t = .word "OPERATOR" then
      some (if nextIs "(" rest then [symbol "(", .operatorName] else [])
    else none
  | .timeZone =>
    if startsWith ["AT", "TIME", "ZONE"] (t :: rest) then
      some [word "TIME", word "ZONE", .expression .unary]
    else none
  | .accesses =>
    match t with
    | .symbol s => accessStart s
    | _ => none
  | .path =>
    match fieldStart t rest with
    | some goals => some goals
    | none => expressionStart .bits t rest
  | .brackets =>
    if t = .symbol "[" then some [.items .subscript true, symbol "]", .brackets]
    else if t = .symbol "\x7b" then some [.items .subscript false, symbol "\x7d", .brackets]
    else none
  | .member => memberStart t rest
  | .texts =>
    match t with
    | .text _ => some [.texts]
    | _ => none
  | .parameter =>
    match t with
    | .symbol s => if s = "(" then some [.group, symbol ")"] else none
    | t => if isAnyName t then some [] else none
  | .placeholderName =>
    match t with
    | .word w => if isName w then some [] else none
    | .number | .quotedName _ => some []
    | _ => none
  | .starClause words =>
    match t with
    | .word w => if words.contains w then some [.starList] else none
    | _ => none
  | .starList =>
    if t = .symbol "(" then some [.items .projection false, symbol ")"]
    else (expressionStart .assignment t rest).map (· ++ [.explicitAlias])
  | .group =>
    match queryStart true t with
    | some goals => some goals
    | none =>
      if t = .symbol "," then some [.items .projection false]
      else
        (expressionStart .assignment t rest).map (· ++ [.alias] ++
          (if t = .symbol "(" ∧ holdsQuery rest then [.tail (.start .other .wrapped true)] else [])
          ++ [.moreItems .projection])
  | .whens =>
    if t = .word "WHEN" then
      some [.expression .disjunction, .maybe ["THEN"], .expression .disjunction, .whens]
    else none
  | .slice => if t = .symbol ":" then some [.maybeExpression .disjunction] else none
  | .intervalValue | .intervalMore =>
    match t with
    | .text cs => some (intervalEnd cs rest)
    | .number =>
      some (.accesses :: Level.sum.tails ++ [.unit, .phrase ["TO"] [.unitName], .intervalMore])
    | .symbol s =>
      if s = "+" ∧ (nextIsText rest ∨ rest.head? = some .number) then some [.intervalValue]
      else none
    | _ => none
  | .unit | .unitName =>
    match t with
    | .word w =>
      if nextIs "(" rest ∧ isFunction w then some (callGoals w)
      else if w = "AS" ∨ !isAnyName t then none
      else some []
    | .symbol s => if s ≠ "::" ∧ isAnyName t then some [] else none
    | t => if isAnyName t then some [] else none
  | .typeName | .maybeTypeName => typeStart t
  | .typeParameters =>
    if t = .symbol "(" then some [.items .typeParameter true, symbol ")"] else none
  | .typeArray =>
    if t = .word "ARRAY" then some []
    else if t = .symbol "[" ∧ nextIs "]" rest then some [symbol "]", .typeArray]
    else none
  | .typeDots => if t = .symbol "." then some [.anyName, .typeDots] else none
  | .freeWord =>
    match t with
    | .word w => if isFree w then some [] else none
    | _ => none
  | .anyName => if isAnyName t then some [] else none
  | .maybeName =>
    match t with
    | .word w => if isName w then some [] else none
    | .quotedName _ => some []
    | _ => none
  | .alias =>
    if t = .word "AS" then some [.aliasAfterAs]
    else if t = .symbol "(" then some [.items .name true, symbol ")"]
    else aliasStart clauseNames t
  | .aliasAfterAs =>
    if t = .symbol "(" then some [.items .name true, symbol ")"]
    else
      match aliasStart [] t with
      | some goals => some goals
      | none => if isAnyName t then some [] else none
  | .explicitAlias => if t = .word "AS" then some [.aliasAfterAs] else none
  | .filter =>
    if t = .word "FILTER" ∧ nextIs "(" rest then
      some [symbol "(", .maybe ["WHERE"], .expression .disjunction, symbol ")"]
    else none
  | .over => if t = .word "OVER" then some [.windowBody, .over] else none
  | .windowBody =>
    if t = .symbol "(" then
      some [.windowName, .maybe ["FIRST"], .maybe ["LAST"],
        .phrase ["PARTITION BY"] [.items (.expression .disjunction) false], orderBy,
        .phrase ["ROWS"] [.maybe ["BETWEEN"], .bound],
        .phrase ["RANGE"] [.maybe ["BETWEEN"], .bound],
        .phrase ["GROUPS"] [.maybe ["BETWEEN"], .bound], .phrase ["AND"] [.bound],
        .phrase ["EXCLUDE"] [.exclusion], symbol ")"]
    else
      match t with
      | .word w => if isName w then some [] else none
      | .quotedName _ => some []
      | _ => none
  | .windowName =>
    match t with
    | .word w => if isName w ∧ w ≠ "ROWS" ∧ w ≠ "RANGE" then some [] else none
    | .quotedName _ => some []
    | _ => none
  | .bound =>
    let side : Goal := .maybe ["PRECEDING", "FOLLOWING"]
    if t = .word "UNBOUNDED" then some [side]
    else if t = .word "CURRENT" ∧ startsWith ["ROW"] rest then some [word "ROW", side]
    else (expressionStart .bits t rest).map (· ++ [side])
  | .exclusion =>
    if t = .word "NO" then some [word "OTHERS"]
    else if t = .word "CURRENT" then some [word "ROW"]
    else if t = .word "GROUP" ∨ t = .word "TIES" then some []
    else none
  | .textLiteral =>
    match t with
    | .text _ | .coded => some []
    | .word w => if w = "NULL" then some [] else none
    | .symbol s =>
      if s = "?" then some []
      else if s = ":" then some [.placeholderName]
      else if s = "@" ∨ s = "$" then some [.parameter]
      else none
    | _ => none
  | .castTarget =>
    if t = .word "AS" then
      some [.typeName, .phrase ["COLLATE"] [.expression .unary],
        .phrase ["DEFAULT"] [.expression .bits,
        .phrase ["ON", "CONVERSION", "ERROR"] []], .castFormat]
    else if t = .symbol "," then some [.textLiteral]
    else none
  | .castFormat =>
    if t = .word "FORMAT" ∨ t = .symbol "," then some [.textLiteral, .timeZone] else none
  | .convertTarget =>
    if t = .word "USING" then some [.anyName]
    else if t = .symbol "," then some [.typeName]
    else none
  | .extractPart =>
    match t with
    | .word w =>
      if nextIs "(" rest ∧ isFunction w then some (callGoals w)
      else if isAnyName t then some [] else none
    | t => if isAnyName t then some [] else none
  | .fromOrComma => if t = .word "FROM" ∨ t = .symbol "," then some [] else none
  | .positionRest =>
    if t = .word "IN" then some [.expression .bits, symbol ")"]
    else if t = .symbol "," then some [.counted (.expression .bits) (.atLeast 1) 0]
    else none
  | .substringArguments n =>
    match substringEnd n false false t with
    | some goals => some goals
    | none =>
      if t = .symbol "," then some [.substringArguments n]
      else (expressionStart .bits t rest).map (· ++ [.substringMore (n + 1) false false])
  | .substringMore n start length =>
    if t = .symbol "," ∧ !start ∧ !length then some [.substringArguments n]
    else substringEnd n start length t
  | .trimValue =>
    if t = .word "FROM" then some [.expression .bits]
    else (expressionStart .bits t rest).map (· ++ [.trimMore])
  | .trimMore =>
    if t = .word "FROM" then some [.expression .bits]
    else if t = .symbol "," then some [.maybeExpression .bits]
    else none
  | .commaOr w => if t = .symbol "," ∨ t = .word w then some [] else none
  | .maybeCommaOr w goals => if t = .symbol "," ∨ t = .word w then some goals else none
  | .joined n =>
    if t = .word "DISTINCT" ∧ n = 0 then some [.expression .disjunction, .moreJoined 1]
    else if t = .symbol "," then some [.joined n]
    else
      match joinedEnd n t rest with
      | some goals => some goals
      | none => (expressionStart .disjunction t rest).map (· ++ [.moreJoined (n + 1)])
  | .moreJoined n => if t = .symbol "," then some [.joined n] else joinedEnd n t rest
  | .pairSeparator =>
    if t = .symbol ":" ∨ t = .symbol "," ∨ t = .word "IS" then some [] else none
  | .table => tableStart t rest
  | .tableName =>
    if t = .symbol "." then some [.tablePart, .tableDots]
    else (tableNameStart t rest).map (· ++ [.tableDots])
  | .tablePart => if t = .symbol "." then some [.tablePart] else tableNameStart t rest
  | .tableDots => if t = .symbol "." then some [.tablePart, .tableDots] else none
  | .tableAlias =>
    if t = .word "AS" then some [.tableAliasName, .aliasColumns]
    else if t = .symbol "(" ∧ (rest.head?.any isAnyName) then
      some [.items .columnSpec true, symbol ")"]
    else
      match t with
      | .text _ => some [.aliasColumns]
      | t => (aliasStart joinNames t).map (· ++ [.aliasColumns])
  | .tableAliasName =>
    match aliasStart [] t with
    | some goals => some goals
    | none => if isAnyName t then some [] else none
  | .aliasColumns =>
    if t = .symbol "(" ∧ (rest.head?.any isAnyName) then
      some [.items .columnSpec true, symbol ")"]
    else none
  | .columnNotes =>
    match t with
    | .word w =>
      if w = "NOT" then some [word "NULL", .columnNotes]
      else if w = "NULL" ∨ w = "UNIQUE" ∨ w = "PRIMARY KEY" then some [.columnNotes]
      else if w = "DEFAULT" then some [.expression .bits, .columnNotes]
      else if w = "COLLATE" then some [.anyName, .columnNotes]
      else if w = "PATH" then some [.textLiteral, .columnNotes]
      else none
    | _ => none
  | .tableVersion =>
    if t = .word "FOR VERSION" ∨ t = .word "FOR TIMESTAMP" then
      some [.phrase ["AS", "OF"] [], .expression .unary]
    else none
  | .tableHints =>
    if t = .word "WITH" ∧ nextIs "(" rest then
      some [symbol "(", .items .hint false, symbol ")"]
    else none
  | .sample => if t = .word "TABLESAMPLE" then some sampleBody else none
  | .sampleMethod =>
    match t with
    | .word w => if isFree w ∨ w = "ROW" then some [] else none
    | _ => none
  | .sampleSize =>
    let amount : List Goal := [.maybe ["PERCENT", "ROWS"], .symbolThen "%" []]
    if t = .symbol "(" then some (.maybeExpression .product :: amount ++ [symbol ")"])
    else if t = .number then some amount
    else none
  | .tableGroup =>
    match queryStart true t with
    | some goals => some goals
    | none => (tableStart t rest).map (· ++ [.tail (.start .other .operand true)])
  | .joins => joinStart t rest
  | .joinCondition nests =>
    if t = .word "ON" then some [.maybeExpression .disjunction]
    else if t = .word "USING" then some [.usingNames]
    else if nests then (joinStart t rest).map (· ++ [.joinCondition false])
    else none
  | .usingNames =>
    if t = .symbol "(" then some [.items .column false, symbol ")"]
    else (columnStart t rest).map (· ++ [.moreItems .column])
  | .laterals => if t = .word "LATERAL" then some [.lateralBody, .laterals] else none
  | .lateralBody =>
    if t = .word "VIEW" then
      some [.maybe ["OUTER"], .lateralCall, .maybeName, .phrase ["AS"] [.items .name false]]
    else if t = .symbol "(" ∨ (queryStart false t).isSome then
      (tableStart t rest).map (· ++ [.phrase ["WITH", "ORDINALITY"] [.tableAlias]])
    else
      (tableNameStart t rest).map
        (· ++ [.lateralDots, .phrase ["WITH", "ORDINALITY"] [], .tableAlias])
  | .lateralCall => (tableNameStart t rest).map (· ++ [.lateralDots])
  | .lateralDots => if t = .symbol "." then some [.lateralCall] else none
  | .statement => statementStart t rest
  | .mainStatement depth => mainStart depth t rest
  | .setOperand last => setOperandStart last t
  | .setOperator last =>
    match t with
    | .word w => if setWords.contains w then last.take? t rest else none
    | _ => none
  | .nested =>
    if t = .symbol "(" then
      some ([.nested, symbol ")"] ++ afterTableGroup ++ [.tail (.start .other .operand true)])
    else queryStart true t
  | .quantifier =>
    if rest = [] ∨ nextIs "." rest then none
    else if t = .word "ALL" then some []
    else if t = .word "DISTINCT" then some [.phrase ["ON"] [.distinctOn]]
    else none
  | .distinctOn =>
    if t = .symbol "(" then some [.items .projection false, symbol ")"]
    else (expressionStart .assignment t rest).map (· ++ [.alias])
  | .cte =>
    let body : List Goal :=
      [.aliasColumns, .phrase ["USING", "KEY"] [symbol "(", .items .name false, symbol ")"],
        word "AS", .phrase ["NOT", "MATERIALIZED"] [], .phrase ["MATERIALIZED"] [], symbol "(",
        .statement, symbol ")"]
    match t with
    | .text _ => some body
    | .word w =>
      if w = "AS" then some (.tableAliasName :: body) else if isName w then some body else none
    | t => (aliasStart [] t).map (· ++ body)
  | .moreCtes =>
    if t = .symbol "," ∨ t = .word "WITH" then some [.maybe ["WITH"], .cte, .moreCtes] else none
  | .searchKind =>
    if t = .word "BREADTH" ∨ t = .word "DEPTH" ∨ t = .word "CYCLE" then
      some [.phrase ["FIRST", "BY"] [], .anyName, word "SET", .anyName,
        .phrase ["USING"] [.anyName]]
    else none
  | .tail last => last.take? t rest
  | .groups =>
    match groupStart t rest with
    | some goals => some goals
    | none => (expressionStart .disjunction t rest).map (· ++ [.moreGroups])
  | .moreGroups => groupStart t rest
  | .fetchCount =>
    match t with
    | .word w => if w = "ROW" ∨ w = "ROWS" ∨ w = "PERCENT" then none else fieldStart t rest
    | _ => fieldStart t rest
  | .locks =>
    match t with
    | .word w => lockStart w rest
    | _ => none
  | .modeWords =>
    match t with
    | .word w => if isFree w ∨ w = "NOT" then some [.modeWords] else none
    | _ => none

end Goal

/-- The goals left after a token, with the tokens after it in sight; none if the token fits none
of them. -/
def advance : List Goal → Token → List Token → Option (List Goal)
  | [], _, _ => none
  | g :: goals, t, rest =>
    match g.take? t rest with
    | some more => some (more ++ goals)
    | none => if g.isOptional then advance goals t rest else none

def advanceAll : List Goal → List Token → Option (List Goal)
  | goals, [] => some goals
  | goals, t :: ts => (advance goals t ts).bind fun g => advanceAll g ts

/-- The goals left after all tokens, if none of them has to be met. -/
def meets? (goals : List Goal) (ts : List Token) : Option (List Goal) :=
  (advanceAll goals ts).filter fun left => left.all Goal.isOptional

def kindOf (left : List Goal) : Kind :=
  match left.getLast? with
  | some (.tail t) => t.kind
  | _ => .other

end Funnel.Sql
