import Funnel.Recognizer.Goal
import Funnel.Recognizer.Vocabulary

/-!
# Operands

How an expression can start, and what it then takes. An operand is a value with its accesses
(parts, casts, paths); the goals after it are the operators of its level and of all tighter ones.
-/

set_option autoImplicit false

namespace Funnel.Sql

/-- The goals for more operators of exactly one level. -/
def Level.operators : Level → List Goal
  | .unary => []
  | .test => [.test, .notNull, .isTest]
  | l => [.more l]

/-- How many levels are at most as loose, without the unary one. -/
def Level.rank : Level → Nat
  | .unary => 0
  | .power => 1
  | .product => 2
  | .sum => 3
  | .bits => 4
  | .test => 5
  | .order => 6
  | .equality => 7
  | .conjunction => 8
  | .disjunction => 9
  | .assignment => 10

def levels : List Level :=
  [.power, .product, .sum, .bits, .test, .order, .equality, .conjunction, .disjunction,
    .assignment]

/-- The goals after an operand at a level. -/
def Level.tails (l : Level) : List Goal := (levels.take l.rank).flatMap Level.operators

def startsWith (words : List String) (ts : List Token) : Bool :=
  (words.map Token.word).isPrefixOf ts

def nextIs (s : String) (ts : List Token) : Bool := ts.head? == some (.symbol s)

def isAnyName : Token → Bool
  | .word w => !(w == "SELECT" || w == "NOT")
  | .symbol s => s == "~" || (s != "==" && 2 ≤ s.length)
  | .comment => false
  | _ => true

def startSymbols : List String :=
  ["(", "[", "\x7b", "*", "+", "-", "~", "!", "|/", "||/", ":", "@", "$", "?", "%", "."]

def beginsOperand : Token → Bool
  | .word w => isName w || w == "NOT"
  | .symbol s => startSymbols.contains s
  | .comment => false
  | _ => true

/-- Whether an IS goes on, with what follows it. -/
def isGoesOn (ts : List Token) : Bool :=
  let ts := if startsWith ["NOT"] ts then ts.tail else ts
  startsWith ["DISTINCT", "FROM"] ts || ts.head?.any beginsOperand

/-- Whether parentheses hold a query, perhaps in further parentheses. -/
def holdsQuery : List Token → Bool
  | .symbol s :: ts => s == "(" && holdsQuery ts
  | .word w :: _ => w == "SELECT" || w == "WITH" || w == "FROM" || w == "VALUES"
  | _ => false

def orderBy : Goal := .phrase ["ORDER BY"] [.items .ordered true]

def limitBody : List Goal :=
  [.expression .sum, .maybe ["PERCENT"], .maybe ["ROW", "ROWS"], .maybe ["ONLY"],
    .phrase ["WITH", "TIES"] [], .symbolThen "," [.expression .sum],
    .phrase ["BY"] [.items (.expression .bits) false]]

def fetchBody : List Goal :=
  [.maybe ["FIRST", "NEXT"], .fetchCount, .maybe ["PERCENT"], .maybe ["ROW", "ROWS"],
    .maybe ["ONLY"], .phrase ["WITH", "TIES"] []]

def argumentEnd : List Goal :=
  [.phrase ["IGNORE", "NULLS"] [], .phrase ["RESPECT", "NULLS"] [],
    .phrase ["HAVING"] [.maybe ["MAX", "MIN"], .expression .unary], orderBy,
    .phrase ["LIMIT"] limitBody, .phrase ["FETCH"] fetchBody]

/-- The goals after a call: its order, filter and window. -/
def afterCall : List Goal :=
  [.phrase ["WITHIN", "GROUP"] [symbol "(", orderBy, symbol ")"], .filter,
    .phrase ["IGNORE", "NULLS"] [], .phrase ["RESPECT", "NULLS"] [], .over]

/-- What a pair of JSON functions may have after its pairs. -/
def pairsEnd : List Goal :=
  [.phrase ["NULL", "ON", "NULL"] [], .phrase ["ABSENT", "ON", "NULL"] [],
    .phrase ["WITH", "UNIQUE"] [], .phrase ["WITHOUT", "UNIQUE"] [], .maybe ["KEYS"],
    .phrase ["RETURNING"] [.typeName, .phrase ["FORMAT", "JSON"] []],
    .phrase ["ENCODING"] [.freeWord]]

/-- What the parentheses of a function hold, with the closing one. Most functions take
arguments; some have a grammar of their own. -/
def callBody (name : String) : List Goal :=
  if name = "CAST" ∨ name = "TRY_CAST" ∨ name = "SAFE_CAST" then
    [.expression .assignment, .castTarget, symbol ")"]
  else if name = "EXTRACT" then
    [.extractPart, .fromOrComma, .expression .bits, symbol ")"]
  else if name = "POSITION" then [.expression .bits, .positionRest]
  else if name = "SUBSTRING" then [.substringArguments 0]
  else if name = "TRIM" then
    [.maybe ["BOTH", "LEADING", "TRAILING"], .trimValue,
      .phrase ["COLLATE"] [.expression .bits], symbol ")"]
  else if name = "OVERLAY" then
    [.expression .bits, .commaOr "PLACING", .expression .bits, .commaOr "FROM", .expression .bits,
      .maybeCommaOr "FOR" [.expression .bits], symbol ")"]
  else if name = "CONVERT" ∨ name = "TRY_CONVERT" then
    [.expression .bits, .convertTarget, symbol ")"]
  else if name = "CEIL" ∨ name = "FLOOR" then
    [.items (.argument false) false, .phrase ["TO"] [.freeWord], symbol ")"]
  else if name = "CHAR" ∨ name = "CHR" then
    [.items (.expression .assignment) true, .phrase ["USING"] [.maybeName], symbol ")"]
  else if name = "DATE_PART" then
    [.expression .unary, .symbolThen "," [], .expression .bits, symbol ")"]
  else if name = "JSON_OBJECT" then .items .pair false :: pairsEnd ++ [symbol ")"]
  else if name = "JSON_OBJECTAGG" then .items .pair true :: pairsEnd ++ [symbol ")"]
  else if name = "JSON_AGG" then [.counted (.argument false) (.exactly 1) 0]
  else if name = "JSONB_EXISTS" then [.counted (.expression .bits) (.exactly 2) 0]
  else if name = "NORMALIZE" then
    [.expression .bits, .symbolThen "," [.freeWord], symbol ")"]
  else if name = "STRING_AGG" then [.joined 0]
  else if name = "XMLELEMENT" then
    [.phrase ["EVALNAME"] [], .maybe ["NAME"], .anyName,
      .symbolThen "," [.items (.expression .bits) false], symbol ")"]
  else if name = "XMLTABLE" then
    [.phrase ["XMLNAMESPACES"] [symbol "(", .items .projection false, symbol ")",
      .symbolThen "," []], .textLiteral,
      .phrase ["PASSING"] [.phrase ["BY", "VALUE"] [], .items .column false],
      .phrase ["RETURNING", "SEQUENCE", "BY", "REF"] [],
      .phrase ["COLUMNS"] [.items .columnSpec false], symbol ")"]
  else if name = "JSON_TABLE" then
    [.expression .bits, .phrase ["FORMAT", "JSON"] [], .symbolThen "," [.textLiteral],
      .phrase ["ERROR", "ON", "ERROR"] [], .phrase ["NULL", "ON", "ERROR"] [], .maybe ["COLUMNS"],
      symbol "(", .items .columnSpec true, symbol ")", symbol ")"]
  else if name = "IF" then [.counted (.argument true) (.between 2 3) 0]
  else
    match signature? name with
    | some s => [.counted (.argument false) s 0]
    | none => [.counted (.argument true) .any 0]

def callGoals (name : String) : List Goal := symbol "(" :: callBody name ++ afterCall

def memberCall : List Goal := symbol "(" :: .counted (.argument true) .any 0 :: afterCall

def caseBody : List Goal :=
  [.maybeExpression .disjunction, word "WHEN", .expression .disjunction, .maybe ["THEN"],
    .expression .disjunction, .whens, .phrase ["ELSE"] [.expression .disjunction], word "END"] ++
    afterCall

def ifBody : List Goal :=
  [.expression .disjunction, .maybe ["THEN"], .expression .disjunction,
    .phrase ["ELSE"] [.maybeExpression .disjunction], .maybe ["END"]] ++ afterCall

/-- Words that make an expression without parentheses of their own, and what they take. -/
def wordCall (w : String) (rest : List Token) : Option (List Goal) :=
  if w = "CASE" then if nextIs "." rest then none else some caseBody
  else if w = "ANY" ∨ w = "VARIADIC" then some (.expression .bits :: afterCall)
  else if w = "IF" then
    if nextIs "(" rest ∨ !rest.head?.any beginsOperand then none else some ifBody
  else if w = "NEXT" ∧ startsWith ["VALUE", "FOR"] rest then
    some ([word "VALUE", word "FOR", .expression .unary,
      .phrase ["OVER"] [symbol "(", orderBy, symbol ")"]] ++ afterCall)
  else none

def fieldStart : Token → List Token → Option (List Goal)
  | .number, _ | .coded, _ => some []
  | .text _, _ => some [.texts]
  | .quotedName n, rest => some (if nextIs "(" rest then callGoals n else [])
  | .comment, _ => none
  | .symbol s, rest =>
    if s = "(" then some [.group, symbol ")"]
    else if s = "*" then
      some [.starClause ["EXCEPT", "EXCLUDE"], .starClause ["REPLACE"], .starClause ["RENAME"]]
    else if s = "." then
      if rest.head? = some .number then some [.token .number] else none
    else if s = "?" then some []
    else if s = ":" then some [.placeholderName]
    else if s = "@" ∨ s = "$" then some [.parameter]
    else if s = "%" then some [.symbolThen "(" [.anyName, symbol ")"], .maybe ["S"]]
    else none
  | .word w, rest =>
    if w = "NULL" ∨ w = "TRUE" ∨ w = "FALSE" then some []
    else if w = "VALUES" then if nextIs "(" rest then none else some []
    else
      match wordCall w rest with
      | some goals => some goals
      | none =>
        if nextIs "(" rest ∧ isFunction w then some (callGoals w)
        else if !isName w then none
        else if (w = "ARRAY" ∨ w = "LIST") ∧ nextIs "[" rest then
          some [symbol "[", .items .subscript false, symbol "]"]
        else some []

def columnStart (t : Token) (rest : List Token) : Option (List Goal) :=
  if t = .symbol "[" then some [.items .subscript false, symbol "]", .brackets]
  else if t = .symbol "\x7b" then some [.items .subscript false, symbol "\x7d", .brackets]
  else (fieldStart t rest).map (· ++ [.accesses])

def holdsUnit : List Char → Bool
  | [] => false
  | c :: cs =>
    (Text.isAsciiDigit c &&
      (cs.dropWhile fun d => Text.isAsciiDigit d || d == '.' || Text.isBlank d).head?.any
        fun d => ('a' ≤ d && d ≤ 'z') || ('A' ≤ d && d ≤ 'Z')) || holdsUnit cs

/-- Whether a text counts days and then hours and minutes, as `1 12:30` does. -/
def isDayTime (cs : List Char) : Bool :=
  let cs := Text.trimChars cs
  let cs := if cs.head? = some '-' then cs.tail else cs
  let days := cs.takeWhile Text.isAsciiDigit
  let rest := cs.drop days.length
  let time := rest.dropWhile fun d => Text.isBlank d || d == '-'
  days != [] && rest.head?.any Text.isBlank && time.head?.any Text.isAsciiDigit &&
    time.contains ':'

/-- The goals after a text that says how long an interval is. -/
def intervalEnd (cs : List Char) (rest : List Token) : List Goal :=
  match rest with
  | .text _ :: _ => [.texts, .unit, .phrase ["TO"] [.unitName], .intervalMore]
  | _ =>
    (if holdsUnit cs || isDayTime cs then [] else [.unit]) ++
      [.phrase ["TO"] [.unitName], .intervalMore]

def nameGoesOn : List String :=
  [".", "(", "[", "::", "+", "-", "*", "/", "%", "^", "->", "->>", "#>", "#>>", "<->"]

def intervalStart : List Token → Option (List Goal)
  | .text _ :: _ => some [.intervalValue, .accesses]
  | .word w :: rest =>
    let long : List Goal :=
      [.expression .sum, .unit, .phrase ["TO"] [.unitName], .intervalMore, .accesses]
    if w = "NULL" ∨ w = "TRUE" ∨ w = "FALSE" ∨ w = "CASE" then some long
    else if !isName w ∨ w = "END" then none
    else
      match rest with
      | .word u :: _ => if timeUnits.contains u then some long else none
      | .symbol s :: _ => if nameGoesOn.contains s then some long else none
      | _ => none
  | .symbol s :: rest =>
    if s = "." ∧ rest.head? ≠ some .number then none
    else if startSymbols.contains s ∧ s ≠ "!" then
      some [.expression .sum, .unit, .phrase ["TO"] [.unitName], .intervalMore, .accesses]
    else none
  | .number :: _ | .coded :: _ | .quotedName _ :: _ =>
    some [.expression .sum, .unit, .phrase ["TO"] [.unitName], .intervalMore, .accesses]
  | _ => none

/-- The parameters of a type are numbers and words; what follows their closing parenthesis. -/
def dropParameters : List Token → Option (List Token)
  | .symbol s :: ts => if s = ")" then some ts else if s = "," then dropParameters ts else none
  | .number :: ts | .word _ :: ts => dropParameters ts
  | _ => none

def dropBrackets : List Token → List Token
  | .symbol a :: .symbol b :: ts =>
    if a = "[" ∧ b = "]" then dropBrackets ts else .symbol a :: .symbol b :: ts
  | ts => ts

/-- What follows a time zone's mention in a type. -/
def dropZone (ts : List Token) : List Token :=
  if startsWith ["WITH", "TIME", "ZONE"] ts ∨ startsWith ["WITHOUT", "TIME", "ZONE"] ts then
    ts.drop 3
  else if startsWith ["WITH", "LOCAL", "TIME", "ZONE"] ts then ts.drop 4
  else ts

/-- Whether the next token is a text or number that stands alone. -/
def nextIsLiteral : List Token → Bool
  | .text _ :: .text _ :: _ => false
  | .text _ :: _ | .number :: _ => true
  | _ => false

def nextIsText : List Token → Bool
  | .text _ :: _ => true
  | _ => false

/-- What follows a type in front of a value of it, or a type of lists that stands alone. -/
def afterType? (w : String) (rest : List Token) : Option (List Token) :=
  let zoned (ts : List Token) := if zonedTypes.contains w then dropZone ts else ts
  let parameters := if nextIs "(" rest then dropParameters rest.tail else none
  let plain := zoned (parameters.getD rest)
  let bare := if w = "ARRAY" then plain else dropBrackets plain
  if parameters.isSome ∧ plain.length = (parameters.getD rest).length ∧ !nextIsText bare then none
  else if nextIsLiteral bare ∨ bare.length < plain.length then some bare
  else none

/-- A value: an interval, a literal with its type in front, a list's type, or a column. -/
def valueStart (t : Token) (rest : List Token) : Option (List Goal) :=
  match t with
  | .word w =>
    match if w = "INTERVAL" then intervalStart rest else none with
    | some goals => some goals
    | none =>
      match if isType w then afterType? w rest else none with
      | some after =>
        let before := (rest.take (rest.length - after.length)).map Goal.token
        if nextIsLiteral after then
          some (before ++ (after.take 1).map Goal.token ++ [.accesses])
        else some (before ++ [.accesses])
      | none => columnStart t rest
  | _ => columnStart t rest

def signs : List String := ["-", "+", "~", "|/", "||/"]

def unaryStart (t : Token) (rest : List Token) : Option (List Goal) :=
  match t with
  | .symbol s =>
    if s = "!" then some [.expression .equality]
    else if signs.contains s then some [.expression .unary]
    else (columnStart t rest).map (· ++ [.timeZone])
  | .word w =>
    if w = "NOT" then some [.expression .equality]
    else (valueStart t rest).map (· ++ [.timeZone])
  | _ => (columnStart t rest).map (· ++ [.timeZone])

def expressionStart (l : Level) (t : Token) (rest : List Token) : Option (List Goal) :=
  (unaryStart t rest).map (· ++ l.tails)

def typeStart : Token → Option (List Goal)
  | .word w =>
    if w = "INTERVAL" then
      some [.typeParameters, .freeWord, .phrase ["TO"] [.freeWord], .typeArray]
    else if zonedTypes.contains w then
      some [.typeParameters, .phrase ["WITH", "TIME", "ZONE"] [],
        .phrase ["WITH", "LOCAL", "TIME", "ZONE"] [], .phrase ["WITHOUT", "TIME", "ZONE"] [],
        .typeArray]
    else if isType w then some [.typeParameters, .typeArray]
    else if isFree w then some [.typeDots, .typeParameters, .typeArray]
    else none
  | .quotedName _ => some [.typeDots, .typeParameters, .typeArray]
  | _ => none

def memberStart (t : Token) (rest : List Token) : Option (List Goal) :=
  match t with
  | .word w =>
    match wordCall w rest with
    | some goals => some goals
    | none =>
      if !isAnyName t then none else if nextIs "(" rest then some memberCall else some []
  | .quotedName _ => some (if nextIs "(" rest then memberCall else [])
  | t =>
    match fieldStart t rest with
    | some goals => some goals
    | none => if isAnyName t then some [] else none

end Funnel.Sql
