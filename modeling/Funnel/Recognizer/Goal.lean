import Funnel.Query.Parser
import Funnel.Recognizer.Signature
import Funnel.Recognizer.Token

/-!
# Goals of a statement

What may still follow in a statement is a list of goals, the next one first. Some goals have to be
met, others can be left out. The last goal of a query carries what kind of statement it is so far.
-/

set_option autoImplicit false

namespace Funnel.Sql

/-- The kind of a query after a set operator. INTERSECT binds tighter than the others. -/
def Kind.combine (k : Kind) (operator : String) : Kind :=
  if operator = "UNION" ∨ (operator = "INTERSECT" ∧ k = .union) then .union else .other

/-- How tightly operators bind, the tightest first. -/
inductive Level where
  | unary | power | product | sum | bits | test | order | equality | conjunction | disjunction
  | assignment
deriving DecidableEq, Repr

/-- Where the last part of a query stands. -/
inductive Phase where
  /-- After a SELECT, among its own clauses. -/
  | clauses
  /-- After a query without clauses of its own. -/
  | operand
  /-- After a query in parentheses. -/
  | wrapped
  /-- After an expression. -/
  | bare
  /-- Among the clauses after all set operators. -/
  | final
deriving DecidableEq, Repr

/-- The last part of a query: clauses, set operators, and tables and clauses after them. -/
structure Tail where
  kind : Kind
  phase : Phase
  /-- Clauses that may not come again. -/
  seen : List String
  /-- Whether tables and clauses can follow the set operators. -/
  again : Bool
  /-- Whether there was a set operator. -/
  compound : Bool
  /-- How many parentheses around the query are still open. -/
  depth : Nat
deriving DecidableEq, Repr

/-- The last part of a query of a kind, with nothing seen of it. -/
def Tail.start (kind : Kind) (phase : Phase) (again : Bool) : Tail :=
  ⟨kind, phase, [], again, false, 0⟩

inductive Item where
  /-- An expression that may have an alias. -/
  | projection
  | expression (l : Level)
  /-- A column without operators. -/
  | column
  /-- An expression with its direction. -/
  | ordered
  | name
  /-- A column's name, with its type if it is given. -/
  | columnSpec
  /-- An index or a range of them. -/
  | subscript
  /-- A row of VALUES. -/
  | row
  | table
  | tableName
  /-- A query or an expression. -/
  | element
  /-- An argument of a function; an `aliased` one may have an alias after AS. -/
  | argument (aliased : Bool)
  /-- A named window. -/
  | window
  | groupingSet
  /-- A key and its value. -/
  | pair
  | hint
  | typeParameter
  /-- Words that say how a transaction runs. -/
  | mode
deriving DecidableEq, Repr

inductive Goal where
  /-- This token. -/
  | token (t : Token)
  /-- One of these words, if it is there. -/
  | maybe (words : List String)
  /-- These words and then more, if all of them are there. -/
  | phrase (words : List String) (more : List Goal)
  /-- This symbol and then more, if it is there. -/
  | symbolThen (s : String) (more : List Goal)
  /-- Any token. -/
  | something
  /-- Any tokens. -/
  | anything
  /-- Entries of a list; at least one if it is `needed`. -/
  | items (k : Item) (needed : Bool)
  | moreItems (k : Item)
  /-- Entries up to a closing parenthesis, of which `n` were read. -/
  | counted (k : Item) (s : Signature) (n : Nat)
  | moreCounted (k : Item) (s : Signature) (n : Nat)
  -- expressions
  | expression (l : Level)
  | maybeExpression (l : Level)
  /-- More operators of a level, with their operands. -/
  | more (l : Level)
  /-- A comparison by a word, and what may follow it. -/
  | test | negatedTest | notNull | isTest | isValue | inValues
  /-- The characters of a named operator, up to a closing parenthesis. -/
  | operatorName | operatorAgain
  | timeZone
  /-- What is taken from a value: parts of it, or the value as another type. -/
  | accesses
  /-- What stands on the right of an arrow. -/
  | path
  | brackets
  /-- What stands after a dot. -/
  | member
  /-- More texts, which are one with the text before them. -/
  | texts
  | parameter
  | placeholderName
  /-- What a star leaves out or puts in place of columns. -/
  | starClause (words : List String)
  | starList
  /-- The contents of parentheses in an expression. -/
  | group
  | whens
  | slice
  /-- How long an interval is, and in what it is counted. -/
  | intervalValue | intervalMore | unit | unitName
  | typeName | maybeTypeName | typeParameters | typeArray | typeDots | freeWord
  -- names
  | anyName | maybeName | alias | aliasAfterAs | explicitAlias
  -- calls
  | filter | over | windowBody | windowName | bound | exclusion
  | textLiteral
  /-- The target of a cast or conversion. -/
  | castTarget | castFormat | convertTarget
  | extractPart | fromOrComma
  | positionRest
  /-- Arguments of SUBSTRING: how many there are, and whether its start and length were read. -/
  | substringArguments (n : Nat)
  | substringMore (n : Nat) (start length : Bool)
  | trimValue | trimMore
  /-- A comma or this word. -/
  | commaOr (word : String)
  | maybeCommaOr (word : String) (more : List Goal)
  | joined (n : Nat) | moreJoined (n : Nat)
  | pairSeparator
  -- tables
  | table
  | tableName | tablePart | tableDots
  | tableAlias | tableAliasName | aliasColumns | columnNotes
  | tableVersion | tableHints | sample | sampleMethod | sampleSize
  | tableGroup
  | joins
  /-- The condition of a join; one that `nests` may hold further joins. -/
  | joinCondition (nests : Bool)
  | usingNames
  | laterals | lateralBody | lateralCall | lateralDots
  -- queries
  | statement
  /-- The statement after the named queries of a WITH, inside some parentheses. -/
  | mainStatement (depth : Nat)
  /-- What stands on the right of a set operator. -/
  | setOperand (t : Tail)
  | setOperator (t : Tail)
  | nested
  | quantifier | distinctOn
  | cte | moreCtes | searchKind
  | tail (t : Tail)
  | groups | moreGroups
  | fetchCount
  | locks
  | modeWords

abbrev word (w : String) : Goal := .token (.word w)
abbrev symbol (s : String) : Goal := .token (.symbol s)

namespace Goal

def isOptional : Goal → Bool
  | .token _ | .something | .counted _ _ _ | .moreCounted _ _ _ | .expression _ | .isValue
  | .operatorName | .path | .member | .parameter | .placeholderName | .intervalValue | .unitName
  | .typeName | .anyName | .exclusion | .textLiteral | .castTarget | .convertTarget | .extractPart
  | .fromOrComma | .positionRest | .substringArguments _ | .substringMore _ _ _ | .trimValue
  | .commaOr _ | .table | .tableName | .tablePart | .tableGroup | .lateralBody | .lateralCall
  | .statement | .mainStatement _ | .setOperand _ | .setOperator _ | .nested | .cte => false
  | .items _ needed => !needed
  | .joined n | .moreJoined n => 0 < n
  | .tail t => t.depth == 0
  | _ => true

end Goal

end Funnel.Sql
