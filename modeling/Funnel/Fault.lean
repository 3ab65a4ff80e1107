/-!
# Faults

Everything that can go wrong, by cause. The wording of each message is in `Fault.message?`; the
causes that stand for a misuse of a value have no message of their own.
-/

set_option autoImplicit false

namespace Funnel

/-- A rule that the data of a request or response breaks. -/
inductive Rule where
  | missing
  | stringType
  | listType
  | dictType
  | modelType
  | modelAttributesType
  | enumMember
  | floatType
  | floatParsing
  | intType
  | intParsing
  | intFromFloat
  | finiteNumber
  | literal
  | unionTagNotFound
  | unionTagInvalid
  | jsonInvalid
deriving DecidableEq, Repr

def Rule.text : Rule → String
  | .missing => "missing"
  | .stringType => "string_type"
  | .listType => "list_type"
  | .dictType => "dict_type"
  | .modelType => "model_type"
  | .modelAttributesType => "model_attributes_type"
  | .enumMember => "enum"
  | .floatType => "float_type"
  | .floatParsing => "float_parsing"
  | .intType => "int_type"
  | .intParsing => "int_parsing"
  | .intFromFloat => "int_from_float"
  | .finiteNumber => "finite_number"
  | .literal => "literal_error"
  | .unionTagNotFound => "union_tag_not_found"
  | .unionTagInvalid => "union_tag_invalid"
  | .jsonInvalid => "json_invalid"

/-- One step on the way to a piece of data: a field or the place in a list. -/
inductive Step where
  | field (name : String)
  | index (place : Nat)
deriving DecidableEq, Repr

structure Violation where
  rule : Rule
  path : List Step
deriving DecidableEq, Repr

/-- Why a statement was not let through to the store. -/
inductive Refusal where
  | empty
  | writes (keyword : String)
  | badSyntax
  | notSelect
deriving DecidableEq, Repr

def Refusal.message : Refusal → String
  | .empty => "Empty SQL query."
  | .writes keyword => "Write operations are not allowed: " ++ keyword
  | .badSyntax => "SQL syntax error"
  | .notSelect => "Only SELECT queries are allowed."

inductive Fault where
  /-- The request was rejected before any query was built. -/
  | invalidRequest (reasons : List String)
  /-- The metric catalog contradicts itself. -/
  | brokenCatalog (problems : List String)
  /-- The store refused a query or gave no usable rows. -/
  | queryFailed (reason : String)
  /-- The read-only guard refused a statement. -/
  | unsafeQuery (refusal : Refusal)
  /-- The parser of statements failed in a way of its own. -/
  | parserFailed (name : String)
  /-- A value is none of the members of a closed set. -/
  | notAMember (shown kind : String)
  /-- No query plan exists for a formula. -/
  | noPlan (formula : String)
  /-- The store's address and key are not set. -/
  | notConfigured
  /-- Data does not have the shape of a request or response. -/
  | invalidData (violations : List Violation)
  /-- A field was asked of a value that has none. -/
  | noSuchField
  /-- A value of the wrong kind was used. -/
  | wrongKind
  /-- An entry was asked for under a key that is not there. -/
  | noSuchKey
  /-- An entry was asked for beyond the end of a list. -/
  | outOfBounds
  /-- A date or number is beyond its range. -/
  | outOfRange
  /-- A value cannot be read or has no counterpart. -/
  | badValue
  /-- An operation on decimals has no number as its result. -/
  | invalidOperation
  /-- A result is beyond the largest decimal. -/
  | tooLarge
deriving DecidableEq, Repr

def Fault.message? : Fault → Option String
  | .invalidRequest reasons => some ("Invalid metric request: " ++ ", ".intercalate reasons)
  | .brokenCatalog problems => some ("; ".intercalate problems)
  | .queryFailed reason => some reason
  | .unsafeQuery refusal => some refusal.message
  | .notAMember shown kind => some (shown ++ " is not a valid " ++ kind)
  | .noPlan formula => some ("No SQL plan for formula '" ++ formula ++ "'")
  | .notConfigured => some "SUPABASE_URL and SUPABASE_SERVICE_KEY must be set"
  | _ => none

end Funnel
