/-!
# Signatures of functions

How many arguments the known functions take. A function without a signature takes any number, and
its arguments may have aliases.
-/

set_option autoImplicit false

namespace Funnel.Sql

/-- The numbers of arguments that a function takes; without `most` there is no end to them. -/
structure Signature where
  least : Nat
  most : Option Nat
deriving DecidableEq, Repr

namespace Signature

def any : Signature := ⟨0, none⟩

def exactly (n : Nat) : Signature := ⟨n, some n⟩

def between (least most : Nat) : Signature := ⟨least, some most⟩

def atLeast (least : Nat) : Signature := ⟨least, none⟩

/-- Whether a call with `n` arguments can go on with another one. -/
def admits (s : Signature) (n : Nat) : Bool := s.most.all (n < ·)

/-- Whether a call can end with `n` arguments. -/
def accepts (s : Signature) (n : Nat) : Bool := s.least ≤ n && s.most.all (n ≤ ·)

end Signature

/-- The known functions by how many arguments they take. -/
def signatures : List (Signature × List String) :=
  [ (.exactly 0, ["CURRENT_DATABASE", "PI"]),
    (.between 0 1, ["CURRENT_DATE", "CURRENT_SCHEMA", "CURRENT_TIME", "CURRENT_USER", "LOCALTIME",
      "LOCALTIMESTAMP", "NTILE", "ROW_NUMBER"]),
    (.between 0 2, ["CURRENT_TIMESTAMP", "GEN_RANDOM_UUID", "GENERATE_UUID", "LOG10", "LOG2",
      "MODE", "NOW", "TIME", "UUID"]),
    (.between 0 3, ["RAND", "RANDOM"]),
    (.between 0 4, ["TIMESTAMP"]),
    (.between 0 7, ["MAKE_INTERVAL"]),
    (.exactly 1, ["ABS", "ACOS", "ACOSH", "ANY_VALUE", "ASCII", "ASIN", "ASINH", "ATANH", "AVG",
      "BIT_AND", "BIT_LENGTH", "BIT_OR", "BIT_XOR", "BOOL_AND", "BOOL_OR", "BOOLAND_AGG",
      "BOOLOR_AGG", "BYTE_LENGTH", "CBRT", "COS", "COSH", "COT", "COTH", "COUNT_IF", "COUNTIF",
      "CSC", "CSCH", "DAY", "DAYOFMONTH", "DAYOFWEEK", "DAYOFYEAR", "DAY_OF_MONTH", "DAY_OF_WEEK",
      "DAY_OF_YEAR", "DEGREES", "EXP", "FACTORIAL", "FIRST_VALUE", "HEX", "HOUR", "IS_INF",
      "IS_NAN", "ISINF", "ISNAN", "JUSTIFY_DAYS", "JUSTIFY_HOURS", "JUSTIFY_INTERVAL",
      "LAST_VALUE", "LCASE", "LN", "LOGICAL_AND", "LOGICAL_OR", "LOWER", "MD5", "MEDIAN", "MINUTE",
      "MONTH", "QUARTER", "RADIANS", "REVERSE", "SEC", "SECH", "SECOND", "SHA", "SHA1", "SIGN",
      "SIGNUM", "SIN", "SINH", "SOUNDEX", "SPACE", "SQRT", "STDDEV", "STDDEV_POP", "STDDEV_SAMP",
      "STDEV", "SUM", "TAN", "TANH", "TO_HEX", "TYPEOF", "UCASE", "UNICODE", "UPPER", "VAR_POP",
      "VAR_SAMP", "VARIANCE", "VARIANCE_POP", "VARIANCE_SAMP", "WEEKOFYEAR", "WEEK_OF_YEAR",
      "YEAR"]),
    (.between 1 2, ["APPROX_COUNT_DISTINCT", "APPROX_DISTINCT", "ARRAY_AGG", "ARRAY_LENGTH",
      "ARRAY_SIZE", "ARRAY_SORT", "ARRAY_SUM", "ATAN", "EXISTS", "FIRST", "INITCAP", "LAST",
      "LAST_DAY", "LOG",
      "PARSE_JSON", "PERCENTILE_CONT", "PERCENTILE_DISC", "SHA2", "SHA256", "SHA384", "SHA512",
      "STRING", "TO_ARRAY", "TRUNC", "TRUNCATE", "UNHEX", "WEEK"]),
    (.between 1 3, ["CEILING", "CHAR_LENGTH", "CHARACTER_LENGTH", "GROUP_CONCAT", "LAG", "LEAD",
      "LEN", "LENGTH", "ROUND", "SPLIT_PART", "STRING_TO_ARRAY", "SUBSTR"]),
    (.between 1 4, ["LTRIM", "RTRIM", "TO_DATE"]),
    (.between 1 5, ["JSON_OBJECT_AGG", "TO_TIMESTAMP"]),
    (.between 1 6, ["LEVENSHTEIN", "TO_NUMBER"]),
    (.exactly 2, ["ARRAY_CONTAINS_ALL", "ATAN2", "CONTAINS", "ENCODE", "ENDS_WITH", "ENDSWITH",
      "FILTER", "GET_BIT", "GLOB", "JSONB_OBJECT_AGG", "NULLIF", "POW", "POWER", "REPEAT",
      "STARTS_WITH", "STARTSWITH"]),
    (.between 2 3, ["ARRAY_APPEND", "ARRAY_CONTAINS", "ARRAY_JOIN", "ARRAY_POSITION",
      "ARRAY_PREPEND", "ARRAY_REMOVE", "ARRAY_TO_STRING", "CORR", "COVAR_POP", "COVAR_SAMP",
      "DATE_ADD", "DATE_SUB", "IIF", "LEFT", "LIKE", "NTH_VALUE", "NVL2", "REGEXP_SPLIT", "REPLACE",
      "RIGHT", "SPLIT"]),
    (.between 2 4, ["DATE_TRUNC", "GENERATE_SERIES", "LPAD", "REGEXP_COUNT", "REGEXP_LIKE", "RPAD",
      "TO_CHAR", "WIDTH_BUCKET"]),
    (.between 2 5, ["DATE_DIFF", "DATEDIFF", "INSTR", "STRPOS"]),
    (.between 2 6, ["REGEXP_EXTRACT"]),
    (.between 2 7, ["REGEXP_INSTR", "REGEXP_REPLACE"]),
    (.exactly 3, ["TRANSLATE"]),
    (.between 3 4, ["DATE_FROM_PARTS", "DATEFROMPARTS"]),
    (.between 3 6, ["MAKE_TIME"]),
    (.any, ["ARRAY", "COUNT", "CUME_DIST", "DATE", "DENSE_RANK", "DIV", "JSON_ARRAY",
      "PERCENT_RANK", "RANK"]),
    (.atLeast 1, ["ARRAY_CAT", "ARRAY_CONCAT", "COALESCE", "CONCAT", "CONCAT_WS", "FORMAT",
      "GREATEST", "IFNULL", "JSON_EXTRACT_PATH", "JSON_EXTRACT_PATH_TEXT", "LEAST", "MAX", "MIN",
      "NVL", "UNNEST"]),
    (.atLeast 2, ["ARG_MAX", "ARG_MIN", "ARGMAX", "ARGMIN", "DECODE", "JSON_EXTRACT",
      "JSON_EXTRACT_SCALAR", "MAX_BY", "MIN_BY", "MOD"])]

def signature? (name : String) : Option Signature :=
  (signatures.find? fun s => s.2.contains name).map (·.1)

end Funnel.Sql
