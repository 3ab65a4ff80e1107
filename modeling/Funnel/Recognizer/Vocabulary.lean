/-!
# SQL vocabulary

What a word without quotes can be: a reserved word, a keyword that is also a name, the name of a
type, or a free word. All words are in upper case; a pair of words that is one keyword has one
blank between them.
-/

set_option autoImplicit false

namespace Funnel.Sql

/-- Words that are no names. VALUES is one where no list of rows follows it. -/
def reservedWords : List String :=
  ["SELECT", "FROM", "WHERE", "HAVING", "QUALIFY", "FETCH", "FOR", "UNION", "EXCEPT", "INTERSECT",
    "JOIN", "INNER", "OUTER", "CROSS", "STRAIGHT_JOIN", "LATERAL", "TABLESAMPLE", "ON", "USING",
    "INTO", "WITH", "AS", "AND", "OR", "XOR", "NOT", "IN", "LIKE", "ILIKE", "RLIKE", "REGEXP",
    "GLOB", "BETWEEN", "NOTNULL", "OVER", "WHEN", "THEN", "ELSE", "DISTINCT", "VALUES",
    "RETURNING", "GROUP BY", "ORDER BY", "PARTITION BY", "PARTITIONED BY", "CLUSTER BY",
    "DISTRIBUTE BY", "SORT BY", "CONNECT BY", "START WITH", "SIMILAR TO", "GROUPING SETS",
    "CHARACTER SET", "FOR VERSION", "FOR TIMESTAMP"]

/-- Reserved words that can be called as functions all the same. -/
def reservedFunctions : List String :=
  ["GLOB", "ILIKE", "LIKE", "RLIKE", "REGEXP", "XOR"]

/-- Keywords that are names, and functions where parentheses follow. -/
def functionKeywords : List String :=
  ["ALL", "ANY", "CALL", "COLLATE", "CURRENT_CATALOG", "CURRENT_DATE", "CURRENT_SCHEMA",
    "CURRENT_TIME", "CURRENT_TIMESTAMP", "CURRENT_USER", "DECLARE", "DO", "EXEC", "EXISTS",
    "EXPLAIN", "FILTER", "FIRST", "FORMAT", "INDEX", "ISNULL", "LEFT", "LOCALTIME",
    "LOCALTIMESTAMP", "NEXT", "OFFSET", "OPTIMIZE", "PREPARE", "PRIMARY KEY", "RANGE", "REFRESH",
    "REINDEX", "REPLACE", "RESET", "RIGHT", "ROW", "SEQUENCE", "SESSION_USER", "SOME", "TABLE",
    "UNNEST", "VACUUM", "WINDOW"]

/-- Keywords that are names and never functions. -/
def nameKeywords : List String :=
  ["ANALYZE", "ANTI", "APPLY", "ASC", "ASOF", "AUTOINCREMENT", "AUTO_INCREMENT", "BEGIN", "CACHE",
    "CASE", "COLUMN", "COMMENT", "COMMIT", "CONSTRAINT", "CUBE", "DATABASE", "DEFAULT", "DESC",
    "DESCRIBE", "END", "ESCAPE", "EXECUTE", "FALSE", "FOREIGN KEY", "FULL", "FUNCTION", "IS",
    "KEEP", "KILL", "LIMIT", "LOAD", "LOCK", "NAMESPACE", "NATURAL", "ONLY", "OPERATOR",
    "ORDINALITY", "OVERLAPS", "OVERWRITE", "PARTITION", "PERCENT", "PIVOT", "PRAGMA", "PROCEDURE",
    "RECURSIVE", "REFERENCES", "RENAME", "ROLLBACK", "ROLLUP", "ROWS", "SCHEMA", "SEMI", "SESSION",
    "SET", "SETTINGS", "SHOW", "TEMP", "TEMPORARY", "TRUE", "UNCACHE", "UNIQUE", "UNPIVOT", "USE",
    "VIEW", "VOLATILE"]

def zonedTypes : List String := ["TIME", "TIMETZ", "TIMESTAMP", "TIMESTAMPTZ", "TIMESTAMPLTZ",
  "TIMESTAMP_LTZ", "TIMESTAMPNTZ", "TIMESTAMP_NTZ"]

def typeWords : List String :=
  zonedTypes ++
  ["ARRAY", "BIGDECIMAL", "BIGINT", "BIGNUM", "BIGNUMERIC", "BIGSERIAL", "BINARY", "BIT", "BLOB",
    "BOOL", "BOOLEAN", "BPCHAR", "BYTE", "BYTEA", "CHAR", "CHAR VARYING", "CHARACTER",
    "CHARACTER VARYING", "CLOB", "CSTRING", "DATE", "DATEMULTIRANGE", "DATERANGE", "DATETIME",
    "DEC", "DECFLOAT", "DECIMAL", "DOUBLE", "DOUBLE PRECISION", "ENUM", "FILE", "FIXED", "FLOAT",
    "FLOAT4", "FLOAT8", "GEOGRAPHY", "GEOMETRY", "HSTORE", "HUGEINT", "INET", "INT", "INT1",
    "INT128", "INT16", "INT2", "INT256", "INT32", "INT4", "INT4MULTIRANGE", "INT4RANGE", "INT64",
    "INT8", "INT8MULTIRANGE", "INT8RANGE", "INTEGER", "INTERVAL", "JSON", "JSONB", "LIST", "LONG",
    "LONGBLOB", "LONGTEXT", "LONGVARCHAR", "MAP", "MEDIUMBLOB", "MEDIUMINT", "MEDIUMTEXT", "MONEY",
    "NAME", "NCHAR", "NULL", "NULLABLE", "NUMBER", "NUMERIC", "NUMMULTIRANGE", "NUMRANGE",
    "NVARCHAR", "NVARCHAR2", "OBJECT", "OID", "POINT", "REAL", "REGCLASS", "REGCOLLATION",
    "REGCONFIG", "REGDICTIONARY", "REGNAMESPACE", "REGOPER", "REGOPERATOR", "REGPROC",
    "REGPROCEDURE", "REGROLE", "REGTYPE", "SERIAL", "SHORT", "SMALLINT", "SMALLSERIAL", "STR",
    "STRING", "STRUCT", "TEXT", "TINYBLOB", "TINYINT", "TINYTEXT", "TSMULTIRANGE", "TSRANGE",
    "TSTZMULTIRANGE", "TSTZRANGE", "UHUGEINT", "UINT", "UINT128", "UINT256", "UNKNOWN", "UUID",
    "VARBINARY", "VARCHAR", "VARCHAR2", "VARIANT", "VECTOR", "XML"]

def isName (w : String) : Bool := !reservedWords.contains w

def isType (w : String) : Bool := typeWords.contains w

def isFree (w : String) : Bool :=
  !(reservedWords.contains w || functionKeywords.contains w || nameKeywords.contains w ||
    isType w)

def isFunction (w : String) : Bool :=
  if reservedWords.contains w then reservedFunctions.contains w else !nameKeywords.contains w

/-- Names that are no alias of a column: they start a clause there. -/
def clauseNames : List String := ["LIMIT", "OFFSET"]

/-- Names that are no alias of a table. -/
def joinNames : List String :=
  clauseNames ++ ["ANTI", "ASOF", "FULL", "LEFT", "LOCK", "NATURAL", "RIGHT", "SEMI", "WINDOW"]

def timeUnits : List String :=
  ["MICROSECOND", "MICROSECONDS", "MILLISECOND", "MILLISECONDS", "NANOSECOND", "NANOSECONDS",
    "SECOND", "SECONDS", "MINUTE", "MINUTES", "HOUR", "HOURS", "DAY", "DAYS", "DAYOFWEEK",
    "DAYOFYEAR", "DOW", "DOY", "ISODOW", "ISOYEAR", "WEEK", "WEEKS", "MONTH", "MONTHS", "MON",
    "MONS", "QUARTER", "QUARTERS", "YEAR", "YEARS", "DECADE", "DECADES", "CENTURY", "CENTURIES",
    "MILLENNIUM", "MILLENNIUMS", "MILLENNIA", "MILLENIUM", "EPOCH", "TIMEZONE", "TIMEZONE_HOUR",
    "TIMEZONE_MINUTE", "D", "H", "M", "Q", "S", "W", "Y", "MIN", "MINS", "SEC", "SECS", "HR",
    "HRS", "HH", "MI", "MM", "SS", "MS", "US", "NS", "YY", "YYY", "YYYY", "YR", "YRS", "WK", "DD",
    "MSEC", "USEC", "NSEC"]

end Funnel.Sql
