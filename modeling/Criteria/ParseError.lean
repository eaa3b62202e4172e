import Criteria.Token

/-!
# Criteria.ParseError

Why a text is not a query, and the words for it.
-/

namespace Criteria

/-- What was expected where something else stood. -/
inductive Expectation where
  | token
  | query
  | comparator
  | value
  | more
  | identifier
  | boolean
  | integer
  | float
  | string
  | lparen
  | rparen
  | comma
  deriving DecidableEq, Repr

namespace Expectation

def phrase : Expectation → String
  | .token => "token"
  | .query => "query"
  | .comparator => "comparator (eq, ne, le, ge, lt, gt)"
  | .value => "value (identifier, number, string or boolean)"
  | .more => "more input"
  | .identifier => "identifier"
  | .boolean => "boolean"
  | .integer => "integer"
  | .float => "float"
  | .string => "string"
  | .lparen => "'('"
  | .rparen => "')'"
  | .comma => "','"

/-- The name that reports give to the error. -/
def errorName : Expectation → String
  | .token => "ExpectedTokenError"
  | .query => "ExpectedQueryTokenError"
  | .comparator => "ExpectedFilterTokenError"
  | .value => "ExpectedValueTokenError"
  | .more => "ExpectedSomethingTokenError"
  | .identifier => "ExpectedIdentifierTokenError"
  | .boolean => "ExpectedBooleanTokenError"
  | .integer => "ExpectedIntegerTokenError"
  | .float => "ExpectedFloatTokenError"
  | .string => "ExpectedStringTokenError"
  | .lparen => "ExpectedLparenError"
  | .rparen => "ExpectedRparenError"
  | .comma => "ExpectedCommaError"

/-- The classes of the error, from the narrowest on. -/
def classes (e : Expectation) : List String :=
  if e = .token then [e.errorName] else [e.errorName, Expectation.token.errorName]

def all : List Expectation :=
  [.token, .query, .comparator, .value, .more, .identifier, .boolean, .integer, .float, .string,
    .lparen, .rparen, .comma]

end Expectation

/-- What a numeral was to be. -/
inductive Numeral where
  | number
  | integer
  | float
  deriving DecidableEq, Repr

namespace Numeral

def phrase : Numeral → String
  | .number => "number"
  | .integer => "integer"
  | .float => "float"

def errorName : Numeral → String
  | .number => "NumericLiteralError"
  | .integer => "ParseIntError"
  | .float => "ParseFloatError"

/-- The classes of the error, from the narrowest on. -/
def classes (n : Numeral) : List String :=
  if n = .number then [n.errorName] else [n.errorName, Numeral.number.errorName]

def all : List Numeral := [.number, .integer, .float]

end Numeral

/-- Why a text is not a query. -/
inductive ParseError where
  /-- Something else was expected than this token. -/
  | expected (what : Expectation) (found : Token)
  /-- The numeral stands for no number of its kind. -/
  | numeral (what : Numeral) (literal : String)
  /-- The word is reserved for a query that is not there yet. -/
  | unsupported (feature : String)
  /-- Any other reason, in its own words. -/
  | other (reason : String)
  deriving DecidableEq, Repr

namespace ParseError

def message : ParseError → String
  | .expected what found =>
    "Expected " ++ what.phrase ++ " at position " ++ intText found.pos ++ ", got " ++ found.describe
  | .numeral what literal => "Invalid " ++ what.phrase ++ " literal: " ++ literal
  | .unsupported feature => "'" ++ feature ++ "' is not supported yet"
  | .other reason => reason

/-- The name that reports give to the error. -/
def name : ParseError → String
  | .expected what _ => what.errorName
  | .numeral what _ => what.errorName
  | .unsupported _ => "NotImplementedFeatureError"
  | .other _ => "ParserError"

/-- The classes of the error, from the narrowest on. -/
def classes : ParseError → List String
  | .expected what _ => what.classes ++ ["ParserError", "RQLError"]
  | .numeral what _ => what.classes ++ ["ParserError", "RQLError"]
  | .unsupported _ => ["NotImplementedFeatureError", "ParserError", "RQLError"]
  | .other _ => ["ParserError", "RQLError"]

end ParseError
end Criteria
