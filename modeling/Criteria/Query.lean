import Criteria.Json
import Criteria.Keyword

/-!
# Criteria.Query

Queries as trees, and the three ways of writing one:

* `Query.text` is the query text itself, without blanks.
* `Query.structureText` spells out every part.
* `Query.toJson` is the query as a JSON value.

Nothing is validated: a tree may hold fields and values that no query text can express.
-/

namespace Criteria

/-- What a field is compared with. -/
inductive Value where
  | identifier (path : String)
  | string (s : String)
  | boolean (b : Bool)
  | integer (n : Int)
  | float (x : Binary64)
  deriving DecidableEq, Repr

namespace Value

def text : Value → String
  | .identifier path => path
  | .string s => "\"" ++ s ++ "\""
  | .boolean true => "true"
  | .boolean false => "false"
  | .integer n => intText n
  | .float x => Layout.plain.text x

def structureText : Value → String
  | .identifier path => "Identifier(path=" ++ Text.quoted path ++ ")"
  | .string s => "StringLiteral(value=" ++ Text.quoted s ++ ")"
  | .boolean b => "Boolean(value=" ++ (Json.bool b).display ++ ")"
  | .integer n => "IntegerLiteral(value=" ++ intText n ++ ")"
  | .float x => "FloatLiteral(value=" ++ Layout.mixed.text x ++ ")"

/-- The bare value, without its kind. -/
def operand : Value → Json
  | .identifier path => .string path
  | .string s => .string s
  | .boolean b => .bool b
  | .integer n => .int n
  | .float x => .float x

def typeName : Value → String
  | .identifier _ => "identifier"
  | .string _ => "string"
  | .boolean _ => "boolean"
  | .integer _ => "integer"
  | .float _ => "float"

def toJson (v : Value) : Json :=
  .object [("type", .string v.typeName), ("value", v.operand)]

/-- Equality of kind and value; floats agree as numbers do. -/
def same : Value → Value → Bool
  | .identifier a, .identifier b => a == b
  | .string a, .string b => a == b
  | .boolean a, .boolean b => a == b
  | .integer a, .integer b => a == b
  | .float a, .float b => a.same b
  | _, _ => false

end Value

/-- Which way a sorted field runs. -/
inductive Direction where
  | ascending
  | descending
  deriving DecidableEq, Repr

namespace Direction

def all : List Direction := [.ascending, .descending]

def sign : Direction → String
  | .ascending => "+"
  | .descending => "-"

def name : Direction → String
  | .ascending => "PLUS"
  | .descending => "MINUS"

def structureText (d : Direction) : String :=
  "<Prefix." ++ d.name ++ ": " ++ Text.quoted d.sign ++ ">"

def ofSign? (s : String) : Option Direction :=
  all.find? fun d => d.sign == s

end Direction

def Comparator.structureText (c : Comparator) : String :=
  "<Infix." ++ c.name ++ ": " ++ Text.quoted c.word ++ ">"

def Combinator.structureName : Combinator → String
  | .and => "And"
  | .or => "Or"

/-- A query. No text is read as a `sort` or as `none`. -/
inductive Query where
  | group (c : Combinator) (items : List Query)
  | filter (op : Comparator) (field : String) (value : Value)
  | sort (direction : Direction) (value : Value)
  | none

namespace Query

def isNone : Query → Bool
  | .none => true
  | _ => false

mutual

def text : Query → String
  | .group c items => c.word ++ "(" ++ ",".intercalate (texts items) ++ ")"
  | .filter op field value => op.word ++ "(" ++ field ++ "," ++ value.text ++ ")"
  | .sort d value => "sort(" ++ d.sign ++ value.text ++ ")"
  | .none => ""

def texts : List Query → List String
  | [] => []
  | q :: qs => text q :: texts qs

end

/-- A sequence in brackets; a single item keeps a comma after it. -/
def tupleText : List String → String
  | [s] => "(" ++ s ++ ",)"
  | ss => "(" ++ ", ".intercalate ss ++ ")"

mutual

def structureText : Query → String
  | .group c items => c.structureName ++ "(queries=" ++ tupleText (structureTexts items) ++ ")"
  | .filter op field value =>
    "Filter(infix=" ++ op.structureText ++ ", left=" ++ (Value.identifier field).structureText ++
      ", right=" ++ value.structureText ++ ")"
  | .sort d value =>
    "Sort(prefix=" ++ d.structureText ++ ", value=" ++ value.structureText ++ ")"
  | .none => "NoneQuery()"

def structureTexts : List Query → List String
  | [] => []
  | q :: qs => structureText q :: structureTexts qs

end

mutual

def toJson : Query → Json
  | .group c items => .object [(c.word, .array (toJsons items))]
  | .filter op field value =>
    .object [("filter", .object
      [("op", .string op.word), ("field", .string field), ("value", value.toJson)])]
  | .sort d value =>
    .object [("sort", .object [("direction", .string d.sign), ("value", value.toJson)])]
  | .none => .object []

def toJsons : List Query → List Json
  | [] => []
  | q :: qs => toJson q :: toJsons qs

end

mutual

/-- Equality of structure; floats agree as numbers do. -/
def same : Query → Query → Bool
  | .group c items, .group d others => c == d && sameAll items others
  | .filter op field value, .filter op' field' value' =>
    op == op' && field == field' && value.same value'
  | .sort d value, .sort d' value' => d == d' && value.same value'
  | .none, .none => true
  | _, _ => false

def sameAll : List Query → List Query → Bool
  | [], [] => true
  | q :: qs, r :: rs => same q r && sameAll qs rs
  | _, _ => false

end

mutual

/-- The filters of a query, in the order of the text. -/
def filters : Query → List (Comparator × String × Value)
  | .filter op field value => [(op, field, value)]
  | .group _ items => filtersAll items
  | _ => []

def filtersAll : List Query → List (Comparator × String × Value)
  | [] => []
  | q :: qs => filters q ++ filtersAll qs

end

end Query
end Criteria
