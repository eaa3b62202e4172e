import Criteria.Number.Decimal
import Criteria.Text.Quoted

/-!
# Criteria.Json

JSON values with their members in the order in which they were given, and two ways of writing them:

* `Json.text` is JSON on one line, a blank after each comma and colon.
* `Json.display` is the value in the words of messages: texts as they are, `True`, `None`.
-/

namespace Criteria

/-- A JSON value; whole numbers and numbers with a fraction are kept apart. -/
inductive Json where
  | null
  | bool (b : Bool)
  | int (n : Int)
  | float (x : Binary64)
  | string (s : String)
  | array (items : List Json)
  | object (members : List (String × Json))
  deriving Inhabited

namespace Json

/-- The member of that name, if the value is an object that has one. -/
def get? (j : Json) (name : String) : Option Json :=
  match j with
  | .object members => members.lookup name
  | _ => none

def strings (xs : List String) : Json :=
  .array (xs.map .string)

mutual

/-- How deeply values are nested in one another. -/
def depth : Json → Nat
  | .array items => depths items + 1
  | .object members => memberDepths members + 1
  | _ => 1

def depths : List Json → Nat
  | [] => 0
  | j :: js => max (depth j) (depths js)

def memberDepths : List (String × Json) → Nat
  | [] => 0
  | (_, j) :: ms => max (depth j) (memberDepths ms)

end

/-- Nothing, zero, and what is empty count as false. -/
def truthy : Json → Bool
  | .null => false
  | .bool b => b
  | .int n => n != 0
  | .float x => !x.same .zero
  | .string s => !s.isEmpty
  | .array items => !items.isEmpty
  | .object members => !members.isEmpty

/-- A character inside a JSON string: quote, backslash and controls are escaped, all else stands. -/
def escape (c : Char) : List Char :=
  if c == '"' || c == '\\' then ['\\', c]
  else if c == '\n' then ['\\', 'n']
  else if c == '\r' then ['\\', 'r']
  else if c == '\t' then ['\\', 't']
  else if c == '\x08' then ['\\', 'b']
  else if c == '\x0c' then ['\\', 'f']
  else if c.toNat < 0x20 then ['\\', 'u'] ++ Text.hex 4 c.toNat
  else [c]

def stringText (s : String) : String :=
  String.ofList ('"' :: (s.toList.flatMap escape ++ ['"']))

def floatText (x : Binary64) : String :=
  if x.isFinite then Layout.mixed.text x
  else if x.isNaN then "NaN"
  else if x.negative then "-Infinity" else "Infinity"

mutual

/-- The value on one line. -/
def text : Json → String
  | .null => "null"
  | .bool true => "true"
  | .bool false => "false"
  | .int n => intText n
  | .float x => floatText x
  | .string s => stringText s
  | .array items => "[" ++ ", ".intercalate (texts items) ++ "]"
  | .object members => "\x7b" ++ ", ".intercalate (memberTexts members) ++ "\x7d"

def texts : List Json → List String
  | [] => []
  | j :: js => text j :: texts js

def memberTexts : List (String × Json) → List String
  | [] => []
  | (name, j) :: ms => (stringText name ++ ": " ++ text j) :: memberTexts ms

end

mutual

/-- The value inside a list or an object that is displayed: texts are quoted there. -/
def displayInner : Json → String
  | .null => "None"
  | .bool true => "True"
  | .bool false => "False"
  | .int n => intText n
  | .float x => Layout.mixed.text x
  | .string s => Text.quoted s
  | .array items => "[" ++ ", ".intercalate (displays items) ++ "]"
  | .object members => "\x7b" ++ ", ".intercalate (memberDisplays members) ++ "\x7d"

def displays : List Json → List String
  | [] => []
  | j :: js => displayInner j :: displays js

def memberDisplays : List (String × Json) → List String
  | [] => []
  | (name, j) :: ms => (Text.quoted name ++ ": " ++ displayInner j) :: memberDisplays ms

end

/-- The value in the words of messages. -/
def display : Json → String
  | .string s => s
  | j => j.displayInner

end Json
end Criteria
