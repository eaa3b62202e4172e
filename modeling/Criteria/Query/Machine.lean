import Criteria.Query.Session
import Criteria.Token.Scanner

/-!
# Criteria.Query.Machine

The parser as a machine that scans as it goes: two tokens in sight, and a scanner that has read both.
It moves by `next` alone. Queries in lists are read by calls of `parseQuery` in a loop, kinds of
tokens are looked up in tables, and numerals are read by functions that may refuse them, so that a
machine has more ways to fail than the errors of `ParseError`: no key in a table, and a surrogate
that has no bytes.

A loop may take `n` turns, and the loops inside a turn as many as are left after it. `none` stands for
a reading that is not over by then; one without end is not over for any `n`. A machine may nest its
calls as deeply as a text asks for; the depth that a real one allows is left out.

* `parseQuery` reads one query, `queryList` and `items` the queries of a list.
* `perform` and `run` carry out the operations of a `Session`.
* `parse` reads the query at the start of a text.
-/

namespace Criteria

open Text

/-- Why a machine stops. -/
inductive Stop where
  | parse (e : ParseError)
  | missingKey (kind : Token.Kind)
  | unencodable (e : EncodeError)
  deriving DecidableEq, Repr

/-- The name that reports give to it. -/
def Stop.name : Stop → String
  | .parse e => e.name
  | .missingKey _ => "KeyError"
  | .unencodable _ => "UnicodeEncodeError"

structure Machine where
  current : Token := { kind := .illegal }
  peek : Token := { kind := .illegal }
  scanner : Scanner
  errors : List ParseError := []
  deriving DecidableEq, Repr

namespace Machine

abbrev Run (α : Type) : Type := ExceptT Stop (StateT Machine Option) α

def fail {α : Type} (e : ParseError) : Run α := throw (.parse e)

/-- A reading that is not over. -/
def unfinished {α : Type} : Run α := fun _ => none

/-! ## Moves -/

/-- Takes the next token from the scanner. -/
def scan : Run Token := do
  match (← get).scanner.nextToken with
  | .ok t scanner =>
    modify fun m => { m with scanner }
    return t
  | .error e scanner =>
    modify fun m => { m with scanner }
    throw (.unencodable e)

/-- Moves on to the next token. -/
def next : Run Unit := do
  modify fun m => { m with current := m.peek }
  let t ← scan
  modify fun m => { m with peek := t }

/-- Moves on to the next token if it is of the given kind. -/
def expectPeek (kind : Token.Kind) (what : Expectation) : Run Unit := do
  if (← get).peek.kind ≠ kind then fail (.expected what (← get).peek)
  next

/-- A machine on the tokens that a scanner still has. -/
def start : Run Unit := do
  next
  next

/-! ## Values -/

def identifier : Run String := do
  let t := (← get).current
  if t.kind ≠ .ident then fail (.expected .identifier t)
  return t.literal

def integer : Run Value := do
  let t := (← get).current
  if t.kind ≠ .int then fail (.expected .integer t)
  match intOfText? t.literal with
  | none => fail (.numeral .integer t.literal)
  | some n =>
    if int64Min ≤ n ∧ n ≤ int64Max then return .integer n
    else fail (.numeral .integer t.literal)

def float : Run Value := do
  let t := (← get).current
  if t.kind ≠ .float then fail (.expected .float t)
  match floatOfText? t.literal with
  | none => fail (.numeral .float t.literal)
  | some x => if x.isFinite then return .float x else fail (.numeral .float t.literal)

def string : Run Value := do
  let t := (← get).current
  if t.kind ≠ .str then fail (.expected .string t)
  return .string t.literal

def boolean : Run Value := do
  let t := (← get).current
  if t.kind = .keyword (.truth true) then return .boolean true
  else if t.kind = .keyword (.truth false) then return .boolean false
  else fail (.expected .boolean t)

/-! ## Tables -/

def comparators : List (Token.Kind × Comparator) :=
  Comparator.all.map fun c => (.keyword (.comparator c), c)

/-- The keywords without a query of their own. -/
def reservedKinds : List Token.Kind :=
  Reserved.all.map fun r => .keyword (.reserved r)

/-- The words of these keywords. -/
def reservedNames : List (Token.Kind × String) :=
  (Keyword.all.map fun k => (Token.Kind.keyword k, k.word)).filter fun e =>
    reservedKinds.contains e.1

/-- The readers of values. -/
def valueReaders : List (Token.Kind × Run Value) :=
  [(.ident, Value.identifier <$> identifier), (.int, integer), (.float, float), (.str, string),
    (.keyword (.truth true), boolean), (.keyword (.truth false), boolean)]

/-- Reads a value of the kind that the current token is. -/
def value : Run Value := do
  let t := (← get).current
  match valueReaders.lookup t.kind with
  | none => fail (.expected .value t)
  | some read => read

/-! ## Queries -/

/-- Reads `( identifier , value )`. -/
def operands (op : Comparator) : Run Query := do
  expectPeek .lparen .lparen
  next
  let field ← identifier
  expectPeek .comma .comma
  next
  let value ← value
  expectPeek .rparen .rparen
  next
  return .filter op field value

/-- Reads a comparator and its operands. -/
def parseFilter : Run Query := do
  let t := (← get).current
  match comparators.lookup t.kind with
  | none => fail (.expected .comparator t)
  | some op => operands op

def parseSort : Run Query := fail (.unsupported Reserved.sort.word)

/-- Refuses a keyword without a query of its own. -/
def refuseReserved (kind : Token.Kind) : Run Query :=
  match reservedNames.lookup kind with
  | some word => fail (.unsupported word)
  | none => throw (.missingKey kind)

def skipComma : Run Unit := do
  if (← get).current.kind = .comma then next

mutual

/-- Reads one query. -/
def parseQuery (n : Nat) : Run Query := do
  let kind := (← get).current.kind
  if kind = .keyword (.combinator .and) then return .group .and (← queryList n)
  else if kind = .keyword (.combinator .or) then return .group .or (← queryList n)
  else if kind = .keyword (.reserved .sort) then parseSort
  else if reservedKinds.contains kind then refuseReserved kind
  else parseFilter
termination_by (n, 2)

/-- Reads `( list )` after a combinator. -/
def queryList (n : Nat) : Run (List Query) := do
  expectPeek .lparen .lparen
  next
  let qs ← items n []
  next
  return qs
termination_by (n, 1)

/-- The loop over the items of a list: each turn reads a query and skips a comma. -/
def items (n : Nat) (done : List Query) : Run (List Query) := do
  if (← get).current.kind = .rparen then return done
  else
    match n with
    | 0 => unfinished
    | n + 1 =>
      let q ← parseQuery n
      skipComma
      items n (done ++ [q])
termination_by (n, 0)

end

/-! ## Operations -/

/-- Carries out one operation. -/
def perform (n : Nat) : Session.Operation → Run Session.Reply
  | .query => .query <$> parseQuery n
  | .filter => .query <$> parseFilter
  | .sort => .query <$> parseSort
  | .list => .queries <$> queryList n
  | .identifier => (fun path => .value (.identifier path)) <$> identifier
  | .integer => .value <$> integer
  | .float => .value <$> float
  | .string => .value <$> string
  | .boolean => .value <$> boolean
  | .hasValue => return .flag (valueReaders.lookup (← get).current.kind).isSome
  | .next => (fun _ => .moved) <$> next

/-- Carries out operations one after the other, also after one that failed, and lists the replies,
each with the machine after it. -/
def run (n : Nat) (m : Machine) :
    List Session.Operation → Option (List (Except Stop Session.Reply × Machine))
  | [] => some []
  | op :: ops => do
    let r ← perform n op m
    let rs ← r.2.run n ops
    return r :: rs

/-- The query at the start of a text; what follows it is left alone. -/
def parse (n : Nat) (ps : List Point) : Option (Except Stop Query) :=
  ((start >>= fun _ => parseQuery n) { scanner := .ofPoints ps }).map Prod.fst

end Machine
end Criteria
