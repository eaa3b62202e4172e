import Criteria.Keyword
import Criteria.Number.Decimal
import Criteria.Text.Quoted

/-!
# Criteria.Token

Tokens of a query text: what kind they are, the text they carry, and where they start.
-/

namespace Criteria

namespace Token

inductive Kind where
  | illegal
  | eof
  | ident
  | int
  | float
  | str
  | keyword (k : Keyword)
  | plus
  | minus
  | comma
  | lparen
  | rparen
  deriving DecidableEq, Repr

namespace Kind

/-- All kinds, in the order in which they are numbered. -/
def all : List Kind :=
  [.illegal, .eof, .ident, .int, .float, .str,
    .keyword (.truth true), .keyword (.truth false),
    .keyword (.combinator .and), .keyword (.combinator .or), .plus, .minus] ++
  Reserved.all.map (fun r => .keyword (.reserved r)) ++
  Comparator.all.map (fun c => .keyword (.comparator c)) ++
  [.comma, .lparen, .rparen]

/-- The place in `all`, from one on. -/
def number (k : Kind) : Nat := all.idxOf k + 1

def name : Kind → String
  | .illegal => "ILLEGAL"
  | .eof => "EOF"
  | .ident => "IDENT"
  | .int => "INT"
  | .float => "FLOAT"
  | .str => "STR"
  | .keyword k => k.name
  | .plus => "PLUS"
  | .minus => "MINUS"
  | .comma => "COMMA"
  | .lparen => "LPAREN"
  | .rparen => "RPAREN"

def ofName? (n : String) : Option Kind :=
  all.find? fun k => k.name == n

end Kind
end Token

/-- A token. The literal is empty unless the kind carries a text of its own: identifiers, numbers,
strings and illegal characters. The position is the number of bytes before the token. -/
structure Token where
  kind : Token.Kind
  literal : String := ""
  pos : Int := 0
  deriving DecidableEq, Repr

namespace Token

def text (t : Token) : String :=
  match t.kind with
  | .str => "\"" ++ t.literal ++ "\""
  | .ident | .int | .float => t.literal
  | .keyword k => k.word
  | .illegal => "ILLEGAL"
  | .eof => "EOF"
  | .plus => "+"
  | .minus => "-"
  | .comma => ","
  | .lparen => "("
  | .rparen => ")"

/-- How messages speak of the token. -/
def describe (t : Token) : String :=
  match t.kind with
  | .eof => "end of input"
  | .illegal => "illegal character " ++ Text.quoted t.literal
  | _ => "'" ++ t.text ++ "'"

/-- All that the token holds, spelt out. -/
def structureText (t : Token) : String :=
  "Token(type=<TokenType." ++ t.kind.name ++ ": " ++ toString t.kind.number ++ ">, literal=" ++
    Text.quoted t.literal ++ ", pos=" ++ intText t.pos ++ ")"

/-- Equality wherever the tokens stand. -/
def same (a b : Token) : Bool :=
  a.kind == b.kind && a.literal == b.literal

/-- A word is a keyword or an identifier. -/
def ofWord (w : String) (pos : Int) : Token :=
  match Keyword.ofWord? w with
  | some k => ⟨.keyword k, "", pos⟩
  | none => ⟨.ident, w, pos⟩

end Token
end Criteria
