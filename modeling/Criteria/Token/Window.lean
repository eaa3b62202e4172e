import Criteria.Token.Lexer

/-!
# Criteria.Token.Window

The tokens that a reader has still before it. It sees two of them, the current one and the one
after; past the last token both are the end of input.
-/

namespace Criteria

/-- The tokens left, and the position of the end of input after them. -/
structure Window where
  tokens : List Token
  stop : Int
  deriving DecidableEq, Repr

namespace Window

/-- The tokens from a cursor on. -/
def ofCursor (c : Cursor) : Window :=
  ⟨c.remaining.1, c.remaining.2.position⟩

/-- The tokens of a text. -/
def ofText (s : String) : Window :=
  ofCursor (Cursor.ofText s)

def eof (w : Window) : Token := ⟨.eof, "", w.stop⟩

def current (w : Window) : Token := w.tokens.headD w.eof

def peek (w : Window) : Token := w.tokens.tail.headD w.eof

def advance (w : Window) : Window := { w with tokens := w.tokens.tail }

end Window
end Criteria
