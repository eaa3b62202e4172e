import Criteria.Text.Letter
import Criteria.Text.Utf8
import Criteria.Token

/-!
# Criteria.Token.Lexer

From text to tokens. A `Cursor` is a place in a text; `Cursor.next` skips blanks and takes the
longest token that starts there. No text is refused: what fits nowhere is an illegal character, a
string without its closing quote runs to the end, and past the last token there is always another
end of input. A text ends before its first NUL. It is made of characters: texts in which surrogates
stand alone are read by `Scanner`, which refuses them there.

* `Cursor.next` takes one token.
* `Cursor.drain` takes them all.
* `tokenize` takes them all from the start of a text.
-/

namespace Criteria

open Text

/-- What stands at the front of a text: its kind, the literal it carries, and how many characters
it takes. -/
structure Lexeme where
  kind : Token.Kind
  literal : List Char
  size : Nat
  deriving DecidableEq, Repr

namespace Lexeme

def punctuation? : Char → Option Token.Kind
  | '(' => some .lparen
  | ')' => some .rparen
  | ',' => some .comma
  | '+' => some .plus
  | '-' => some .minus
  | _ => none

/-- A string goes on to the next quote, or to the end. -/
def string (cs : List Char) : Lexeme :=
  let body := cs.takeWhile (· != '"')
  ⟨.str, body, body.length + 2⟩

def word (w : List Char) : Lexeme :=
  match Keyword.ofWord? (String.ofList w) with
  | some k => ⟨.keyword k, [], w.length⟩
  | none => ⟨.ident, w, w.length⟩

/-- A number has a fraction only where a digit follows the point. -/
def number (whole after : List Char) : Lexeme :=
  match after with
  | '.' :: d :: ds =>
    if isDigit d then
      let part := d :: ds.takeWhile isDigit
      ⟨.float, whole ++ '.' :: part, whole.length + 1 + part.length⟩
    else ⟨.int, whole, whole.length⟩
  | _ => ⟨.int, whole, whole.length⟩

/-- The longest token at the front of a text that does not start with a blank. -/
def scan : List Char → Lexeme
  | [] => ⟨.eof, [], 0⟩
  | c :: cs =>
    match punctuation? c with
    | some k => ⟨k, [], 1⟩
    | none =>
      if c == '"' then string cs
      else if isLetter c then word (c :: cs.takeWhile isWordChar)
      else if isDigit c then number (c :: cs.takeWhile isDigit) (cs.dropWhile isDigit)
      else ⟨.illegal, [c], 1⟩

theorem word_size (w : List Char) : (word w).size = w.length := by
  unfold word; split <;> rfl

theorem number_size (whole after : List Char) : whole.length ≤ (number whole after).size := by
  unfold number; split
  · split <;> simp only <;> omega
  · simp

theorem scan_size {cs : List Char} (h : (scan cs).kind ≠ .eof) : 0 < (scan cs).size := by
  cases cs with
  | nil => simp [scan] at h
  | cons c cs =>
    simp only [scan]
    split
    · simp
    · split
      · simp [string]
      · split
        · simp [word_size]
        · split
          · exact Nat.lt_of_lt_of_le (by simp) (number_size _ _)
          · simp

end Lexeme

/-- A place in a text: the characters still unread, and how many characters and bytes were read. -/
structure Cursor where
  rest : List Char
  index : Nat := 0
  position : Nat := 0
  deriving DecidableEq, Repr

namespace Cursor

/-- The character that stands for the end of a text, and that ends it. -/
def endMark : Char := '\x00'

def ofText (s : String) : Cursor :=
  { rest := s.toList.takeWhile (· != endMark) }

def length (c : Cursor) : Nat :=
  c.index + c.rest.length

def current (c : Cursor) : Char :=
  c.rest.headD endMark

def peek (c : Cursor) : Char :=
  (c.rest.drop 1).headD endMark

/-- Reads `n` characters, or all that are left. -/
def advance (c : Cursor) (n : Nat) : Cursor :=
  { rest := c.rest.drop n
    index := c.index + (c.rest.take n).length
    position := c.position + Utf8.length (c.rest.take n) }

def skipBlanks (c : Cursor) : Cursor :=
  c.advance (c.rest.takeWhile isBlank).length

def next (c : Cursor) : Token × Cursor :=
  let start := c.skipBlanks
  let l := Lexeme.scan start.rest
  (⟨l.kind, String.ofList l.literal, start.position⟩, start.advance l.size)

theorem length_rest_advance (c : Cursor) (n : Nat) :
    (c.advance n).rest.length = c.rest.length - n := by
  simp [advance]

/-- A token other than the end takes at least one character. -/
theorem next_shorter {c : Cursor} (h : c.next.1.kind ≠ .eof) :
    c.next.2.rest.length < c.rest.length := by
  have hsize : 0 < (Lexeme.scan c.skipBlanks.rest).size := Lexeme.scan_size h
  have hrest : c.skipBlanks.rest ≠ [] := by
    intro he
    exact h (by simp [next, he, Lexeme.scan])
  have hpos : 0 < c.skipBlanks.rest.length := List.length_pos_iff.mpr hrest
  have hle : c.skipBlanks.rest.length ≤ c.rest.length := by
    simp [skipBlanks, length_rest_advance]
  simp only [next, length_rest_advance]
  omega

/-- Takes every token before the end, and stops there. -/
def remaining (c : Cursor) : List Token × Cursor :=
  if _h : c.next.1.kind = .eof then ([], c.next.2)
  else
    let r := remaining c.next.2
    (c.next.1 :: r.1, r.2)
termination_by c.rest.length
decreasing_by exact next_shorter _h

def drain (c : Cursor) : List Token × Cursor :=
  let r := c.remaining
  (r.1 ++ [⟨.eof, "", r.2.position⟩], r.2)

inductive Action where
  | next
  | drain
  | peek
  deriving DecidableEq, Repr

inductive Answer where
  | token (t : Token)
  | tokens (ts : List Token)
  | char (c : Char)
  deriving DecidableEq, Repr

def act (c : Cursor) : Action → Answer × Cursor
  | .next => (.token c.next.1, c.next.2)
  | .drain => (.tokens c.drain.1, c.drain.2)
  | .peek => (.char c.peek, c)

end Cursor

/-- All tokens of a text, the end of input last. -/
def tokenize (s : String) : List Token :=
  (Cursor.ofText s).drain.1

end Criteria
