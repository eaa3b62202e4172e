import Criteria.Text.Screen
import Criteria.Text.Trim

/-!
# Criteria.Text.Wrap

Fitting text into a number of columns. Lines break before a word that does not fit any more; a line
that is still too wide loses blanks at its end and is then cut short, with an ellipsis for what is
missing.

* `words` are the parts between which a line may break, and `wrap` breaks it.
* `crop` cuts a text between the signs that a screen shows.
* `fittedLines` lays out a whole text.
-/

namespace Criteria
namespace Text

/-- The words of a line with the blanks after each; blanks before the first one belong to it. -/
def words (line : List Char) : List (List Char) :=
  match (line.dropWhile isSpace).splitBy fun a b => !isSpace a || isSpace b with
  | [] => [line]
  | w :: ws => (line.takeWhile isSpace ++ w) :: ws

/-- Puts words on lines of `limit` columns. `line` is the line that is filled, and its words take
`taken` columns. -/
def wrapWords (limit : Nat) (line : List Char) (taken : Nat) :
    List (List Char) → List (List Char)
  | [] => [line]
  | w :: ws =>
    if line.isEmpty || taken + width (trimEnd w) ≤ limit then
      wrapWords limit (line ++ w) (taken + width w) ws
    else line :: wrapWords limit w (width w) ws

def wrap (limit : Nat) (line : List Char) : List (List Char) :=
  wrapWords limit [] 0 (words line)

/-- What a screen shows as one sign: a character with the marks on top of it. -/
structure Sign where
  chars : List Char
  width : Nat
  deriving DecidableEq, Repr

namespace Sign

def add (s : Sign) (cs : List Char) (gain : Nat) : Sign :=
  ⟨s.chars ++ cs, s.width + gain⟩

/-- The signs of a text after the sign `s`, in which `last` is the last character that took a
column. -/
def listAfter (s : Sign) (last : Option Char) : List Char → List Sign
  | [] => [s]
  | [c] =>
    if c == joiner then [s.add [c] 0]
    else if c == emojiSelector then [s.add [c] (emojiGain last)]
    else if charWidth c = 0 then [s.add [c] 0]
    else [s, ⟨[c], charWidth c⟩]
  | c :: d :: cs =>
    if c == joiner then listAfter (s.add [c, d] 0) last cs
    else if c == emojiSelector then listAfter (s.add [c] (emojiGain last)) none (d :: cs)
    else if charWidth c = 0 then listAfter (s.add [c] 0) last (d :: cs)
    else s :: listAfter ⟨[c], charWidth c⟩ (some c) (d :: cs)

def list : List Char → List Sign
  | [] => []
  | c :: cs =>
    listAfter ⟨[c], charWidth c⟩ (if charWidth c = 0 then none else some c) cs

end Sign

/-- As many signs as fit into `limit` columns; a blank stands for one that fits only in part. -/
def cropSigns (limit : Nat) : List Sign → List Char
  | [] => []
  | s :: signs =>
    if limit = 0 then []
    else if limit < s.width then [' ']
    else s.chars ++ cropSigns (limit - s.width) signs

def crop (limit : Nat) (cs : List Char) : List Char :=
  cropSigns limit (Sign.list cs)

/-- Takes blanks off the end of a line, no more than it has characters too many. -/
def dropBlanks (limit : Nat) (line : List Char) : List Char :=
  let blanks := line.length - (trimEnd line).length
  line.take (line.length - min blanks (line.length - limit))

/-- A line cut to `limit` columns, the last of which then is an ellipsis. -/
def shorten (limit : Nat) (line : List Char) : List Char :=
  if width line ≤ limit then line else crop (limit - 1) line ++ ['…']

/-- A line filled up with blanks to `limit` columns. A joiner at its end swallows the first blank,
and one more makes up for it. -/
def padEnd (limit : Nat) (line : List Char) : List Char :=
  let padded := line ++ List.replicate (limit - width line) ' '
  padded ++ List.replicate (limit - width padded) ' '

/-- A line of `limit` columns, filled up with blanks. On the right side of a column it loses the
blanks at its end. -/
def fillLine (alignRight : Bool) (limit : Nat) (line : List Char) : List Char :=
  if alignRight then
    let line := shorten limit (trimEnd line)
    List.replicate (limit - width line) ' ' ++ line
  else padEnd limit (shorten limit line)

def fittedLines (alignRight : Bool) (limit : Nat) (s : String) : List (List Char) :=
  (screenLines s).flatMap fun line =>
    (wrap limit line).map fun l => fillLine alignRight limit (dropBlanks limit l)

end Text
end Criteria
