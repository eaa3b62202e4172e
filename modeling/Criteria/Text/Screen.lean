import Criteria.Text.Split
import Criteria.Text.Width

/-!
# Criteria.Text.Screen

Text as it is laid out on a screen: what is left of it once controls that would move the cursor are
dropped and tabs are filled with blanks. The screen is as wide as its longest line, so that no line
is broken, and names of pictographs between colons stay as they are.
-/

namespace Criteria
namespace Text

/-- Bell, backspace, vertical tab, form feed and return never reach the screen. -/
def isDropped (c : Char) : Bool :=
  c == '\x07' || c == '\x08' || c == '\x0b' || c == '\x0c' || c == '\r'

/-- Joins parts by blanks up to the next multiple of eight columns, one at least; `column` columns
are already taken. -/
def joinTabbed (column : Nat) : List (List Char) → List Char
  | [] => []
  | [part] => part
  | part :: parts =>
    let column := column + width (part ++ [' '])
    let fill := (8 - column % 8) % 8
    part ++ ' ' :: (List.replicate fill ' ' ++ joinTabbed (column + fill) parts)

def expandTabs (cs : List Char) : List Char :=
  joinTabbed 0 (splitOn '\t' cs)

/-- What reaches the screen of a text. -/
def visible (s : String) : List Char :=
  s.toList.filter fun c => !isDropped c

def shown (s : String) : String :=
  String.ofList (visible s)

/-- The lines of a text as the screen shows them. -/
def screenLines (s : String) : List (List Char) :=
  (splitOn '\n' (visible s)).map expandTabs

/-- A text as the screen shows it, with a line feed after its last line. -/
def onScreen (s : String) : String :=
  String.join ((screenLines s).map fun l => String.ofList (l ++ ['\n']))

end Text
end Criteria
