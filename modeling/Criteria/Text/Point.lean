import Criteria.Text.Utf8

/-!
# Criteria.Text.Point

Code points. A text that was not read from bytes may hold a surrogate that stands alone; it is no
character and has no bytes in UTF-8. A `String` holds none.
-/

namespace Criteria
namespace Text

/-- A code point: a character, or the surrogate that number `0xD800 + n` is. -/
inductive Point where
  | char (c : Char)
  | surrogate (n : Fin 0x800)
  deriving DecidableEq, Repr

namespace Point

def isSurrogate : Point → Bool
  | char _ => false
  | surrogate _ => true

/-- Whether it is a character of some class. -/
def isAny (p : Char → Bool) : Point → Bool
  | char c => p c
  | surrogate _ => false

/-- The character, or the one that stands in for what is none. -/
def shown : Point → Char
  | char c => c
  | surrogate _ => '\uFFFD'

end Point

/-- The code points of a text. -/
def points (s : String) : List Point :=
  s.toList.map .char

/-- The text with a stand-in for each surrogate. -/
def shownText (ps : List Point) : String :=
  String.ofList (ps.map Point.shown)

end Text
end Criteria
