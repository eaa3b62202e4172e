/-!
# Criteria.Text.Split

Cutting a text at a character.
-/

namespace Criteria
namespace Text

/-- The parts of a text between the characters that are `separator`, at least one. -/
def splitOn (separator : Char) : List Char → List (List Char)
  | [] => [[]]
  | c :: cs =>
    if c == separator then [] :: splitOn separator cs
    else
      match splitOn separator cs with
      | [] => [[c]]
      | part :: parts => (c :: part) :: parts

end Text
end Criteria
