/-!
# Criteria.Text.Truth

Words for yes and no in settings and documents.
-/

namespace Criteria
namespace Text

/-- What a word says, in upper or lower case. -/
def truthWord? (s : String) : Option Bool :=
  let word := String.ofList (s.toList.map Char.toLower)
  if ["1", "true", "t", "yes", "y", "on"].contains word then some true
  else if ["0", "false", "f", "no", "n", "off"].contains word then some false
  else none

end Text
end Criteria
