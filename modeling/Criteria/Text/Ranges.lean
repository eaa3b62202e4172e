/-!
# Criteria.Text.Ranges

Sets of code points as sorted arrays of disjoint closed ranges, with membership by halving.
-/

namespace Criteria
namespace Text

/-- Closed ranges in ascending order. -/
abbrev Ranges : Type := Array (Nat × Nat)

/-- Looks for a range around `n` among those numbered `lo` to `hi - 1`. -/
def Ranges.search (t : Ranges) (n : Nat) : (fuel lo hi : Nat) → Bool
  | 0, _, _ => false
  | fuel + 1, lo, hi =>
    if lo < hi then
      let mid := (lo + hi) / 2
      match t[mid]? with
      | none => false
      | some (first, last) =>
        if n < first then t.search n fuel lo mid
        else if last < n then t.search n fuel (mid + 1) hi
        else true
    else false

/-- Whether `n` lies in one of the ranges. -/
def Ranges.contains (t : Ranges) (n : Nat) : Bool :=
  t.search n t.size 0 t.size

end Text
end Criteria
