/-!
# Sets of characters

A set of characters is given by its maximal ranges of code points, in ascending order.
-/
namespace LogoStudio.Text

/-- Whether `n` lies in one of the ranges. The ranges ascend, so the search ends at the
first one past `n`. -/
def inRanges : List (Nat × Nat) → Nat → Bool
  | [], _ => false
  | (first, last) :: rest, n => first ≤ n && (n ≤ last || inRanges rest n)

end LogoStudio.Text
