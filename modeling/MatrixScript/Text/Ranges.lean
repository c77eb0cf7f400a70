/-! Sets of characters given as ascending, disjoint ranges of code points. -/

set_option autoImplicit false

namespace MatrixScript.Text

/-- Membership in ascending ranges; the search ends at the first range above `point`. -/
def inRanges : List (Nat × Nat) → Nat → Bool
  | [], _ => false
  | (low, high) :: rest, point =>
    if point < low then false else if point ≤ high then true else inRanges rest point

end MatrixScript.Text
