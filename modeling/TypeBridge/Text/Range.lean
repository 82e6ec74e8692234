/-!
# Ranges of code points

A property of characters is given by a list of closed ranges of code points in ascending order.
-/
namespace TypeBridge.Text

/-- Whether `n` lies in one of the ranges, which ascend. -/
def inRanges : List (Nat × Nat) → Nat → Bool
  | [], _ => false
  | (first, last) :: rest, n => if n < first then false else n ≤ last || inRanges rest n

end TypeBridge.Text
