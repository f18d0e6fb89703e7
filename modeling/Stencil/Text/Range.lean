/-!
# Ranges of code points

A class of characters is written as the closed ranges of the code points in it, in ascending order.
-/

namespace Stencil.Text

/-- Whether a number lies in one of some closed ranges. -/
def inRanges (ranges : Array (Nat × Nat)) (n : Nat) : Bool :=
  ranges.any fun (low, high) => low ≤ n && n ≤ high

end Stencil.Text
