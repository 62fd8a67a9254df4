/-!
# Ranges — sets of characters as tables

A property of characters is kept as the ascending list of the ranges of code points that have it.
-/

namespace Rehome.Text

/-- Whether the code point of a character is in one of the ranges, ends included. -/
def inRanges (ranges : Array (Nat × Nat)) (c : Char) : Bool :=
  ranges.any fun (low, high) => decide (low ≤ c.toNat) && decide (c.toNat ≤ high)

end Rehome.Text
