/-!
Closed ranges of code points, the form in which properties of characters are written down.
-/

namespace TableLoom.Text

/-- Whether a code point lies in one of the ranges. -/
def inRanges (ranges : List (Nat × Nat)) (n : Nat) : Bool :=
  ranges.any fun r => r.1 ≤ n && n ≤ r.2

end TableLoom.Text
