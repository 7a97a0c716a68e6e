/-!
# Ranges of code points

A class of characters as closed ranges of code points. The ranges stand in increasing order, so the
first one that does not end too early decides.
-/

namespace LoginSettings.Text

/-- Holds of a number in one of some closed ranges, which stand in increasing order. -/
def inRanges (ranges : List (Nat × Nat)) (n : Nat) : Bool :=
  (ranges.find? fun r => n ≤ r.2).any fun r => r.1 ≤ n

end LoginSettings.Text
