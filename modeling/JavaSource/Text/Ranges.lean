/-!
# Sorted ranges of code points

A character class is given as a list of closed ranges in increasing order. Membership stops at the
first range that starts above the code point.
-/

namespace JavaSource.Text

/-- Whether `n` lies in one of the closed ranges, which are listed in increasing order. -/
def inRanges : List (Nat × Nat) → Nat → Bool
  | [], _ => false
  | (low, high) :: ranges, n => if n < low then false else n ≤ high || inRanges ranges n

end JavaSource.Text
