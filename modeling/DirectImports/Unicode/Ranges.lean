/-! Sets of characters given by closed ranges of code points in ascending order. -/

namespace DirectImports

def inRanges : List (Nat × Nat) → Nat → Bool
  | [], _ => false
  | (low, high) :: ranges, n => low ≤ n && (n ≤ high || inRanges ranges n)

end DirectImports
