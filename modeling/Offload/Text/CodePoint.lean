/-! Sets of characters by ranges of code points. -/
namespace Offload

/-- Membership in ascending closed ranges. -/
def inRanges (n : Nat) : List (Nat × Nat) → Bool
  | [] => false
  | (low, high) :: rest => low ≤ n && (n ≤ high || inRanges n rest)

end Offload
