/-! Sets of characters given by ascending code point ranges. -/
namespace Keyfile.Text

/-- Membership in one of the ranges, both ends included; the ranges ascend, so the search stops at the
first one that starts past the code point. -/
def inRanges : List (Nat × Nat) → Nat → Bool
  | [], _ => false
  | (low, high) :: rest, n => low ≤ n && (n ≤ high || inRanges rest n)

end Keyfile.Text
