/-!
# Ranges of code points

A property of characters is written down as the closed ranges of code points that have it, in increasing order.
-/

namespace SceneTree.Text

/-- A set of code points: closed ranges, in increasing order. -/
abbrev Ranges := List (Nat × Nat)

namespace Ranges

/-- Whether a code point lies in one of the ranges. The search ends at the first range that begins after it. -/
def has : Ranges → Nat → Bool
  | [], _ => false
  | (first, last) :: rest, n => if n < first then false else n ≤ last || has rest n

end Ranges

end SceneTree.Text
