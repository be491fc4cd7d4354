/-!
# Character classes as ranges

A class of characters is a list of closed ranges of code points in increasing order.

* `CharRanges.contains`: whether a character lies in one of the ranges.
-/

namespace DartModels

/-- Closed ranges of code points, in increasing order. -/
abbrev CharRanges := List (Nat × Nat)

namespace CharRanges

/-- Whether a code point lies in one of the ranges.  The search ends at the first range above. -/
def has : CharRanges → Nat → Bool
  | [], _ => false
  | (low, high) :: rest, n => if n < low then false else if n ≤ high then true else has rest n

/-- Whether a character lies in one of the ranges. -/
def contains (ranges : CharRanges) (c : Char) : Bool := ranges.has c.toNat

end CharRanges

end DartModels
