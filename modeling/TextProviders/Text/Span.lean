/-!
Sorted ranges of code points, and the test whether a code point lies in one of them.

A character class of a standard is given as its ranges in increasing order, so a look-up stops at
the first range that begins above the code point.
-/

namespace TextProviders.Text

/-- A range of code points: its first and its last member. -/
abbrev Span := Nat × Nat

/-- Whether a code point lies in one of the ranges, which stand in increasing order. -/
def inSpans : List Span → Nat → Bool
  | [], _ => false
  | (first, last) :: rest, n => if n < first then false else n ≤ last || inSpans rest n

end TextProviders.Text
