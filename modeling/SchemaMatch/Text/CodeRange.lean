/-!
# Code point ranges

A character property of the Unicode standard is kept as an ascending list of closed ranges of
code points. A code point has the property when a range holds it (`inRanges`); the search stops
at the first range that ends at or after the code point, since later ranges lie above it.
-/

namespace SchemaMatch.Text

/-- Ascending closed ranges of code points, each with its first and its last member. -/
abbrev CodeRanges := List (Nat × Nat)

/-- Whether one of the ascending ranges holds the code point. -/
def inRanges (code : Nat) : CodeRanges → Bool
  | [] => false
  | (first, last) :: later =>
    if last < code then inRanges code later else decide (first ≤ code)

end SchemaMatch.Text
