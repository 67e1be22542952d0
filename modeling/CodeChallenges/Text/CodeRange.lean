/-!
Sets of code points given by ranges.  The tables of character classes are lists of ranges with both
ends included; membership is one comparison with each range.
-/

namespace CodeChallenges.Text

/-- The code points from the first to the second number, both included. -/
abbrev CodeRange := Nat × Nat

/-- Whether some range of the list holds the character. -/
def inRanges (ranges : List CodeRange) (c : Char) : Bool :=
  ranges.any fun r => r.1 ≤ c.toNat && c.toNat ≤ r.2

end CodeChallenges.Text
