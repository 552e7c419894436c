/-
Character sets as lists of closed ranges of code points: the form in
which the tables of Unicode properties are written down.
-/

namespace ScriptLint.Text

/-- Closed ranges of code points, in increasing order. -/
abbrev CodeRanges := List (Nat × Nat)

/-- Whether one of the ranges holds the character. -/
def CodeRanges.has (ranges : CodeRanges) (c : Char) : Bool :=
  ranges.any fun (first, last) => first ≤ c.toNat && c.toNat ≤ last

/-- Whether one of the ranges holds the character at an even distance
from the range's start: the shape of alphabets that list each capital
letter next to its small one. -/
def CodeRanges.hasAlternate (ranges : CodeRanges) (c : Char) : Bool :=
  ranges.any fun (first, last) =>
    first ≤ c.toNat && c.toNat ≤ last && (c.toNat - first) % 2 == 0

end ScriptLint.Text
