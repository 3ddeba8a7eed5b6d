/-!
# Sets of characters given by ranges

A class of characters of the Unicode standard is a table of ranges of code
points.  The tables of this project are lists of such ranges in increasing
order; membership is decided by looking for a range that holds the character.
-/

namespace TexTree.Text

/-- Ranges of code points, both ends included. -/
abbrev Ranges := List (Nat × Nat)

/-- Whether one of the ranges holds the code point of the character. -/
def Ranges.contains (ranges : Ranges) (character : Char) : Bool :=
  ranges.any fun range => range.1 ≤ character.toNat && character.toNat ≤ range.2

end TexTree.Text
