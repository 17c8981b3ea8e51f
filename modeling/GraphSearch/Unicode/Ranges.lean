/-!
# Sets of characters as ranges

The character classes of this library that go beyond ASCII are given as tables of
ranges, in ascending order and without overlap, and looked up by scanning.
-/

namespace GraphSearch.Unicode

/-- The character lies in one of the ranges, both ends included. -/
def inRanges (ranges : List (Nat × Nat)) (c : Char) : Bool :=
  ranges.any fun range => range.1 ≤ c.toNat && c.toNat ≤ range.2

end GraphSearch.Unicode
