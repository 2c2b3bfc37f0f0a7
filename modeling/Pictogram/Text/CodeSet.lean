/-!
Sets of characters given by code point boundaries, for the Unicode properties that the text rules
of this library depend on.
-/

namespace Pictogram.Text

/-- A set of code points, written as the ascending list of the points where membership changes:
the first bound is the first member, the second the first non-member after it, and so on. -/
structure CodeSet where
  bounds : List Nat

/-- A character is a member when an odd number of boundaries lie at or below it. -/
def CodeSet.contains (s : CodeSet) (c : Char) : Bool :=
  s.bounds.countP (· ≤ c.toNat) % 2 = 1

end Pictogram.Text
