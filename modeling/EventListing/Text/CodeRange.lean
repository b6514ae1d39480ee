-- Sets of characters written as ranges of code points.
namespace EventListing.Text

/-- A range of code points, both ends included. -/
abbrev CodeRange := Nat × Nat

/-- The character's code point is in one of the ranges. -/
def inRanges (ranges : List CodeRange) (c : Char) : Bool :=
  ranges.any fun (first, last) => first ≤ c.toNat && c.toNat ≤ last

end EventListing.Text
