-- Ranges of lines with both ends included.
import EventListing.FileId
import EventListing.Number.Saturating

namespace EventListing

/-- The lines from `low` to `high`. A bound may be negative when the listing
leaves the range unused. -/
structure LineRange where
  low : Int
  high : Int
  /-- The file whose lines these are, for the extent of a copied member. -/
  file : Option FileId := none
deriving DecidableEq, Repr

namespace LineRange

def withHigh (r : LineRange) (high : Int) : LineRange := { r with high }

def tagged (r : LineRange) (id : FileId) : LineRange := { r with file := some id }

/-- The number of lines, zero or less when the bounds are out of order. -/
def len (r : LineRange) : Int := Saturating.add (Saturating.sub r.high r.low) 1

def isEmpty (r : LineRange) : Bool := r.len ≤ 0

/-- The line lies in the range. -/
def contains (r : LineRange) (line : Int) : Bool := r.low ≤ line && line ≤ r.high

/-- The line is at or after the low bound. -/
def isAfter (r : LineRange) (line : Int) : Bool := r.low ≤ line

/-- Neither bound is the mark of an unused range. -/
def isPlaced (r : LineRange) : Bool := 0 ≤ r.low && 0 ≤ r.high

end LineRange

end EventListing
