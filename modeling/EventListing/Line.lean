-- The lines of a listing. A line is kept only if it is not blank, and it is
-- filled up with spaces, so that every fixed column of a record exists.
import EventListing.Text.Blank
import EventListing.Text.Segments
import EventListing.Text.Search

namespace EventListing

open Text

/-- A kept line has at least this many characters. -/
def lineWidth : Nat := 150

/-- A line of a listing, filled up to the width of the record layout. -/
structure Line where
  chars : List Char
  width_le : lineWidth ≤ chars.length
deriving DecidableEq, Repr

/-- A listing is the lines that were kept of it. -/
abbrev Listing := List Line

namespace Line

/-! ## From raw text -/

/-- The characters, with spaces at the end up to the width of a line. -/
def pad (cs : List Char) : Line where
  chars := cs ++ List.replicate (lineWidth - cs.length) ' '
  width_le := by simp only [List.length_append, List.length_replicate]; omega

/-- The raw line without the carriage returns at its end. -/
def stripReturns (raw : String) : List Char := dropEndWhile (· == '\r') raw.toList

/-- The line made from raw text. A blank raw line makes none. -/
def ofRaw? (raw : String) : Option Line :=
  let kept := stripReturns raw
  if isBlankText kept then none else some (pad kept)

/-! ## What a line holds -/

/-- The whole line as text. -/
def text (line : Line) : String := String.ofList line.chars

/-- The `width` characters from `offset` on, or as many as the line has. -/
def column (line : Line) (offset width : Nat) : List Char :=
  (line.chars.drop offset).take width

/-- The characters from `offset` to the end. -/
def restFrom (line : Line) (offset : Nat) : List Char := line.chars.drop offset

/-- The pieces between the spaces. -/
def tokens (line : Line) : List (List Char) :=
  (segments ' ' line.chars).filter (!·.isEmpty)

def token? (line : Line) (index : Nat) : Option (List Char) := line.tokens[index]?

/-- The needle occurs in the line. -/
def contains (line : Line) (needle : String) : Bool := occursIn needle.toList line.chars

/-- The line as it is shown, without the blanks at its end. -/
def display (line : Line) : String := String.ofList (trimEnd line.chars)

end Line

namespace Listing

/-- The listing made from raw lines. -/
def ofLines (raws : List String) : Listing := raws.filterMap Line.ofRaw?

/-- The raw lines of a text. A text that ends with a line end has an empty
last line. -/
def rawLines (text : String) : List String :=
  (segments '\n' text.toList).map String.ofList

/-- The listing made from a whole text. -/
def ofText (text : String) : Listing := ofLines (rawLines text)

end Listing

end EventListing
