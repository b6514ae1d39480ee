-- Blank characters and the trimming of text. A character is blank when it
-- has the White_Space property: tabs and line ends, the space, the
-- no-break space and the spaces of fixed width.
import EventListing.Text.CodeRange

namespace EventListing.Text

/-! ## Blank characters -/

/-- The code points of the blank characters. -/
def blankRanges : List CodeRange :=
  [(0x9, 0xD), (0x20, 0x20), (0x85, 0x85), (0xA0, 0xA0), (0x1680, 0x1680), (0x2000, 0x200A),
   (0x2028, 0x2029), (0x202F, 0x202F), (0x205F, 0x205F), (0x3000, 0x3000)]

def isBlank (c : Char) : Bool := inRanges blankRanges c

/-! ## Trimming -/

/-- The text without the characters that `p` takes off its end. -/
def dropEndWhile (p : Char → Bool) (cs : List Char) : List Char :=
  (cs.reverse.dropWhile p).reverse

/-- The text without the blanks at its end. -/
def trimEnd (cs : List Char) : List Char := dropEndWhile isBlank cs

/-- The text without the blanks at either end. -/
def trim (cs : List Char) : List Char := trimEnd (cs.dropWhile isBlank)

/-- The text holds nothing but blanks. -/
def isBlankText (cs : List Char) : Bool := cs.all isBlank

end EventListing.Text
