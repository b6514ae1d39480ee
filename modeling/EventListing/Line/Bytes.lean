-- A column as it is cut out of the text of a line. The text is kept in bytes, and a
-- character takes one to four of them, so the byte at which a column begins is found by
-- counting characters. A text may only be cut between two characters.
import EventListing.Line

namespace EventListing

namespace Text

/-- The bytes at which the characters begin when the first one begins at `start`. -/
def byteStarts (start : Nat) : List Char → List Nat
  | [] => []
  | c :: cs => start :: byteStarts (start + c.utf8Size) cs

/-- The byte at which the character with this index begins. Behind the last character it
is the end of the text. -/
def byteAt (text : String) (index : Nat) : Nat :=
  (byteStarts 0 text.toList)[index]?.getD text.utf8ByteSize

/-- The part of a text between two bytes. There is none when one of them lies inside a
character or behind the end, or when they are not in order. -/
def slice? (text : String) (start stop : Nat) : Option String :=
  if h : String.Pos.Raw.IsValid text ⟨start⟩ ∧ String.Pos.Raw.IsValid text ⟨stop⟩ ∧
      start ≤ stop then
    some (text.slice (text.pos ⟨start⟩ h.1) (text.pos ⟨stop⟩ h.2.1) h.2.2).copy
  else none

end Text

/-- The sum of two sizes of 64 bits. A sum that leaves the range stops at the greatest
size. -/
def Saturating.addSize (a b : UInt64) : UInt64 :=
  UInt64.ofNat (min (a.toNat + b.toNat) (UInt64.size - 1))

theorem Saturating.toNat_addSize (a b : UInt64) :
    (addSize a b).toNat = min (a.toNat + b.toNat) (UInt64.size - 1) :=
  UInt64.toNat_ofNat_of_lt' (Nat.lt_of_le_of_lt (Nat.min_le_right _ _) (by decide))

namespace Line

open Text

/-- The byte at which a column begins. -/
def startByte (line : Line) (offset : UInt64) : Nat := byteAt line.text offset.toNat

/-- The byte at which a column ends. -/
def stopByte (line : Line) (offset width : UInt64) : Nat :=
  byteAt line.text (Saturating.addSize offset width).toNat

/-- The column, cut out of the text of the line. -/
def columnSlice? (line : Line) (offset width : UInt64) : Option String :=
  slice? line.text (line.startByte offset) (line.stopByte offset width)

/-- What stands from a column on, cut out of the text of the line. -/
def restSlice? (line : Line) (offset : UInt64) : Option String :=
  slice? line.text (line.startByte offset) line.text.utf8ByteSize

end Line

end EventListing
