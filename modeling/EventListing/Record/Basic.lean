-- The records of a listing, one for each line. A numeric field other than
-- the file number is `none` when the line leaves it out or it does not read
-- as a number.
import EventListing.Record.Tag
import EventListing.FileId

namespace EventListing

namespace Record

/-- A source file begins to contribute lines. -/
structure FileStart where
  fileId : FileId
  /-- Six zeros for a root, anything else for an included member. -/
  includeMarker : String
  /-- The line of the including file, from one, at which the file begins. -/
  line : Option Int
  /-- The length of the whole file name, which may exceed one record. -/
  nameLength : Option Int
  /-- The file name as one token. -/
  name : String
  /-- The part of the file name that this record carries. -/
  inlineName : String
deriving DecidableEq, Repr

namespace FileStart

/-- The file is an included member. -/
def isInclude (r : FileStart) : Bool := r.includeMarker != "000000"

end FileStart

/-- One more part of a long file name. -/
structure NamePart where
  fileId : FileId
  fragment : String
deriving DecidableEq, Repr

/-- A source file is complete. -/
structure FileEnd where
  fileId : FileId
  length : Option Int
deriving DecidableEq, Repr

/-- The SQL precompiler put lines in or took lines out. Lines count from
one, and a zero marks a range that is not used. -/
structure Expansion where
  fileId : FileId
  definedStart : Option Int
  definedEnd : Option Int
  on : Option FileId
  rangeStart : Option Int
  rangeEnd : Option Int
deriving DecidableEq, Repr

/-- The compiler reports an error. -/
structure Error where
  fileId : FileId
  severity : Option Nat
  /-- The line in the unit that the compiler saw, from one. -/
  line : Option Int
  columnStart : Option Int
  columnEnd : Option Int
  code : String
  text : String
deriving DecidableEq, Repr

end Record

/-- A decoded line. -/
inductive Record where
  /-- A compile step begins. -/
  | processor
  | fileStart (r : Record.FileStart)
  | namePart (r : Record.NamePart)
  | fileEnd (r : Record.FileEnd)
  | expansion (r : Record.Expansion)
  | error (r : Record.Error)
  /-- A known tag that says nothing about diagnostics. -/
  | ignored (tag : Tag)
  /-- A tag that is not part of the format. -/
  | unrecognized
deriving DecidableEq, Repr

end EventListing
