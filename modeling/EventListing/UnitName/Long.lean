-- File names longer than one record. A file start carries up to 255
-- characters of the name, and each further part up to 255 more, until the
-- declared length is reached.
import EventListing.Record.Decode

namespace EventListing.UnitName

open Layout.FileStart (maxNameLength)

/-- The first file start for the file. -/
def firstStart? (records : List Record) (id : FileId) : Option Record.FileStart :=
  records.findSome? fun
    | .fileStart r => if r.fileId = id then some r else none
    | _ => none

/-- The fragments of the further parts of the file's name. -/
def fragments (records : List Record) (id : FileId) : List (List Char) :=
  records.filterMap fun
    | .namePart r => if r.fileId = id then some r.fragment.toList else none
    | _ => none

/-- One more fragment after a record that carried a full share of the name.
`remaining` counts the characters from that share on. -/
def addFragment (remaining : Nat × List Char) (fragment : List Char) : Nat × List Char :=
  let left := remaining.1 - maxNameLength
  (left, remaining.2 ++ fragment.take (min left maxNameLength))

/-- The declared length of the whole name. -/
def declaredLength (r : Record.FileStart) : Nat := (r.nameLength.getD 0).toNat

/-- The whole name of a file, from its first file start anywhere in the
listing and the further parts of its name. -/
def full? (records : List Record) (id : FileId) : Option String :=
  (firstStart? records id).map fun r =>
    if declaredLength r ≤ maxNameLength then r.inlineName
    else
      let start := (declaredLength r, r.inlineName.toList)
      String.ofList ((fragments records id).foldl addFragment start).2

end EventListing.UnitName
