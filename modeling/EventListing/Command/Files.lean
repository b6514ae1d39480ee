-- The files that a command can see. A name leads to a file, to a directory,
-- or to nothing.
import EventListing.Text.Segments

namespace EventListing.Command

/-- What a name leads to. -/
inductive FileEntry where
  | missing
  | directory
  /-- Something is there, but it cannot be read. -/
  | unreadable
  | file (bytes : ByteArray)

/-- What each name leads to. -/
abbrev Files := String → FileEntry

/-- The text of a file. A file whose bytes are not UTF-8 has none. -/
def FileEntry.text? : FileEntry → Option String
  | .file bytes => String.fromUTF8? bytes
  | _ => none

/-- A file stands under the name, whether or not it can be read. -/
def FileEntry.isFile : FileEntry → Bool
  | .file _ => true
  | .unreadable => true
  | _ => false

/-! ## Places

A path is walked part by part. Where a walk stands is told by the parts that
lead there from the working directory without a detour. Two dots in front
stand for each directory outside of it, and a slash in front for the root. -/

/-- The parts of a path between the slashes. -/
def pathParts (path : String) : List String :=
  (Text.segments '/' path.toList).map String.ofList

/-- The place where the walk along a path begins. -/
def startOf (path : String) : List String :=
  if path.toList.head? = some '/' then ["/"] else []

/-- The working directory or one that it lies in. -/
def isAround (place : List String) : Bool := place.all (· == "..")

/-- The directory in which a place lies. The root lies in itself. -/
def outOf (place : List String) : List String :=
  if isAround place then place ++ [".."]
  else if place = ["/"] then place
  else place.dropLast

/-- The place after one more part. An empty part and a dot stay. -/
def walk (place : List String) (part : String) : List String :=
  if part = "" ∨ part = "." then place
  else if part = ".." then outOf place
  else place ++ [part]

/-- The place to which a path leads. -/
def placeOf (path : String) : List String := (pathParts path).foldl walk (startOf path)

/-- The places through which the parts lead before the last one. -/
def passed (place : List String) : List String → List (List String)
  | [] => []
  | part :: rest => place :: passed (walk place part) rest

/-! ## A working directory -/

/-- Some files, and the directories through which their names lead. -/
structure Directory where
  files : List (List String × ByteArray)
  directories : List (List String)

namespace Directory

/-- Nothing can be read from the null device. It is known everywhere. -/
def nullDevice : String × ByteArray := ("/dev/null", ByteArray.empty)

/-- The files with these names. Their names may lead through directories,
which are there then, and lead to one place in several ways. -/
def ofFiles (named : List (String × ByteArray)) : Directory where
  files := (nullDevice :: named).map fun (path, bytes) => (placeOf path, bytes)
  directories := (nullDevice :: named).flatMap fun (path, _) =>
    passed (startOf path) (pathParts path)

/-- What stands in a place. Of two files in one place the later one counts. -/
def entryAt (d : Directory) (place : List String) : FileEntry :=
  match d.files.reverse.find? (·.1 == place) with
  | some (_, bytes) => .file bytes
  | none => if isAround place || d.directories.contains place then .directory else .missing

/-- The place after one more part. Only a directory leads anywhere. -/
def next? (d : Directory) (place : List String) (part : String) : Option (List String) :=
  match d.entryAt place with
  | .directory => some (walk place part)
  | _ => none

/-- What a path leads to. The empty one leads nowhere. -/
def find (d : Directory) : Files := fun path =>
  if path.isEmpty then .missing
  else match (pathParts path).foldlM d.next? (startOf path) with
    | some place => d.entryAt place
    | none => .missing

end Directory

end EventListing.Command
