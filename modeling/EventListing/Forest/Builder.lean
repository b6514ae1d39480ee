-- The forest is built in one pass over the records. Each record changes the
-- builder in one step, so a longer listing goes on from where a shorter one
-- stands.
import EventListing.Forest.Basic
import EventListing.UnitName.Path

namespace EventListing

/-- The forest so far and what is open in it. -/
structure Builder where
  /-- The compile steps that are complete, and the paths seen so far. -/
  done : Forest
  /-- The compile step that is open. -/
  current : Option Step
  /-- The numbers of the open files, the innermost one first. They stay open
  when the next compile step begins. -/
  openFiles : List FileId
  /-- An edit came in the current compile step. -/
  edited : Bool
deriving DecidableEq, Repr

namespace Builder

/-- Nothing was read yet. -/
def start : Builder := ⟨Forest.empty, none, [], false⟩

/-- The forest when the listing ends here: the open step is the last one. -/
def finish (b : Builder) : Forest := { b.done with steps := b.done.steps ++ b.current.toList }

/-! ## One record -/

/-- A compile step ends the one before it. -/
def openStep (b : Builder) : Builder :=
  { b with done := b.finish, current := some Step.empty, edited := false }

/-- The node of a file that has just been opened. -/
def newNode (b : Builder) (r : Record.FileStart) : FileNode where
  id := r.fileId
  parent := b.openFiles.head?
  startsAt := r.startsAt
  length := none
  path := UnitName.path r.name
  errors := []
  edits := []

/-- A file start makes its path known. Inside a compile step it also opens
the file. -/
def openFile (b : Builder) (r : Record.FileStart) : Builder :=
  let node := b.newNode r
  let b := { b with done.paths := b.done.paths.insertNew r.fileId node.path }
  match b.current with
  | none => b
  | some step =>
    { b with current := some ⟨step.files ++ [node]⟩, openFiles := r.fileId :: b.openFiles }

/-- A file end gives the file its length and closes the innermost file. -/
def closeFile (b : Builder) (r : Record.FileEnd) : Builder :=
  match b.current with
  | none => b
  | some step =>
    let step := match step.indexOf? r.fileId with
      | none => step
      | some i => step.modify i fun file => { file with length := r.length }
    { b with current := some step, openFiles := b.openFiles.tail }

/-- The file to which an edit belongs. When its number is not known, the
number of the innermost open file is taken as the index of a file. -/
def editedFile? (step : Step) (openFiles : List FileId) (id : FileId) : Option Nat :=
  match step.indexOf? id with
  | some i => some i
  | none => (openFiles.head?.map FileId.number).filter (· < step.files.length)

/-- An expansion marks the compile step as edited and gives its file an
edit. -/
def addEdit (b : Builder) (r : Record.Expansion) : Builder :=
  let b := { b with edited := true }
  match b.current with
  | none => b
  | some step =>
    match editedFile? step b.openFiles r.fileId with
    | none => b
    | some i =>
      let change := fun file : FileNode => { file with edits := file.edits ++ [Edit.ofRecord r] }
      { b with current := some (step.modify i change) }

/-- An error goes to the first file with its number. -/
def addError (b : Builder) (r : Record.Error) : Builder :=
  match b.current with
  | none => b
  | some step =>
    match step.indexOf? r.fileId, RawError.ofRecord? r b.edited with
    | some i, some e =>
      let change := fun file : FileNode => { file with errors := file.errors ++ [e] }
      { b with current := some (step.modify i change) }
    | _, _ => b

def apply (b : Builder) : Record → Builder
  | .processor => b.openStep
  | .fileStart r => b.openFile r
  | .fileEnd r => b.closeFile r
  | .expansion r => b.addEdit r
  | .error r => b.addError r
  | .namePart _ => b
  | .ignored _ => b
  | .unrecognized => b

end Builder

/-! ## All records -/

namespace Forest

def ofRecords (records : List Record) : Forest :=
  (records.foldl Builder.apply Builder.start).finish

/-- The forest of a listing. Lines that do not decode are left out. -/
def ofListing (listing : Listing) : Forest := ofRecords listing.records

end Forest

end EventListing
