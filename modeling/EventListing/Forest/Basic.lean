-- The forest of a listing: its compile steps, and in each step the files that
-- were opened, with the errors and the edits that name them.
import EventListing.Diagnostic
import EventListing.LineRange
import EventListing.OrderedMap
import EventListing.Record.Decode

namespace EventListing

/-! ## Edits -/

/-- An edit of the SQL precompiler. Lines count from zero, and a range that
the listing leaves unused or unreadable lies at -1. -/
structure Edit where
  /-- The file into which lines were put. -/
  target : Option FileId
  /-- The lines of the source that the edit stands for or takes out. -/
  defined : LineRange
  /-- The lines that the edit put in. -/
  generated : LineRange
deriving DecidableEq, Repr

namespace Edit

/-- The range from zero between two lines from one. -/
def range (first last : Option Int) : LineRange :=
  match first, last with
  | some first, some last => ⟨Saturating.sub first 1, Saturating.sub last 1, none⟩
  | _, _ => ⟨-1, -1, none⟩

def ofRecord (r : Record.Expansion) : Edit where
  target := r.on
  defined := range r.definedStart r.definedEnd
  generated := range r.rangeStart r.rangeEnd

end Edit

/-! ## Errors -/

/-- An error as the listing reports it, not yet brought to its source. A
severity or column that does not read is zero. -/
structure RawError where
  severity : Nat
  /-- The line in the unit that the compiler saw, from zero. -/
  line : Int
  columnStart : Int
  columnEnd : Int
  code : String
  text : String
  /-- An edit came before the error in the same compile step. -/
  afterEdit : Bool
deriving DecidableEq, Repr

namespace RawError

/-- The error of a record. A record whose line does not read makes none. -/
def ofRecord? (r : Record.Error) (afterEdit : Bool) : Option RawError :=
  r.line.map fun line => {
    severity := r.severity.getD 0
    line := Saturating.sub line 1
    columnStart := r.columnStart.getD 0
    columnEnd := r.columnEnd.getD 0
    code := r.code
    text := r.text
    afterEdit }

/-- The error as a diagnostic at a line of its source. -/
def resolvedAt (e : RawError) (line : Int) : Diagnostic where
  severity := e.severity
  line := line
  columnStart := e.columnStart
  columnEnd := e.columnEnd
  text := e.text
  code := e.code

end RawError

/-! ## Files, steps and the forest -/

/-- A file that a compile step opened. -/
structure FileNode where
  id : FileId
  /-- The innermost file that was open when this one was opened. -/
  parent : Option FileId
  /-- The offset in the parent, from zero, at which the file begins. -/
  startsAt : Option Int
  /-- The number of lines, known once the file is closed. -/
  length : Option Int
  path : String
  errors : List RawError
  edits : List Edit
deriving DecidableEq, Repr

/-- One compile step: its files in the order in which they were opened. -/
structure Step where
  files : List FileNode
deriving DecidableEq, Repr, Inhabited

namespace Step

/-- The step without files. -/
def empty : Step := ⟨[]⟩

/-- The index of the first file with this number. -/
def indexOf? (step : Step) (id : FileId) : Option Nat := step.files.findIdx? (·.id = id)

/-- The first file with this number. -/
def find? (step : Step) (id : FileId) : Option FileNode := step.files.find? (·.id = id)

/-- The step with a change of the file at an index. -/
def modify (step : Step) (index : Nat) (change : FileNode → FileNode) : Step :=
  ⟨step.files.modify index change⟩

end Step

structure Forest where
  steps : List Step
  /-- The path of each file number. The first file start decides. -/
  paths : OrderedMap FileId String
deriving DecidableEq, Repr

namespace Forest

def empty : Forest := ⟨[], ∅⟩

end Forest

end EventListing
