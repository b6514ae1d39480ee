-- Resolution by the forest. The files of the first compile step are put
-- together into one map of lines, the edits of the SQL precompiler are made
-- in it, and the line of an error is looked up in the map of that moment.
-- The map is shared by all compile steps.
import EventListing.Forest.Builder
import EventListing.Forest.Offset
import EventListing.LineMap

namespace EventListing.Resolution

/-- The diagnostics so far and the map of lines so far. -/
structure Mapping where
  diagnostics : DiagnosticMap
  lines : LineMap
deriving DecidableEq, Repr

/-- A number of lines that may be negative, as a count. -/
def lineCount (n : Int) : Nat := n.toNat

/-- The position of a line of a file that begins at `startsAt`. Both count
from zero. -/
def positionIn (startsAt line : Int) : Int :=
  Saturating.add (Saturating.add startsAt line) 1

namespace Mapping

def start : Mapping := ⟨∅, LineMap.empty⟩

/-! ## One error -/

/-- An error goes to the origin of its line. Without an origin it is left
out. -/
def lookUp (m : Mapping) (e : RawError) : Mapping :=
  match m.lines.resolve? e.line with
  | none => m
  | some origin =>
    { m with diagnostics := m.diagnostics.push origin.path (e.resolvedAt origin.line) }

/-- An error before any edit. Those of the root, and those of the only file
of a step, are looked up. The others stay at the line that they report. -/
def addEarly (paths : OrderedMap FileId String) (step : Step) (file : FileNode) (m : Mapping)
    (e : RawError) : Mapping :=
  if step.files.length = 1 ∨ file.id = FileId.root then m.lookUp e
  else match paths.get? file.id with
    | none => m
    | some path =>
      let d := e.resolvedAt (Saturating.add e.line 1)
      { m with diagnostics := m.diagnostics.push path d }

/-! ## One file -/

/-- The file's lines are put in where the file begins. The precompiler's
unit has no lines of its own. -/
def inline (step : Step) (m : Mapping) (file : FileNode) : Mapping :=
  if file.id = FileId.baseUnit then m
  else match step.absoluteStart? file with
    | none => m
    | some position =>
      let count := lineCount (file.length.getD 0)
      { m with lines := m.lines.insertFile position file.path count }

/-- An edit puts lines into its target, or else takes lines out of its own
file. -/
def applyEdit (step : Step) (file : FileNode) (m : Mapping) (edit : Edit) : Mapping :=
  if edit.generated.isPlaced then
    match edit.target.bind step.find? with
    | none => m
    | some target =>
      match target.startsAt with
      | none => m
      | some startsAt =>
        let position := positionIn startsAt edit.generated.low
        let count := lineCount edit.generated.len
        { m with lines := m.lines.insertSql position target.path count }
  else if edit.defined.isPlaced then
    match file.startsAt with
    | none => m
    | some startsAt =>
      let position := positionIn startsAt edit.defined.low
      { m with lines := m.lines.remove position (lineCount edit.defined.len) }
  else m

/-- Before the edits: the file is put in, if that is to be done, and then
its early errors are added. -/
def beforeEdits (paths : OrderedMap FileId String) (inlines : Bool) (step : Step) (m : Mapping)
    (file : FileNode) : Mapping :=
  let m := if inlines then m.inline step file else m
  (file.errors.filter (!·.afterEdit)).foldl (addEarly paths step file) m

/-- The edits of the file, and then the errors that came after an edit. -/
def withEdits (step : Step) (m : Mapping) (file : FileNode) : Mapping :=
  (file.errors.filter (·.afterEdit)).foldl lookUp (file.edits.foldl (applyEdit step file) m)

/-! ## All compile steps -/

/-- One compile step: every file before the edits, then every file with its
edits. -/
def addStep (paths : OrderedMap FileId String) (inlines : Bool) (m : Mapping) (step : Step) :
    Mapping :=
  step.files.foldl (withEdits step) (step.files.foldl (beforeEdits paths inlines step) m)

/-- The diagnostics and the map of lines of a forest. Only the first compile
step puts files in. -/
def ofForest (forest : Forest) : Mapping :=
  match forest.steps with
  | [] => start
  | first :: rest =>
    rest.foldl (addStep forest.paths false) (addStep forest.paths true start first)

end Mapping

/-- The diagnostics of the records, resolved by their forest. -/
def byTree (records : List Record) : DiagnosticMap :=
  (Mapping.ofForest (Forest.ofRecords records)).diagnostics

end EventListing.Resolution
