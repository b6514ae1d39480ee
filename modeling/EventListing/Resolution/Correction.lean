-- Resolution by ranges. In one pass, each file collects the ranges of lines
-- that are not its own: the extents of the members copied into it, and the
-- lines that the SQL precompiler put in. The line of an error loses the part
-- of every range up to it. Overlapping ranges are not reconciled.
import EventListing.Diagnostic
import EventListing.LineRange
import EventListing.UnitName.Long
import EventListing.UnitName.Path

namespace EventListing.Resolution

/-! ## The state of the pass -/

/-- What the pass knows of a file since its first file start. -/
structure TrackedFile where
  path : String
  isInclude : Bool
  errors : List Diagnostic
  ranges : List LineRange
deriving DecidableEq, Repr

structure Correction where
  files : OrderedMap FileId TrackedFile
  /-- The numbers of the open files, the innermost one first. -/
  openFiles : List FileId
  /-- The ranges that wait for a file end, the last one first. A file start
  whose line does not read has none. -/
  openRanges : List (Option LineRange)
deriving DecidableEq, Repr

/-! ## One error -/

/-- An error that the SQL precompiler reports about its own output. -/
def isNoise (r : Record.Error) : Bool :=
  Text.occursIn "name or indicator SQ".toList r.text.toList ||
    "SQL".toList.isPrefixOf r.code.toList

/-- The lines of a range that stand before `line`, as far as they are put
down to the range: all of it when it ends before the line, and the lines
after `line` when the line lies inside it. -/
def shareOf (line : Int) (range : LineRange) : Int :=
  if range.isAfter line then
    if range.contains line then Saturating.sub range.high line else range.len
  else 0

/-- The sum of the shares of the ranges, in the order in which they came. -/
def shift (ranges : List LineRange) (line : Int) : Int :=
  ranges.foldl (fun sum range => Saturating.add sum (shareOf line range)) 0

/-- A walk over the ranges stops at one that holds the line although it begins
behind it. -/
def stopsAt (line : Int) (range : LineRange) : Bool := !range.isAfter line && range.contains line

/-- What a walk over the ranges finds for a line: the sum of the shares, and
the file of the range at which the walk stopped, if it did. -/
def walk (ranges : List LineRange) (line : Int) : Int × Option FileId :=
  match ranges.find? (stopsAt line) with
  | none => (shift ranges line, none)
  | some range =>
    let before := ranges.takeWhile (!stopsAt line ·)
    (Saturating.add (shift before line) range.low, range.file)

/-- The line less a sum of shares. It never grows. -/
def lineLess (line sum : Int) : Int := if 0 < sum then Saturating.sub line sum else line

/-- The line without the shares of the ranges. It never grows. -/
def correctedLine (ranges : List LineRange) (line : Int) : Int :=
  if 0 < shift ranges line then Saturating.sub line (shift ranges line) else line

theorem stopsAt_eq_false (line : Int) (range : LineRange) : stopsAt line range = false := by
  unfold stopsAt LineRange.isAfter LineRange.contains
  cases decide (range.low ≤ line) <;> rfl

/-- No range that begins behind a line holds it, so no walk ever stops. -/
theorem walk_eq (ranges : List LineRange) (line : Int) :
    walk ranges line = (shift ranges line, none) := by
  have hnone : ranges.find? (stopsAt line) = none :=
    List.find?_eq_none.mpr fun range _ => by simp [stopsAt_eq_false]
  unfold walk
  rw [hnone]

/-- The diagnostic of an error record at a line of its source. A severity or
column that does not read is zero. -/
def diagnosticAt (r : Record.Error) (line : Int) : Diagnostic where
  severity := r.severity.getD 0
  line := line
  columnStart := r.columnStart.getD 0
  columnEnd := r.columnEnd.getD 0
  text := r.text
  code := r.code

namespace Correction

def start : Correction := ⟨∅, [], []⟩

/-! ## One record -/

/-- The path of a file. The name of a stream file may span several records
of the listing. -/
def pathOf (records : List Record) (r : Record.FileStart) : String :=
  if UnitName.isQualified r.name then UnitName.memberPath r.name
  else UnitName.streamPath ((UnitName.full? records r.fileId).getD r.inlineName)

/-- A file start opens the file, and tracks it from its first one on. -/
def openFile (records : List Record) (s : Correction) (r : Record.FileStart) : Correction where
  files :=
    if s.files.contains r.fileId then s.files
    else s.files.insertNew r.fileId ⟨pathOf records r, r.isInclude, [], []⟩
  openFiles := r.fileId :: s.openFiles
  openRanges := r.line.map (⟨·, 0, none⟩) :: s.openRanges

/-- The range of a copied member: from the line of its file start on, as
many lines as its file end says. -/
def copyRange (id : FileId) (opened : LineRange) (length : Int) : LineRange :=
  (opened.withHigh (Saturating.sub (Saturating.add opened.low length) 1)).tagged id

/-- The range goes to the innermost open file. That matters only once the
precompiler's unit is known and at least two files are open. -/
def addCopyRange (s : Correction) (range : LineRange) : Correction :=
  match s.openFiles with
  | including :: _ :: _ =>
    if s.files.contains FileId.baseUnit then
      let change := fun file : TrackedFile => { file with ranges := file.ranges ++ [range] }
      { s with files := s.files.modify including change }
    else s
  | _ => s

/-- A file end closes the innermost file. That of an included member also
takes the last waiting range. -/
def closeFile (s : Correction) (r : Record.FileEnd) : Correction :=
  let s := { s with openFiles := s.openFiles.tail }
  if (s.files.get? r.fileId).any (·.isInclude) then
    match s.openRanges with
    | [] => s
    | opened :: rest =>
      let s := { s with openRanges := rest }
      match opened, r.length with
      | some opened, some length => s.addCopyRange (copyRange r.fileId opened length)
      | _, _ => s
  else s

/-- An expansion gives its file a range when both bounds read. -/
def addExpansion (s : Correction) (r : Record.Expansion) : Correction :=
  match r.rangeStart, r.rangeEnd with
  | some low, some high =>
    let change := fun file : TrackedFile =>
      { file with ranges := file.ranges ++ [⟨low, high, none⟩] }
    { s with files := s.files.modify r.fileId change }
  | _, _ => s

/-- The ranges that the file with this number has so far. -/
def rangesOf (s : Correction) (id : FileId) : List LineRange :=
  ((s.files.get? id).map (·.ranges)).getD []

/-- An error goes to its file at its corrected line, or to the file that a
walk over the ranges names instead. The precompiler's own errors and those
without a line are left out. -/
def addError (s : Correction) (r : Record.Error) : Correction :=
  if isNoise r then s
  else match r.line with
    | none => s
    | some line =>
      let found := walk (s.rangesOf r.fileId) line
      let d := diagnosticAt r (lineLess line found.1)
      let change := fun file : TrackedFile => { file with errors := file.errors ++ [d] }
      { s with files := s.files.modify (found.2.getD r.fileId) change }

/-- Every error goes to its own file. -/
theorem addError_eq (s : Correction) (r : Record.Error) :
    s.addError r =
      if isNoise r then s
      else match r.line with
        | none => s
        | some line =>
          let change := fun file : TrackedFile =>
            let d := diagnosticAt r (correctedLine file.ranges line)
            { file with errors := file.errors ++ [d] }
          { s with files := s.files.modify r.fileId change } := by
  unfold addError
  cases r.line with
  | none => rfl
  | some line =>
    simp only [walk_eq, Option.getD_none]
    congr 2
    refine OrderedMap.modify_congr ?_
    intro file hfile
    simp only [rangesOf, hfile, Option.map_some, Option.getD_some]
    rfl

def apply (records : List Record) (s : Correction) : Record → Correction
  | .fileStart r => s.openFile records r
  | .fileEnd r => s.closeFile r
  | .expansion r => s.addExpansion r
  | .error r => s.addError r
  | .processor => s
  | .namePart _ => s
  | .ignored _ => s
  | .unrecognized => s

/-! ## The result -/

/-- The diagnostics by line. Those of one line stay in their order. -/
def byLine (ds : List Diagnostic) : List Diagnostic := ds.mergeSort (·.line ≤ ·.line)

/-- The map with the errors of one more file. Two files may have the same
path, and then both lists are kept. -/
def addFile (m : DiagnosticMap) (file : TrackedFile) : DiagnosticMap :=
  if file.errors.isEmpty then m
  else m.alter file.path fun
    | none => byLine file.errors
    | some ds => byLine (ds ++ byLine file.errors)

/-- The errors by path, the files in the order of their first file start. -/
def finish (s : Correction) : DiagnosticMap := s.files.values.foldl addFile ∅

end Correction

/-- The diagnostics of the records, resolved by ranges. -/
def byRanges (records : List Record) : DiagnosticMap :=
  (records.foldl (Correction.apply records) Correction.start).finish

end EventListing.Resolution
