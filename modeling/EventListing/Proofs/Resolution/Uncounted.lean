-- Counts of lines stay local. The line at which a file begins and the number of
-- its lines may not read, or read as anything. They decide where lines lie, but not
-- which files there are, which of them are open, or to which file an error belongs.
import EventListing.Proofs.Forest.View
import EventListing.Proofs.Resolution.CopyRanges

namespace EventListing

/-! ## Records without counts -/

namespace Record

/-- The file start without the line at which the file begins. The marker of an included
member usually stands in the columns of that line, so all that is kept of it is that the
file is one. -/
def FileStart.uncounted (r : FileStart) : FileStart :=
  { r with line := none, includeMarker := if r.isInclude then "" else r.includeMarker }

/-- The file end without the number of lines. -/
def FileEnd.uncounted (r : FileEnd) : FileEnd := { r with length := none }

/-- The record without what it says about where a file begins and how long it is. -/
def uncounted : Record → Record
  | .fileStart r => .fileStart r.uncounted
  | .fileEnd r => .fileEnd r.uncounted
  | .processor => .processor
  | .namePart r => .namePart r
  | .expansion r => .expansion r
  | .error r => .error r
  | .ignored tag => .ignored tag
  | .unrecognized => .unrecognized

theorem FileStart.isInclude_uncounted (r : FileStart) : r.uncounted.isInclude = r.isInclude := by
  unfold uncounted isInclude
  by_cases h : r.includeMarker = "000000" <;> simp [h]

variable (records : List Record) (id : FileId)

theorem firstStart?_uncounted :
    UnitName.firstStart? (records.map uncounted) id =
      (UnitName.firstStart? records id).map FileStart.uncounted := by
  unfold UnitName.firstStart?
  rw [List.findSome?_map, List.map_findSome?]
  congr 1
  funext record
  cases record with
  | fileStart r => by_cases h : r.fileId = id <;> simp [uncounted, FileStart.uncounted, h]
  | processor | namePart | fileEnd | expansion | error | ignored | unrecognized => rfl

theorem fragments_uncounted :
    UnitName.fragments (records.map uncounted) id = UnitName.fragments records id := by
  unfold UnitName.fragments
  rw [List.filterMap_map]
  congr 1
  funext record
  cases record <;> rfl

theorem full?_uncounted :
    UnitName.full? (records.map uncounted) id = UnitName.full? records id := by
  unfold UnitName.full?
  rw [firstStart?_uncounted, fragments_uncounted, Option.map_map]
  rfl

theorem openedIds_uncounted : openedIds (records.map uncounted) = openedIds records := by
  unfold openedIds openings
  rw [List.filterMap_map]
  congr 2
  funext record
  cases record <;> rfl

/-- The same files are open, and their file starts differ in nothing else. -/
theorem openStarts_uncounted :
    openStarts (records.map uncounted) = (openStarts records).map FileStart.uncounted := by
  induction records using List.reverseRecOn with
  | nil => rfl
  | append_singleton records record ih =>
    rw [List.map_append, List.map_cons, List.map_nil, openStarts_concat, openStarts_concat, ih]
    cases record with
    | fileEnd r => exact List.map_tail.symm
    | fileStart | processor | namePart | expansion | error | ignored | unrecognized => rfl

end Record

/-! ## The forest -/

/-- The file without the offset at which it begins and without its length. -/
def FileNode.uncounted (file : FileNode) : FileNode :=
  { file with startsAt := none, length := none }

/-- The forest without where its files begin and how long they are. -/
def Forest.uncounted (forest : Forest) : Forest := forest.mapFiles FileNode.uncounted

theorem FileNode.id_uncounted (file : FileNode) : file.uncounted.id = file.id := rfl

namespace Builder

/-- Without the counts, a record does what it does without its own. -/
theorem uncounted_apply (b : Builder) (record : Record) :
    (b.apply record).mapFiles FileNode.uncounted =
      (b.mapFiles FileNode.uncounted).apply record.uncounted := by
  cases record with
  | processor => exact mapFiles_openStep b
  | fileStart r =>
    have hnew : (b.newNode r).uncounted =
        (b.mapFiles FileNode.uncounted).newNode r.uncounted := rfl
    exact mapFiles_openFile hnew rfl rfl
  | fileEnd r => exact mapFiles_closeFile FileNode.id_uncounted b rfl fun _ => rfl
  | expansion r => exact mapFiles_addEdit FileNode.id_uncounted b r fun _ _ => rfl
  | error r => exact mapFiles_addError FileNode.id_uncounted b r fun _ _ => rfl
  | namePart | ignored | unrecognized => rfl

theorem uncounted_foldl (records : List Record) (b : Builder) :
    (records.foldl apply b).mapFiles FileNode.uncounted =
      (records.map Record.uncounted).foldl apply (b.mapFiles FileNode.uncounted) := by
  induction records generalizing b with
  | nil => rfl
  | cons record records ih =>
    rw [List.foldl_cons, ih, uncounted_apply, List.map_cons, List.foldl_cons]

/-- The counts do not say which files are open. -/
theorem openFiles_uncounted (records : List Record) :
    (records.foldl apply start).openFiles =
      ((records.map Record.uncounted).foldl apply start).openFiles := by
  have hseen := congrArg Builder.openFiles (uncounted_foldl records start)
  exact hseen

end Builder

theorem Forest.uncounted_ofRecords (records : List Record) :
    (ofRecords records).uncounted = ofRecords (records.map Record.uncounted) := by
  unfold uncounted ofRecords
  rw [Builder.mapFiles_finish, Builder.uncounted_foldl]
  rfl

/-! ## The pass by ranges -/

/-- The diagnostic without its line. -/
def Diagnostic.unplaced (d : Diagnostic) : Diagnostic := { d with line := 0 }

namespace Resolution.Correction

open Record

variable (records : List Record)

theorem openFiles_uncounted (before : List Record) :
    (before.foldl (apply records) start).openFiles =
      ((before.map uncounted).foldl (apply (records.map uncounted)) start).openFiles := by
  rw [openFiles_foldl, openFiles_foldl, openStarts_uncounted, List.map_map]
  rfl

/-- A file end takes a waiting range exactly when its file is an included member. -/
theorem length_openRanges_closeFile (s : Correction) (r : Record.FileEnd) :
    (s.closeFile r).openRanges.length =
      if s.includeAt r.fileId then s.openRanges.length - 1 else s.openRanges.length := by
  cases hkind : s.includeAt r.fileId with
  | false =>
    rw [closeFile_of_root hkind]
    rfl
  | true =>
    cases hwaiting : s.openRanges with
    | nil =>
      unfold includeAt at hkind
      unfold closeFile
      simp [hkind, hwaiting]
    | cons opened rest =>
      rw [closeFile_of_include hkind opened rest hwaiting]
      split
      · rw [openRanges_addCopyRange]
        rfl
      · rfl

/-- Whether a line or a length reads does not decide how many ranges wait. -/
theorem length_openRanges_apply (s : Correction) (record : Record) :
    (s.apply records record).openRanges.length =
      match record with
      | .fileStart _ => s.openRanges.length + 1
      | .fileEnd r =>
        if s.includeAt r.fileId then s.openRanges.length - 1 else s.openRanges.length
      | _ => s.openRanges.length := by
  cases record with
  | fileStart r => rfl
  | fileEnd r => exact length_openRanges_closeFile s r
  | expansion r => exact congrArg List.length (stacks_addExpansion s r).2
  | error r => exact congrArg List.length (stacks_addError s r).2
  | processor | namePart | ignored | unrecognized => rfl

theorem includeAt_uncounted (before : List Record) (id : FileId) :
    (before.foldl (apply records) start).includeAt id =
      ((before.map uncounted).foldl (apply (records.map uncounted)) start).includeAt id := by
  rw [includeAt_foldl, includeAt_foldl, firstStart?_uncounted, Option.any_map]
  simp only [FileStart.isInclude_uncounted]

theorem length_openRanges_uncounted (before : List Record) :
    (before.foldl (apply records) start).openRanges.length =
      ((before.map uncounted).foldl (apply (records.map uncounted)) start).openRanges.length := by
  induction before using List.reverseRecOn with
  | nil => rw [List.map_nil, List.foldl_nil, List.foldl_nil]
  | append_singleton before record ih =>
    rw [List.map_append, List.map_cons, List.map_nil, List.foldl_append, List.foldl_append,
      List.foldl_cons, List.foldl_cons, List.foldl_nil, List.foldl_nil, length_openRanges_apply,
      length_openRanges_apply, ← ih]
    cases record with
    | fileEnd r => simp only [uncounted, FileEnd.uncounted, includeAt_uncounted records before]
    | fileStart | processor | namePart | expansion | error | ignored | unrecognized =>
      simp only [uncounted]

theorem pathOf_uncounted (r : Record.FileStart) :
    pathOf (records.map uncounted) r.uncounted = pathOf records r := by
  unfold pathOf
  rw [full?_uncounted]
  rfl

theorem pathUnder?_uncounted : pathUnder? (records.map uncounted) = pathUnder? records := by
  funext id
  unfold pathUnder?
  rw [firstStart?_uncounted, Option.map_map]
  exact Option.map_congr fun r _ => pathOf_uncounted records r

/-- Whether an error is accepted is not a matter of counts. They only change its
ranges. -/
theorem accepted?_uncounted (before : List Record) (record : Record) :
    (accepted? records before record).map (·.record) =
      (accepted? (records.map uncounted) (before.map uncounted) record.uncounted).map
        (·.record) := by
  cases record with
  | error r =>
    simp only [accepted?, uncounted, firstStart?_uncounted, Option.map_eq_none_iff]
    split
    · rfl
    · simp only [Option.map_map, Function.comp_def]
  | processor | fileStart | namePart | fileEnd | expansion | ignored | unrecognized => rfl

theorem accepted_uncounted :
    (accepted records).map (·.record) = (accepted (records.map uncounted)).map (·.record) :=
  gather_map (accepted?_uncounted records) [] records

/-- Up to its line, a diagnostic is what its record says. -/
theorem map_unplaced_acceptedOf (id : FileId) :
    (acceptedOf records id).map Diagnostic.unplaced =
      (((accepted records).map (·.record)).filter (·.fileId = id)).map (diagnosticAt · 0) := by
  unfold acceptedOf
  rw [List.filter_map, List.map_map, List.map_map]
  rfl

theorem acceptedOf_uncounted (id : FileId) :
    (acceptedOf records id).map Diagnostic.unplaced =
      (acceptedOf (records.map uncounted) id).map Diagnostic.unplaced := by
  rw [map_unplaced_acceptedOf, map_unplaced_acceptedOf, accepted_uncounted]

theorem pathsOfAccepted_uncounted :
    pathsOfAccepted records = pathsOfAccepted (records.map uncounted) := by
  have hempty : ∀ id, (acceptedOf records id).isEmpty =
      (acceptedOf (records.map uncounted) id).isEmpty := by
    intro id
    have hsame := congrArg List.isEmpty (acceptedOf_uncounted records id)
    rwa [List.isEmpty_map, List.isEmpty_map] at hsame
  unfold pathsOfAccepted
  simp only [openedIds_uncounted, pathUnder?_uncounted, hempty]

theorem acceptedUnder_uncounted (path : String) :
    (acceptedUnder records path).map Diagnostic.unplaced =
      (acceptedUnder (records.map uncounted) path).map Diagnostic.unplaced := by
  unfold acceptedUnder
  simp only [List.map_flatMap, openedIds_uncounted, pathUnder?_uncounted,
    acceptedOf_uncounted records]

/-- Under each path, the same diagnostics are listed up to their lines. -/
theorem listed_byRanges_uncounted (path : String) :
    (((byRanges records).listed path).map Diagnostic.unplaced).Perm
      (((byRanges (records.map uncounted)).listed path).map Diagnostic.unplaced) := by
  rw [listed_byRanges, listed_byRanges]
  refine ((byLine_perm _).map _).trans ?_
  rw [acceptedUnder_uncounted]
  exact ((byLine_perm _).map _).symm

end Resolution.Correction

/-! ## The law -/

open Resolution Correction

/-- Take two listings whose records, one by one, differ at most in where files begin and
how long they are, in numbers that read or not. They have the same forest up to these counts. The
pass by ranges lists the same diagnostics under the same paths up to their lines: it
accepts the same errors and gives each of them to the same file. Behind equally many
records, the same files are open both ways, and as many ranges wait. -/
theorem line_counts_stay_local (a b : Listing)
    (h : a.records.map Record.uncounted = b.records.map Record.uncounted) :
    (Forest.ofListing a).uncounted = (Forest.ofListing b).uncounted ∧
      (byRanges a.records).keys = (byRanges b.records).keys ∧
      (∀ path, (((byRanges a.records).listed path).map Diagnostic.unplaced).Perm
        (((byRanges b.records).listed path).map Diagnostic.unplaced)) ∧
      ((accepted a.records).map fun e => (e.record, pathUnder? a.records e.record.fileId)) =
        ((accepted b.records).map fun e => (e.record, pathUnder? b.records e.record.fileId)) ∧
      ∀ count,
        ((a.records.take count).foldl Builder.apply Builder.start).openFiles =
            ((b.records.take count).foldl Builder.apply Builder.start).openFiles ∧
          ((a.records.take count).foldl (apply a.records) start).openFiles =
            ((b.records.take count).foldl (apply b.records) start).openFiles ∧
          ((a.records.take count).foldl (apply a.records) start).openRanges.length =
            ((b.records.take count).foldl (apply b.records) start).openRanges.length := by
  have hbegun : ∀ count, (a.records.take count).map Record.uncounted =
      (b.records.take count).map Record.uncounted := by
    intro count
    rw [List.map_take, h, List.map_take]
  refine ⟨?_, ?_, ?_, ?_, ?_⟩
  · unfold Forest.ofListing
    rw [Forest.uncounted_ofRecords, h, Forest.uncounted_ofRecords]
  · rw [keys_byRanges, keys_byRanges, pathsOfAccepted_uncounted, h, ← pathsOfAccepted_uncounted]
  · intro path
    refine (listed_byRanges_uncounted a.records path).trans ?_
    rw [h]
    exact (listed_byRanges_uncounted b.records path).symm
  · have hpath : pathUnder? a.records = pathUnder? b.records := by
      rw [← pathUnder?_uncounted, h, pathUnder?_uncounted]
    have hrecords : (accepted a.records).map (·.record) = (accepted b.records).map (·.record) := by
      rw [accepted_uncounted, h, ← accepted_uncounted]
    have hpairs := congrArg (List.map fun r => (r, pathUnder? b.records r.fileId)) hrecords
    rw [List.map_map, List.map_map] at hpairs
    rw [hpath]
    exact hpairs
  · intro count
    refine ⟨?_, ?_, ?_⟩
    · rw [Builder.openFiles_uncounted, hbegun, ← Builder.openFiles_uncounted]
    · rw [openFiles_uncounted, hbegun, h, ← openFiles_uncounted]
    · rw [length_openRanges_uncounted, hbegun, h, ← length_openRanges_uncounted]

/-- A member copied into a copied member, in files that are never closed. -/
def counted : Listing := Listing.ofLines [
  "PROCESSOR  0 000 1",
  "FILEID     0 999 000000 010 /tmp/out.c 20230101120000 0",
  "FILEID     0 001 000000 013 LIB/SRC(ROOT) 20230101120000 0",
  "FILEID     0 002 0000030 012 LIB/CPY(CPA) 20230101120000 0",
  "FILEID     0 003 000002 012 LIB/CPY(CPB) 20230101120000 0",
  "FILEEND    0 003 000004",
  "ERROR      0 002 1 000008 000008 001 000008 010 RNF1234 S 30 004 copy",
  "FILEEND    0 002 000006"]

/-- The same, but some counts do not read, and others read as something else. -/
def miscounted : Listing := Listing.ofLines [
  "PROCESSOR  0 000 1",
  "FILEID     0 999 000000 010 /tmp/out.c 20230101120000 0",
  "FILEID     0 001 000000 013 LIB/SRC(ROOT) 20230101120000 0",
  "FILEID     0 002 000003x 012 LIB/CPY(CPA) 20230101120000 0",
  "FILEID     0 003 000007 012 LIB/CPY(CPB) 20230101120000 0",
  "FILEEND    0 003 00000x",
  "ERROR      0 002 1 000008 000008 001 000008 010 RNF1234 S 30 004 copy",
  "FILEEND    0 002 -00002"]

theorem miscounts_stay_local :
    counted.records.map Record.uncounted = miscounted.records.map Record.uncounted ∧
      (Forest.ofListing counted).uncounted = (Forest.ofListing miscounted).uncounted ∧
      (byRanges counted.records).keys = (byRanges miscounted.records).keys ∧
      ((byRanges counted.records).listed "LIB/CPY/CPA").map (·.line) = [4] ∧
      ((byRanges miscounted.records).listed "LIB/CPY/CPA").map (·.line) = [8] ∧
      (((byRanges counted.records).listed "LIB/CPY/CPA").map Diagnostic.unplaced).Perm
        (((byRanges miscounted.records).listed "LIB/CPY/CPA").map Diagnostic.unplaced) := by
  have hall : counted.records.map Record.uncounted = miscounted.records.map Record.uncounted ∧
      ((byRanges counted.records).listed "LIB/CPY/CPA").map (·.line) = [4] ∧
      ((byRanges miscounted.records).listed "LIB/CPY/CPA").map (·.line) = [8] := by
    decide +kernel
  obtain ⟨hsame, hread, hunread⟩ := hall
  obtain ⟨hforest, hkeys, hlisted, -⟩ := line_counts_stay_local counted miscounted hsame
  exact ⟨hsame, hforest, hkeys, hread, hunread, hlisted _⟩

end EventListing
