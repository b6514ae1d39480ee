-- Listings with nothing to correct. Files nest in one root and nothing was
-- edited, so both ways to resolve the listing leave every error at the line
-- that its record reports, under the path of the file that it names.
import EventListing.Proofs.Resolution.Rooted
import EventListing.Proofs.Resolution.Tracked

namespace EventListing

open LineMap Resolution

/-- The diagnostics of a path, each at the line that its record reports. -/
def reportedUnder (records : List Record) (path : String) : List Diagnostic :=
  (((Record.errors records).filterMap (reportedAt? records)).filter (·.1 = path)).map Prod.snd

/-! ## Names -/

/-- The record carries the whole name: it is qualified, or it is a stream file
whose declared length is that of the name. -/
def Record.FileStart.IsWhole (r : Record.FileStart) : Prop :=
  UnitName.isQualified r.name ∨
    r.inlineName = r.name ∧ r.nameLength = some (r.name.length : Int) ∧
      r.name.length ≤ Layout.FileStart.maxNameLength

instance (r : Record.FileStart) : Decidable r.IsWhole := inferInstanceAs (Decidable (_ ∨ _))

/-- Both ways to resolve a listing make the same path of a whole name. -/
theorem pathOf_of_isWhole {records : List Record} {r : Record.FileStart}
    (hfirst : UnitName.firstStart? records r.fileId = some r) (h : r.IsWhole) :
    Correction.pathOf records r = UnitName.path r.name := by
  unfold Correction.pathOf UnitName.path
  split
  · rfl
  · rename_i hname
    rcases h with hqualified | ⟨hinline, hlength, hle⟩
    · exact absurd hqualified hname
    · have hdeclared : UnitName.declaredLength r ≤ Layout.FileStart.maxNameLength := by
        simpa [UnitName.declaredLength, hlength] using hle
      simp [UnitName.full?, hfirst, hdeclared, hinline]

/-! ## Without ranges -/

namespace Resolution.Correction

/-- No file has a range, and none can get one without an expansion. -/
structure Unranged (s : Correction) : Prop where
  no_unit : s.files.get? FileId.baseUnit = none
  ranges : ∀ id file, s.files.get? id = some file → file.ranges = []

theorem unranged_start : start.Unranged := ⟨rfl, fun _ _ h => by cases h⟩

theorem Unranged.openFile {s : Correction} (h : s.Unranged) (records : List Record)
    {r : Record.FileStart} (hr : r.fileId ≠ FileId.baseUnit) :
    (s.openFile records r).Unranged := by
  unfold Correction.openFile
  split
  · exact ⟨h.no_unit, h.ranges⟩
  · refine ⟨?_, ?_⟩
    · rw [OrderedMap.insertNew, OrderedMap.get?_alter, if_neg (Ne.symm hr)]
      exact h.no_unit
    · intro id file hfile
      rw [OrderedMap.insertNew, OrderedMap.get?_alter] at hfile
      split at hfile
      · cases hold : s.files.get? r.fileId with
        | none =>
          rw [hold] at hfile
          cases hfile
          rfl
        | some old =>
          rw [hold] at hfile
          cases hfile
          exact h.ranges _ _ hold
      · exact h.ranges id file hfile

theorem Unranged.files_closeFile {s : Correction} (h : s.Unranged) (r : Record.FileEnd) :
    (s.closeFile r).files = s.files := by
  rcases Correction.files_closeFile s r with hsame | ⟨hunit, -⟩
  · exact hsame
  · rw [OrderedMap.contains, h.no_unit] at hunit
    cases hunit

theorem Unranged.closeFile {s : Correction} (h : s.Unranged) (r : Record.FileEnd) :
    (s.closeFile r).Unranged := by
  constructor
  · rw [h.files_closeFile]
    exact h.no_unit
  · rw [h.files_closeFile]
    exact h.ranges

theorem Unranged.addError {s : Correction} (h : s.Unranged) (r : Record.Error) :
    (s.addError r).Unranged := by
  rw [Correction.addError_eq]
  split
  · exact h
  · split
    · exact h
    · refine ⟨?_, ?_⟩
      · rw [OrderedMap.get?_modify]
        split
        · rename_i hunit
          rw [← hunit, h.no_unit]
          rfl
        · exact h.no_unit
      · intro id file hfile
        rw [OrderedMap.get?_modify] at hfile
        split at hfile
        · obtain ⟨old, hold, rfl⟩ := Option.map_eq_some_iff.mp hfile
          exact h.ranges _ old hold
        · exact h.ranges id file hfile

/-- Without ranges, the errors of opened files are added as they are
reported. -/
theorem emitted_of_unranged (records : List Record) {rest : List Record} {s : Correction}
    (hs : s.Unranged) (hunit : ∀ r, .fileStart r ∈ rest → r.fileId ≠ FileId.baseUnit)
    (hedit : ∀ r, .expansion r ∉ rest) (hnoise : ∀ r, .error r ∈ rest → isNoise r = false) :
    emitted records s rest = (Record.reported s.files.keys rest).filterMap fun r =>
      r.line.map fun line => (r.fileId, diagnosticAt r line) := by
  induction rest generalizing s with
  | nil => rfl
  | cons record rest ih =>
    have hnext : ∀ {s' : Correction}, s'.Unranged → emitted records s' rest =
        (Record.reported s'.files.keys rest).filterMap fun r =>
          r.line.map fun line => (r.fileId, diagnosticAt r line) := fun hs' =>
      ih hs' (fun r hr => hunit r (List.mem_cons_of_mem _ hr))
        (fun r hr => hedit r (List.mem_cons_of_mem _ hr))
        (fun r hr => hnoise r (List.mem_cons_of_mem _ hr))
    cases record with
    | fileStart r =>
      rw [emitted, apply, hnext (hs.openFile records (hunit r List.mem_cons_self)),
        Record.reported_congr (mem_keys_openFile records s r)]
      rfl
    | fileEnd r =>
      rw [emitted, apply, hnext (hs.closeFile r), hs.files_closeFile]
      rfl
    | error r =>
      rw [emitted, apply, hnext (hs.addError r), keys_addError, Record.reported]
      simp only [emitted?, hnoise r List.mem_cons_self, Bool.false_eq_true, if_false]
      cases hfile : s.files.get? r.fileId with
      | none =>
        have hnot : r.fileId ∉ s.files.keys := by
          rw [OrderedMap.mem_keys_iff, hfile]
          simp
        rw [if_neg hnot]
        rfl
      | some file =>
        have hmem : r.fileId ∈ s.files.keys := by
          rw [OrderedMap.mem_keys_iff, hfile]
          rfl
        rw [if_pos hmem, List.filterMap_cons, Option.bind_some, hs.ranges _ _ hfile]
        simp only [correctedLine_nil]
        cases r.line <;> rfl
    | expansion r => exact absurd List.mem_cons_self (hedit r)
    | processor | namePart | ignored | unrecognized => exact hnext hs

end Resolution.Correction

/-! ## The law -/

/-- A listing with nothing to correct: its files nest in the root, their names
are whole, and every error names an opened file and has a line, for the root
one of the root's own. -/
structure NothingToCorrect (records : List Record) (opened : Record.FileStart) (inside : Nesting)
    (length : Int) : Prop where
  step : OneStep records (.file opened inside (some length) .nil)
  no_unit : FileId.baseUnit ∉ (Nesting.file opened inside (some length) .nil).ids
  root_id : opened.fileId = FileId.root
  root_line : opened.line = some 0
  names : ∀ r ∈ (Nesting.file opened inside (some length) .nil).starts, r.IsWhole
  errors_opened : Record.ErrorsOpened records
  errors : ∀ r ∈ Record.errors records, isNoise r = false ∧
    ∃ line, r.line = some line ∧ (r.fileId = FileId.root → 1 ≤ line ∧ line ≤ length)

namespace NothingToCorrect

variable {listing : Listing} {opened : Record.FileStart} {inside : Nesting} {length : Int}

/-- Both ways to resolve the listing make the same paths. -/
theorem pathOf_eq_firstPath? (h : NothingToCorrect listing.records opened inside length)
    (id : FileId) :
    (UnitName.firstStart? listing.records id).map (Correction.pathOf listing.records) =
      firstPath? listing.records id := by
  unfold firstPath?
  cases hfirst : UnitName.firstStart? listing.records id with
  | none => rfl
  | some r =>
    obtain ⟨hmem, rfl⟩ := UnitName.of_firstStart? hfirst
    rw [Option.map_some, Option.map_some,
      pathOf_of_isWhole hfirst (h.names r (h.step.mem_starts hmem))]

/-- The way by ranges reports every error where its record does. -/
theorem listed_byRanges_perm (h : NothingToCorrect listing.records opened inside length)
    (path : String) :
    ((byRanges listing.records).listed path).Perm (reportedUnder listing.records path) := by
  have hunit : ∀ r, .fileStart r ∈ listing.records → r.fileId ≠ FileId.baseUnit := by
    intro r hr hbase
    exact h.no_unit (hbase ▸ List.mem_map_of_mem (h.step.mem_starts hr))
  have hnoise : ∀ r, .error r ∈ listing.records → isNoise r = false := fun r hr =>
    (h.errors r (Record.mem_errors.mpr hr)).1
  have hemitted := Correction.emitted_of_unranged listing.records Correction.unranged_start hunit
    h.step.not_mem_expansion hnoise
  rw [show Correction.start.files.keys = [] from rfl, h.errors_opened] at hemitted
  refine (Correction.listed_byRanges_perm listing.records path).trans (List.Perm.of_eq ?_)
  rw [hemitted, reportedUnder]
  simp only [h.pathOf_eq_firstPath?]
  induction Record.errors listing.records with
  | nil => rfl
  | cons r errors ih =>
    cases hline : r.line with
    | none =>
      cases hpath : firstPath? listing.records r.fileId <;>
        simp [reportedAt?, hline, hpath, ih]
    | some line =>
      cases hpath : firstPath? listing.records r.fileId with
      | none => simp [reportedAt?, hline, hpath, ih]
      | some p => by_cases hp : p = path <;> simp [reportedAt?, hline, hpath, hp, ih]

theorem rooted (h : NothingToCorrect listing.records opened inside length) :
    Rooted listing.records opened inside (some length) := by
  refine ⟨h.step, h.root_id, h.root_line, h.errors_opened, ?_⟩
  intro r hr hid line hline
  obtain ⟨-, line', hline', hbounds⟩ := h.errors r hr
  rw [hline] at hline'
  cases hline'
  exact hbounds hid

/-- The way by the forest reports every error where its record does. -/
theorem listed_byTree_perm (h : NothingToCorrect listing.records opened inside length)
    (path : String) :
    ((byTree listing.records).listed path).Perm (reportedUnder listing.records path) := by
  have hflat : reportedOf listing.records FileId.root ++
      inside.ids.flatMap (reportedOf listing.records) =
        ((Nesting.file opened inside (some length) .nil).ids.flatMap fun id =>
          (Record.errors listing.records).filter (·.fileId = id)).filterMap
            (reportedAt? listing.records) := by
    rw [Nesting.ids_file, h.root_id, Nesting.ids_nil, List.append_nil, List.filterMap_flatMap]
    rfl
  rw [h.rooted.diagnostics_byTree, DiagnosticMap.listed_pushAll,
    DiagnosticMap.listed_empty, List.nil_append, hflat]
  refine ((flatMap_filter_perm h.step.nodup_ids ?_).filterMap _).filter _ |>.map _
  intro r hr
  rw [← h.errors_opened] at hr
  rcases Record.opened_of_mem_reported hr with hnone | ⟨start, hstart, hid⟩
  · cases hnone
  · exact hid ▸ List.mem_map_of_mem (h.step.mem_starts hstart)

end NothingToCorrect

/-- Where there is nothing to correct, both ways to resolve a listing list the
same diagnostics under every path, each at the line that its record reports. -/
theorem both_ways_agree_without_corrections (listing : Listing) (opened : Record.FileStart)
    (inside : Nesting) (length : Int)
    (h : NothingToCorrect listing.records opened inside length) (path : String) :
    ((byRanges listing.records).listed path).Perm ((byTree listing.records).listed path) ∧
      ((byTree listing.records).listed path).Perm (reportedUnder listing.records path) := by
  have htree := h.listed_byTree_perm path
  exact ⟨(h.listed_byRanges_perm path).trans htree.symm, htree⟩

/-- A root with a copied member and a stream file copied into that. Errors of
all three come in between. -/
def unedited : Listing := Listing.ofLines [
  "PROCESSOR  0 000 1",
  "FILEID     0 001 000000 013 LIB/SRC(ROOT) 20230101120000 0",
  "ERROR      0 001 1 000004 000004 001 000004 010 RNF7030 S 30 004 root",
  "FILEID     0 002 000002 012 LIB/CPY(CPA) 20230101120000 0",
  "FILEID     0 003 000001 012 /src/./a.cpy 20230101120000 0",
  "ERROR      0 003 1 000009 000009 001 000009 010 RNF1234 S 30 006 stream",
  "FILEEND    0 003 000001",
  "ERROR      0 001 1 000001 000001 001 000001 010 RNF7030 S 30 004 root",
  "FILEEND    0 002 000002",
  "ERROR      0 002 1 000002 000002 001 000002 010 RNF1234 S 30 004 copy",
  "FILEEND    0 001 000004"]

def uneditedRoot : Record.FileStart :=
  ⟨FileId.root, "000000", some 0, some 13, "LIB/SRC(ROOT)", "LIB/SRC(ROOT)"⟩

def uneditedInside : Nesting :=
  .file ⟨⟨2⟩, "000002", some 2, some 12, "LIB/CPY(CPA)", "LIB/CPY(CPA)"⟩
    (.file ⟨⟨3⟩, "000001", some 1, some 12, "/src/./a.cpy", "/src/./a.cpy"⟩ .nil (some 1) .nil)
    (some 2) .nil

theorem unedited_agrees :
    NothingToCorrect unedited.records uneditedRoot uneditedInside 4 ∧
      ((byRanges unedited.records).listed "LIB/SRC/ROOT").Perm
        ((byTree unedited.records).listed "LIB/SRC/ROOT") ∧
      ((byTree unedited.records).listed "/src/a.cpy").Perm
        (reportedUnder unedited.records "/src/a.cpy") ∧
      (reportedUnder unedited.records "/src/a.cpy").map (·.line) = [9] := by
  -- one evaluation, so that the listing is decoded once
  have hall : unedited.records.filter Record.isFrame =
        .processor :: (Nesting.file uneditedRoot uneditedInside (some 4) .nil).records ∧
      Record.ErrorsOpened unedited.records ∧
      (∀ r ∈ Record.errors unedited.records, isNoise r = false ∧
        r.line.any (fun line => r.fileId = FileId.root → 1 ≤ line ∧ line ≤ 4)) ∧
      (reportedUnder unedited.records "/src/a.cpy").map (·.line) = [9] := by
    decide +kernel
  obtain ⟨hframe, hopened, herrors, hlines⟩ := hall
  have h : NothingToCorrect unedited.records uneditedRoot uneditedInside 4 := by
    refine ⟨⟨hframe, by decide⟩, by decide, rfl, rfl, by decide +kernel, hopened, ?_⟩
    intro r hr
    obtain ⟨line, hline, hbounds⟩ := (Option.any_eq_true _ _).mp (herrors r hr).2
    exact ⟨(herrors r hr).1, line, hline, of_decide_eq_true hbounds⟩
  exact ⟨h, (both_ways_agree_without_corrections _ _ _ _ h _).1,
    (both_ways_agree_without_corrections _ _ _ _ h _).2, hlines⟩

end EventListing
