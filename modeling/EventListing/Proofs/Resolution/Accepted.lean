-- The exact result of the pass by ranges. An error is accepted when it is not
-- the precompiler's own, its line reads, and a file with its number was opened
-- before it. Each path lists the accepted errors of its files by their
-- corrected lines, and nothing else.
import EventListing.Proofs.Record.Gather
import EventListing.Proofs.Record.Width
import EventListing.Proofs.Resolution.Tracked

namespace EventListing

/-! ## Files in the order in which they were first opened -/

namespace Record

/-- The numbers of the files, in the order of their first file starts. -/
def openedIds (records : List Record) : List FileId := (openings records).eraseDups

theorem openedIds_concat (records : List Record) (record : Record) :
    openedIds (records ++ [record]) =
      match record.openedId? with
      | none => openedIds records
      | some id =>
        if id ∈ openedIds records then openedIds records else openedIds records ++ [id] := by
  unfold openedIds
  rw [openings_append]
  cases h : record.openedId? with
  | none => simp [openings, h]
  | some id => simp [openings, h, eraseDups_concat]

end Record

namespace Resolution.Correction

theorem keys_openFile (records : List Record) (s : Correction) (r : Record.FileStart) :
    (s.openFile records r).files.keys =
      if r.fileId ∈ s.files.keys then s.files.keys else s.files.keys ++ [r.fileId] := by
  have hold : s.files.contains r.fileId ↔ r.fileId ∈ s.files.keys :=
    (OrderedMap.mem_keys_iff _ _).symm
  simp only [openFile, hold]
  split
  · rfl
  · rename_i hnew
    rw [OrderedMap.insertNew, OrderedMap.keys_alter, if_neg hnew]

/-- Only a file start makes a new file known. -/
theorem keys_apply (records : List Record) (s : Correction) (record : Record) :
    (s.apply records record).files.keys =
      match record.openedId? with
      | none => s.files.keys
      | some id => if id ∈ s.files.keys then s.files.keys else s.files.keys ++ [id] := by
  cases record with
  | fileStart r => exact keys_openFile records s r
  | fileEnd r =>
    rcases files_closeFile s r with h | ⟨-, key, range, h⟩
    · simp [apply, h, Record.openedId?]
    · simp [apply, h, Record.openedId?, OrderedMap.keys_modify]
  | expansion r =>
    rcases files_addExpansion s r with h | ⟨low, high, -, -, h⟩
    · simp [apply, h, Record.openedId?]
    · simp [apply, h, Record.openedId?, OrderedMap.keys_modify]
  | error r => exact keys_addError s r
  | processor | namePart | ignored | unrecognized => rfl

theorem keys_foldl (records before : List Record) :
    (before.foldl (apply records) start).files.keys = Record.openedIds before := by
  induction before using List.reverseRecOn with
  | nil => rfl
  | append_singleton before record ih =>
    rw [List.foldl_append, List.foldl_cons, List.foldl_nil, keys_apply, ih,
      Record.openedIds_concat]

/-! ## Accepted errors -/

/-- An error that is accepted, and the ranges that its file has by then. -/
structure Accepted where
  record : Record.Error
  line : Int
  ranges : List LineRange
deriving DecidableEq, Repr

/-- The error at its corrected line. -/
def Accepted.diagnostic (a : Accepted) : Diagnostic :=
  diagnosticAt a.record (correctedLine a.ranges a.line)

/-- The error of a record behind `before`, if it is accepted. -/
def accepted? (records before : List Record) : Record → Option Accepted
  | .error r =>
    if isNoise r ∨ UnitName.firstStart? before r.fileId = none then none
    else r.line.map fun line =>
      ⟨r, line, (before.foldl (apply records) start).rangesOf r.fileId⟩
  | _ => none

/-- The accepted errors, in the order in which they come. -/
def accepted (records : List Record) : List Accepted :=
  Record.gather (accepted? records) [] records

/-- The accepted errors of one file number. -/
def acceptedOf (records : List Record) (id : FileId) : List Diagnostic :=
  ((accepted records).filter (·.record.fileId = id)).map (·.diagnostic)

/-- The path of a file number: that of its first file start. -/
def pathUnder? (records : List Record) (id : FileId) : Option String :=
  (UnitName.firstStart? records id).map (pathOf records)

/-- The accepted errors of the files of a path, file by file. -/
def acceptedUnder (records : List Record) (path : String) : List Diagnostic :=
  ((Record.openedIds records).filter (pathUnder? records · = some path)).flatMap
    (acceptedOf records)

theorem acceptedUnder_eq (records : List Record) (path : String) :
    acceptedUnder records path =
      (((Record.openedIds records).filter (pathUnder? records · = some path)).flatMap fun id =>
        (accepted records).filter (·.record.fileId = id)).map (·.diagnostic) := by
  unfold acceptedUnder acceptedOf
  rw [List.map_flatMap]

/-- The paths of the files with accepted errors. Each stands where the first
of its files stands. -/
def pathsOfAccepted (records : List Record) : List String :=
  (((Record.openedIds records).filter fun id => !(acceptedOf records id).isEmpty).filterMap
    (pathUnder? records)).eraseDups

/-! ### The pass adds the accepted errors -/

theorem emitted?_eq (records before : List Record) (record : Record) :
    (before.foldl (apply records) start).emitted? record =
      (accepted? records before record).map fun a => (a.record.fileId, a.diagnostic) := by
  cases record with
  | error r =>
    have hopened : (before.foldl (apply records) start).pathAt r.fileId =
        (UnitName.firstStart? before r.fileId).map (pathOf records) :=
      pathAt_foldl records before start r.fileId
    unfold emitted? accepted? rangesOf
    generalize before.foldl (apply records) start = s at *
    unfold pathAt at hopened
    by_cases hnoise : isNoise r
    · simp [hnoise]
    · cases hfile : s.files.get? r.fileId with
      | none =>
        rw [hfile] at hopened
        simp [hfile, Option.map_eq_none_iff.mp hopened.symm]
      | some file =>
        have hsome : UnitName.firstStart? before r.fileId ≠ none := by
          intro hnone
          rw [hfile, hnone] at hopened
          cases hopened
        simp only [hfile, hnoise, hsome, or_self, if_false, Bool.false_eq_true, Option.bind_some,
          Option.map_some, Option.getD_some]
        cases r.line <;> rfl
  | processor | fileStart | namePart | fileEnd | expansion | ignored | unrecognized => rfl

theorem emitted_eq (records before rest : List Record) :
    emitted records (before.foldl (apply records) start) rest =
      (Record.gather (accepted? records) before rest).map fun a =>
        (a.record.fileId, a.diagnostic) := by
  induction rest generalizing before with
  | nil => rfl
  | cons record rest ih =>
    have hnext : (before ++ [record]).foldl (apply records) start =
        (before.foldl (apply records) start).apply records record := by
      rw [List.foldl_append]
      rfl
    rw [emitted, emitted?_eq, Record.gather, List.map_append, ← ih, hnext]
    cases accepted? records before record <;> rfl

/-- At its end, the pass has for each file its accepted errors. -/
theorem errorsAt_eq (records : List Record) (id : FileId) :
    (records.foldl (apply records) start).errorsAt id = acceptedOf records id := by
  rw [errorsAt_foldl, show start = ([] : List Record).foldl (apply records) start from rfl,
    emitted_eq, List.filter_map, List.map_map]
  rfl

theorem pathAt_eq (records : List Record) (id : FileId) :
    (records.foldl (apply records) start).pathAt id = pathUnder? records id := by
  rw [pathAt_foldl]
  rfl

/-! ### The result -/

/-- Each path stands where the first of its files with errors stands. -/
theorem keys_finish (s : Correction) :
    s.finish.keys =
      ((s.files.keys.filter fun id => !(s.errorsAt id).isEmpty).filterMap s.pathAt).eraseDups := by
  -- what a file does to the list under its path does not matter
  obtain ⟨change, hchange⟩ : ∃ change : TrackedFile → Option (List Diagnostic) → List Diagnostic,
      ∀ m file, addFile m file =
        if file.errors.isEmpty then m else m.alter file.path (change file) :=
    ⟨_, fun _ _ => rfl⟩
  have hfold : s.finish = (s.files.values.filter (!·.errors.isEmpty)).foldl
      (fun m file => m.alter file.path (change file)) ∅ := by
    rw [List.foldl_filter]
    unfold finish
    congr 1
    funext m file
    rw [hchange]
    cases file.errors.isEmpty <;> rfl
  rw [hfold, OrderedMap.keys_foldl_alter, OrderedMap.values_eq]
  congr 1
  induction s.files.keys with
  | nil => rfl
  | cons id ids ih =>
    cases hfile : s.files.get? id with
    | none => simp [hfile, ih, errorsAt]
    | some file =>
      cases herrors : file.errors.isEmpty <;> simp [hfile, ih, pathAt, errorsAt, herrors]

/-- Each path lists the accepted errors of its files, sorted by line. -/
theorem listed_byRanges (records : List Record) (path : String) :
    (byRanges records).listed path = byLine (acceptedUnder records path) := by
  rw [byRanges, listed_finish, flatMap_errors_eq, keys_foldl]
  simp only [pathAt_eq, acceptedUnder]
  congr 2
  funext id
  exact errorsAt_eq records id

theorem keys_byRanges (records : List Record) :
    (byRanges records).keys = pathsOfAccepted records := by
  rw [byRanges, keys_finish, keys_foldl]
  simp only [errorsAt_eq]
  congr 2
  funext id
  exact pathAt_eq records id

/-! ### The accepted errors of a path -/

/-- What an accepted error says of the records before it. -/
theorem of_accepted? {records before : List Record} {record : Record} {a : Accepted}
    (h : accepted? records before record = some a) :
    record = .error a.record ∧ a.record.line = some a.line ∧
      (UnitName.firstStart? before a.record.fileId).isSome := by
  cases record with
  | error r =>
    simp only [accepted?] at h
    split at h
    · cases h
    · rename_i hcond
      obtain ⟨line, hline, rfl⟩ := Option.map_eq_some_iff.mp h
      exact ⟨rfl, hline, Option.isSome_iff_ne_none.mpr fun hnone => hcond (Or.inr hnone)⟩
  | processor | fileStart | namePart | fileEnd | expansion | ignored | unrecognized => cases h

/-- The ranges of an accepted error are those that its file has before it. -/
theorem ranges_of_accepted? {records before : List Record} {record : Record} {a : Accepted}
    (h : accepted? records before record = some a) :
    a.ranges = (before.foldl (apply records) start).rangesOf a.record.fileId := by
  cases record with
  | error r =>
    simp only [accepted?] at h
    split at h
    · cases h
    · obtain ⟨line, -, rfl⟩ := Option.map_eq_some_iff.mp h
      rfl
  | processor | fileStart | namePart | fileEnd | expansion | ignored | unrecognized => cases h

theorem of_mem_accepted {records : List Record} {a : Accepted} (h : a ∈ accepted records) :
    .error a.record ∈ records ∧ a.record.line = some a.line ∧
      (pathUnder? records a.record.fileId).isSome := by
  obtain ⟨xs, record, ys, rfl, ha⟩ := Record.mem_gather h
  obtain ⟨rfl, hline, hopened⟩ := of_accepted? ha
  refine ⟨by simp, hline, ?_⟩
  rw [List.nil_append] at hopened
  rw [pathUnder?, Option.isSome_map, UnitName.firstStart?_append, Option.isSome_or, hopened]
  rfl

theorem mem_openedIds_of_pathUnder? {records : List Record} {id : FileId}
    (h : (pathUnder? records id).isSome) : id ∈ Record.openedIds records := by
  unfold pathUnder? at h
  rw [Option.isSome_map, Record.isSome_firstStart?] at h
  exact List.mem_eraseDups.mpr h

theorem nodup_openedIds (records : List Record) : (Record.openedIds records).Nodup := by
  rw [← keys_foldl records records]
  exact OrderedMap.nodup_keys _

/-- The accepted errors of a path, file by file, are all accepted errors of
files with that path. -/
theorem acceptedUnder_perm (records : List Record) (path : String) :
    (acceptedUnder records path).Perm
      (((accepted records).filter fun a =>
        pathUnder? records a.record.fileId = some path).map (·.diagnostic)) := by
  rw [acceptedUnder_eq]
  refine List.Perm.map _ (flatMap_filter_keys_perm (nodup_openedIds records)
    (fun id => pathUnder? records id = some path) ?_)
  intro a _ hpath
  rw [decide_eq_true_eq] at hpath
  exact mem_openedIds_of_pathUnder? (by rw [hpath]; rfl)

/-- A path lists exactly the accepted errors of the files with that path. -/
theorem mem_listed_byRanges {records : List Record} {path : String} {d : Diagnostic} :
    d ∈ (byRanges records).listed path ↔
      ∃ a ∈ accepted records, pathUnder? records a.record.fileId = some path ∧
        a.diagnostic = d := by
  rw [listed_byRanges, (byLine_perm _).mem_iff, (acceptedUnder_perm records path).mem_iff]
  simp only [List.mem_map, List.mem_filter, decide_eq_true_eq, and_assoc]

/-! ### The corrected line -/

/-- A correction never moves a line down. -/
theorem correctedLine_le {ranges : List LineRange} {line : Int} (h : Saturating.InRange line) :
    correctedLine ranges line ≤ line := by
  unfold correctedLine Saturating.sub Saturating.clamp
  unfold Saturating.InRange at h
  split <;> omega

end Resolution.Correction

/-! ## The law -/

open Resolution Correction

/-- The pass by ranges lists under each path the accepted errors of its files,
file by file and then sorted by corrected line, those of one line in their
order. Its paths are those of files with accepted errors. So each accepted
error is listed once, under the path of its own file, and no line grows. -/
theorem accepted_errors_stand_by_line (listing : Listing) :
    let records := listing.records
    (byRanges records).entries =
        ((pathsOfAccepted records).map fun path => (path, byLine (acceptedUnder records path))) ∧
      (∀ path, ((byRanges records).listed path).Pairwise (·.line ≤ ·.line) ∧
        (∀ n : Int, ((byRanges records).listed path).filter (·.line = n) =
          (acceptedUnder records path).filter (·.line = n)) ∧
        ((byRanges records).listed path).Perm
          (((accepted records).filter fun a =>
            pathUnder? records a.record.fileId = some path).map (·.diagnostic))) ∧
      ∀ a ∈ accepted records, (pathUnder? records a.record.fileId).isSome ∧
        a.record.line = some a.line ∧ a.diagnostic.line ≤ a.line := by
  intro records
  refine ⟨?_, ?_, ?_⟩
  · rw [DiagnosticMap.entries_eq, keys_byRanges]
    simp only [listed_byRanges]
  · intro path
    rw [listed_byRanges]
    exact ⟨pairwise_byLine _, fun n => filter_byLine n _,
      (byLine_perm _).trans (acceptedUnder_perm records path)⟩
  · intro a ha
    obtain ⟨hmem, hline, hpath⟩ := of_mem_accepted ha
    have hrange : Saturating.InRange a.line := by
      have := Record.natAbs_line_lt hmem hline
      simp only [Saturating.InRange, Saturating.least, Saturating.greatest]
      omega
    exact ⟨hpath, hline, correctedLine_le hrange⟩

/-- Two files under one path. One of their errors lies behind two lines that
the precompiler put in, one is the precompiler's own, and one comes before its
file. -/
def twoFilesOnePath : Listing := Listing.ofLines [
  "FILEID     0 002 000002 012 LIB/CPY(CPA) 20230101120000 0",
  "FILEID     0 003 000005 012 LIB/CPY(CPA) 20230101120000 0",
  "ERROR      0 003 1 000008 000008 001 000008 010 RNF1234 S 30 003 two",
  "ERROR      0 004 1 000001 000001 001 000001 010 RNF1234 S 30 005 early",
  "FILEID     0 004 000007 012 LIB/CPY(CPB) 20230101120000 0",
  "EXPANSION  0 002 000000 000000 002 000001 000002",
  "ERROR      0 002 1 000009 000009 001 000009 010 RNF7030 S 30 003 one",
  "ERROR      0 002 1 000001 000001 001 000001 010 SQL0104 S 30 003 sql"]

theorem two_files_stand_by_line :
    (byRanges twoFilesOnePath.records).entries =
        [("LIB/CPY/CPA", byLine (acceptedUnder twoFilesOnePath.records "LIB/CPY/CPA"))] ∧
      (acceptedUnder twoFilesOnePath.records "LIB/CPY/CPA").map (·.line) = [7, 8] ∧
      ∃ a ∈ accepted twoFilesOnePath.records, a.line = 9 ∧ a.diagnostic.line ≤ 9 := by
  obtain ⟨hentries, -, haccepted⟩ := accepted_errors_stand_by_line twoFilesOnePath
  have hall : pathsOfAccepted twoFilesOnePath.records = ["LIB/CPY/CPA"] ∧
      (acceptedUnder twoFilesOnePath.records "LIB/CPY/CPA").map (·.line) = [7, 8] ∧
      ∃ a ∈ accepted twoFilesOnePath.records, a.line = 9 := by
    decide +kernel
  obtain ⟨hpaths, hlines, a, ha, hline⟩ := hall
  refine ⟨?_, hlines, a, ha, hline, ?_⟩
  · rw [hentries, hpaths]
    rfl
  · exact hline ▸ (haccepted a ha).2.2

end EventListing
