-- A compile step that comes again. The map of lines is filled by the first
-- step and looked up by both, but the first step looks up the errors of its
-- root before it puts the other files in. So the second step finds them at the
-- same places exactly when the lines of the root have not moved by then.
import EventListing.Proofs.Forest.Steps
import EventListing.Proofs.Resolution.Inlining
import EventListing.Proofs.Resolution.Rooted

namespace EventListing

open LineMap Resolution

/-! ## Lists that say the same -/

/-- Diagnostics that all stand under one path are known by what each path
lists. -/
theorem eq_of_listed_eq {found more : List (String × Diagnostic)} {path : String}
    (hpath : ∀ entry ∈ found, entry.1 = path)
    (h : ∀ q, (more.filter (·.1 = q)).map Prod.snd = (found.filter (·.1 = q)).map Prod.snd) :
    more = found := by
  have hmore : ∀ entry ∈ more, entry.1 = path := by
    intro entry hentry
    have hmem : entry.2 ∈ (more.filter (·.1 = entry.1)).map Prod.snd :=
      List.mem_map_of_mem (List.mem_filter.mpr ⟨hentry, by simp⟩)
    rw [h] at hmem
    obtain ⟨old, hold, -⟩ := List.mem_map.mp hmem
    obtain ⟨hin, hat⟩ := List.mem_filter.mp hold
    rw [decide_eq_true_eq] at hat
    exact hat.symm.trans (hpath old hin)
  have hall : ∀ l : List (String × Diagnostic), (∀ entry ∈ l, entry.1 = path) →
      l = ((l.filter (·.1 = path)).map Prod.snd).map (path, ·) := by
    intro l hl
    rw [List.filter_eq_self.mpr (by simpa using hl), List.map_map]
    conv_lhs => rw [← List.map_id l]
    refine List.map_congr_left ?_
    intro entry hentry
    exact Prod.ext (hl entry hentry) rfl
  rw [hall more hmore, h, ← hall found hpath]

/-! ## The step and itself once more -/

namespace Rooted

variable {listing : Listing} {opened : Record.FileStart} {inside : Nesting}
variable {length : Option Int}

/-- The map of lines after the step does not depend on the paths that are
known. -/
theorem Made.lines_addStep {step : Step} {root : FileNode} {others : List FileNode}
    (hmade : Made listing.records opened inside length step root others)
    (paths paths' : OrderedMap FileId String) :
    (Mapping.addStep paths true Mapping.start step).lines =
      (Mapping.addStep paths' true Mapping.start step).lines := by
  unfold Mapping.addStep
  rw [Mapping.lines_foldl_withEdits hmade.edits, Mapping.lines_foldl_withEdits hmade.edits,
    Mapping.lines_foldl_beforeEdits paths step step.files rfl,
    Mapping.lines_foldl_beforeEdits paths' step step.files rfl]

/-- The second step adds the errors of the other files as the first one does,
and those of the root by the completed map. -/
theorem diagnostics_byTree_append_self (h : Rooted listing.records opened inside length) :
    byTree (listing.records ++ listing.records) = (byTree listing.records).pushAll
      (rootFound listing.records (Mapping.ofForest (Forest.ofRecords listing.records)).lines ++
        inside.ids.flatMap (reportedOf listing.records)) := by
  obtain ⟨step, root, others, hsteps, hmade⟩ := h.exists_made
  have htwice := h.step.steps_append_self h.errors_opened
  have hpaths : ∀ id, (Forest.ofRecords (listing.records ++ listing.records)).paths.get? id =
      firstPath? listing.records id := by
    intro id
    rw [Forest.paths_ofRecords, UnitName.firstStart?_append, Option.or_self]
    rfl
  set paths := (Forest.ofRecords (listing.records ++ listing.records)).paths
  set paths' := (Forest.ofRecords listing.records).paths with hpaths'
  have hfirst : (Mapping.addStep paths true Mapping.start step).diagnostics =
      (Mapping.addStep paths' true Mapping.start step).diagnostics := by
    rw [h.diagnostics_addStep hmade hpaths,
      h.diagnostics_addStep hmade (Forest.paths_ofRecords listing.records)]
  unfold byTree Mapping.ofForest
  rw [htwice, hsteps]
  simp only [List.cons_append, List.nil_append, List.foldl_cons, List.foldl_nil]
  rw [h.diagnostics_addStep hmade hpaths, hfirst, hmade.lines_addStep paths paths']
  rfl

theorem path_of_mem_reportedOf (h : Rooted listing.records opened inside length) :
    ∀ entry ∈ reportedOf listing.records FileId.root, entry.1 = UnitName.path opened.name := by
  intro entry hentry
  obtain ⟨r, hr, hat⟩ := List.mem_filterMap.mp hentry
  have hid : r.fileId = FileId.root := by simpa using (List.mem_filter.mp hr).2
  unfold reportedAt? at hat
  rw [hid, h.firstPath?_root] at hat
  obtain ⟨line, -, rfl⟩ := Option.map_eq_some_iff.mp hat
  rfl

end Rooted

/-! ## The law -/

/-- A step that comes again lists, under each path, what it listed before,
exactly when each line of the root at which an error is reported stands at its
own place in the completed map. In any case it lists the errors of the other
files at the same places, and those of the root by the completed map. -/
theorem repeated_step_repeats_iff (listing : Listing) (opened : Record.FileStart)
    (inside : Nesting) (length : Option Int)
    (h : Rooted listing.records opened inside length) :
    let twice := byTree (Listing.records (listing ++ listing))
    let once := byTree listing.records
    let m := (Mapping.ofForest (Forest.ofListing listing)).lines
    twice = once.pushAll
        (rootFound listing.records m ++ inside.ids.flatMap (reportedOf listing.records)) ∧
      ((∀ path, twice.listed path = once.listed path ++ once.listed path) ↔
        ∀ r ∈ Record.errors listing.records, r.fileId = FileId.root →
          ∀ line, r.line = some line →
            m.lines[(line - 1).toNat]? =
              some ⟨UnitName.path opened.name, line.toNat, false⟩) := by
  intro twice once m
  have htwice : twice = once.pushAll
      (rootFound listing.records m ++ inside.ids.flatMap (reportedOf listing.records)) :=
    (congrArg byTree (Listing.records_append listing listing)).trans
      h.diagnostics_byTree_append_self
  refine ⟨htwice, ?_⟩
  rw [← h.rootFound_eq_iff, htwice]
  have honce : once = DiagnosticMap.pushAll ∅ (reportedOf listing.records FileId.root ++
      inside.ids.flatMap (reportedOf listing.records)) := h.diagnostics_byTree
  constructor
  · intro hlisted
    refine eq_of_listed_eq h.path_of_mem_reportedOf ?_
    intro q
    have hq := hlisted q
    rw [DiagnosticMap.listed_pushAll, List.append_cancel_left_eq, honce,
      DiagnosticMap.listed_pushAll, DiagnosticMap.listed_empty, List.nil_append,
      List.filter_append, List.filter_append, List.map_append, List.map_append,
      List.append_cancel_right_eq] at hq
    exact hq
  · intro hsame path
    rw [DiagnosticMap.listed_pushAll, hsame]
    congr 1
    rw [honce, DiagnosticMap.listed_pushAll, DiagnosticMap.listed_empty, List.nil_append]

/-- A member with a copied one at its third line, and an error of the root behind
it in the listing. -/
def withCopy (error : String) : Listing := Listing.ofLines [
  "PROCESSOR  0 000 1",
  "FILEID     0 001 000000 013 LIB/SRC(ROOT) 20230101120000 0",
  "FILEID     0 002 000003 012 LIB/CPY(CPA) 20230101120000 0",
  "ERROR      0 002 1 000002 000002 001 000002 010 RNF1234 S 30 004 copy",
  "FILEEND    0 002 000002",
  error,
  "FILEEND    0 001 000004"]

/-- The error stands before the copied member. -/
def errorBeforeCopy : Listing :=
  withCopy "ERROR      0 001 1 000002 000002 001 000002 010 RNF7030 S 30 004 root"

/-- The error stands behind the copied member. -/
def errorBehindCopy : Listing :=
  withCopy "ERROR      0 001 1 000004 000004 001 000004 010 RNF7030 S 30 004 root"

def withCopyRoot : Record.FileStart :=
  ⟨FileId.root, "000000", some 0, some 13, "LIB/SRC(ROOT)", "LIB/SRC(ROOT)"⟩

def withCopyInside : Nesting :=
  .file ⟨⟨2⟩, "000003", some 3, some 12, "LIB/CPY(CPA)", "LIB/CPY(CPA)"⟩ .nil (some 2) .nil

/-- Whether the listing is rooted, up to the parts that do not depend on its
errors. -/
theorem rooted_of_withCopy {error : String}
    (hall : (withCopy error).records.filter Record.isFrame =
        .processor :: (Nesting.file withCopyRoot withCopyInside (some 4) .nil).records ∧
      Record.ErrorsOpened (withCopy error).records ∧
      ∀ r ∈ Record.errors (withCopy error).records, r.fileId = FileId.root →
        r.line.all fun line => 1 ≤ line ∧ line ≤ 4) :
    Rooted (withCopy error).records withCopyRoot withCopyInside (some 4) := by
  obtain ⟨hframe, hopened, herrors⟩ := hall
  refine ⟨⟨hframe, by decide⟩, rfl, rfl, hopened, ?_⟩
  intro r hr hid line hline
  have hbounds := herrors r hr hid
  rw [hline] at hbounds
  simpa using hbounds

theorem error_before_copy_repeats :
    Rooted errorBeforeCopy.records withCopyRoot withCopyInside (some 4) ∧
      (∀ path, (byTree (Listing.records (errorBeforeCopy ++ errorBeforeCopy))).listed path =
        (byTree errorBeforeCopy.records).listed path ++
          (byTree errorBeforeCopy.records).listed path) ∧
      ((byTree errorBeforeCopy.records).listed "LIB/SRC/ROOT").map (·.line) = [2] := by
  have hall : (errorBeforeCopy.records.filter Record.isFrame =
        .processor :: (Nesting.file withCopyRoot withCopyInside (some 4) .nil).records ∧
      Record.ErrorsOpened errorBeforeCopy.records ∧
      ∀ r ∈ Record.errors errorBeforeCopy.records, r.fileId = FileId.root →
        r.line.all fun line => 1 ≤ line ∧ line ≤ 4) ∧
      (∀ r ∈ Record.errors errorBeforeCopy.records, r.fileId = FileId.root → r.line = some 2) ∧
      (Mapping.ofForest (Forest.ofListing errorBeforeCopy)).lines.lines[1]? =
        some ⟨"LIB/SRC/ROOT", 2, false⟩ ∧
      ((byTree errorBeforeCopy.records).listed "LIB/SRC/ROOT").map (·.line) = [2] := by
    decide +kernel
  obtain ⟨hparts, hlines, hat, hlisted⟩ := hall
  have h : Rooted errorBeforeCopy.records withCopyRoot withCopyInside (some 4) :=
    rooted_of_withCopy hparts
  refine ⟨h, (repeated_step_repeats_iff _ _ _ _ h).2.mpr ?_, hlisted⟩
  intro r hr hid line hline
  obtain rfl : 2 = line := Option.some.inj ((hlines r hr hid).symm.trans hline)
  exact hat

/-- By the second step, the lines of the copied member stand where the error is
looked up. -/
theorem error_behind_copy_moves :
    Rooted errorBehindCopy.records withCopyRoot withCopyInside (some 4) ∧
      ((byTree errorBehindCopy.records).listed "LIB/SRC/ROOT").map (·.line) = [4] ∧
      ((byTree errorBehindCopy.records).listed "LIB/CPY/CPA").map (·.line) = [2] ∧
      ((byTree (Listing.records (errorBehindCopy ++ errorBehindCopy))).listed
        "LIB/SRC/ROOT").map (·.line) = [4] ∧
      ((byTree (Listing.records (errorBehindCopy ++ errorBehindCopy))).listed
        "LIB/CPY/CPA").map (·.line) = [2, 1, 2] := by
  have hall : (errorBehindCopy.records.filter Record.isFrame =
        .processor :: (Nesting.file withCopyRoot withCopyInside (some 4) .nil).records ∧
      Record.ErrorsOpened errorBehindCopy.records ∧
      ∀ r ∈ Record.errors errorBehindCopy.records, r.fileId = FileId.root →
        r.line.all fun line => 1 ≤ line ∧ line ≤ 4) ∧
      ((byTree errorBehindCopy.records).listed "LIB/SRC/ROOT").map (·.line) = [4] ∧
      ((byTree errorBehindCopy.records).listed "LIB/CPY/CPA").map (·.line) = [2] ∧
      ((byTree (Listing.records (errorBehindCopy ++ errorBehindCopy))).listed
        "LIB/SRC/ROOT").map (·.line) = [4] ∧
      ((byTree (Listing.records (errorBehindCopy ++ errorBehindCopy))).listed
        "LIB/CPY/CPA").map (·.line) = [2, 1, 2] := by
    decide +kernel
  exact ⟨rooted_of_withCopy hall.1, hall.2⟩

end EventListing
