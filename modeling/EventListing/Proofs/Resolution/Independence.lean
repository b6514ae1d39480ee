-- Errors are brought to their sources independently of each other. An error
-- changes no range, no file and no line of the map, so without it a listing
-- has the same diagnostics but for the one of that error.
import EventListing.Proofs.Forest.Bare
import EventListing.Proofs.Record.Others
import EventListing.Proofs.Resolution.Accepted
import EventListing.Proofs.Resolution.Moments
import EventListing.Resolution.Strategy

namespace EventListing.Resolution

open Record

/-! ## The pass by ranges -/

/-- The file without its errors. -/
def TrackedFile.bare (file : TrackedFile) : TrackedFile := { file with errors := [] }

namespace Correction

/-- The two states of the pass differ at most in the errors of their files. -/
structure SameFrame (s t : Correction) : Prop where
  files : ∀ id, (s.files.get? id).map TrackedFile.bare = (t.files.get? id).map TrackedFile.bare
  openFiles : s.openFiles = t.openFiles
  openRanges : s.openRanges = t.openRanges

namespace SameFrame

variable {s t u : Correction}

theorem refl (s : Correction) : SameFrame s s := ⟨fun _ => rfl, rfl, rfl⟩

theorem trans (hst : SameFrame s t) (htu : SameFrame t u) : SameFrame s u :=
  ⟨fun id => (hst.files id).trans (htu.files id), hst.openFiles.trans htu.openFiles,
    hst.openRanges.trans htu.openRanges⟩

/-- What is read off a file and not off its errors is the same in both. -/
theorem map_get? {α : Type} {f : TrackedFile → α} (hf : ∀ file, f file.bare = f file)
    (h : SameFrame s t) (id : FileId) :
    (s.files.get? id).map f = (t.files.get? id).map f := by
  have hbare : ∀ file : Option TrackedFile, file.map f = (file.map TrackedFile.bare).map f := by
    intro file
    cases file <;> simp [hf]
  rw [hbare, h.files, ← hbare]

theorem contains_eq (h : SameFrame s t) (id : FileId) :
    s.files.contains id = t.files.contains id := by
  have := congrArg Option.isSome (h.files id)
  simpa [OrderedMap.contains] using this

theorem rangesOf_eq (h : SameFrame s t) (id : FileId) : s.rangesOf id = t.rangesOf id := by
  unfold rangesOf
  rw [h.map_get? (f := (·.ranges)) fun _ => rfl]

/-- The same change of a file in both, one that does not look at errors. -/
theorem modify {change : TrackedFile → TrackedFile}
    (hchange : ∀ file, (change file).bare = (change file.bare).bare) (h : SameFrame s t)
    (id : FileId) :
    SameFrame { s with files := s.files.modify id change }
      { t with files := t.files.modify id change } := by
  refine ⟨?_, h.openFiles, h.openRanges⟩
  intro q
  simp only [OrderedMap.get?_modify]
  by_cases hq : q = id
  · rw [if_pos hq, if_pos hq, Option.map_map, Option.map_map]
    refine h.map_get? ?_ id
    intro file
    exact (hchange file).symm
  · rw [if_neg hq, if_neg hq, h.files]

theorem addError (s : Correction) (r : Record.Error) : SameFrame (s.addError r) s := by
  rw [addError_eq]
  split
  · exact refl s
  · split
    · exact refl s
    · refine ⟨?_, rfl, rfl⟩
      intro id
      simp only [OrderedMap.get?_modify]
      split
      · rename_i hid
        rw [hid]
        cases s.files.get? r.fileId <;> rfl
      · rfl

theorem openFile {records records' : List Record} (h : SameFrame s t) {r : Record.FileStart}
    (hpath : pathOf records r = pathOf records' r) :
    SameFrame (s.openFile records r) (t.openFile records' r) := by
  unfold Correction.openFile
  refine ⟨?_, congrArg (r.fileId :: ·) h.openFiles, congrArg (_ :: ·) h.openRanges⟩
  intro id
  simp only [h.contains_eq, hpath]
  split
  · exact h.files id
  · rename_i hnew
    have hnewS : s.files.get? r.fileId = none := by
      rw [← h.contains_eq] at hnew
      simpa [OrderedMap.contains] using hnew
    have hnewT : t.files.get? r.fileId = none := by
      simpa [OrderedMap.contains] using hnew
    simp only [OrderedMap.insertNew, OrderedMap.get?_alter, hnewS, hnewT]
    split
    · rfl
    · exact h.files id

theorem addCopyRange (h : SameFrame s t) (range : LineRange) :
    SameFrame (s.addCopyRange range) (t.addCopyRange range) := by
  obtain ⟨files, openFiles, openRanges⟩ := s
  obtain ⟨files', openFiles', openRanges'⟩ := t
  obtain rfl : openFiles = openFiles' := h.openFiles
  have hcontains : files.contains FileId.baseUnit = files'.contains FileId.baseUnit :=
    h.contains_eq FileId.baseUnit
  unfold Correction.addCopyRange
  simp only [hcontains]
  split
  · split
    · refine h.modify ?_ _
      exact fun _ => rfl
    · exact h
  · exact h

theorem closeFile (h : SameFrame s t) (r : Record.FileEnd) :
    SameFrame (s.closeFile r) (t.closeFile r) := by
  have hclosed : ∀ ranges, SameFrame ⟨s.files, s.openFiles.tail, ranges⟩
      ⟨t.files, t.openFiles.tail, ranges⟩ :=
    fun _ => ⟨h.files, congrArg List.tail h.openFiles, rfl⟩
  have hinclude : s.includeAt r.fileId = t.includeAt r.fileId := by
    rw [includeAt_eq, includeAt_eq, h.map_get? (f := (·.isInclude)) fun _ => rfl]
  unfold includeAt at hinclude
  unfold Correction.closeFile
  simp only [hinclude, h.openRanges]
  split
  · split
    · exact hclosed _
    · split
      · exact (hclosed _).addCopyRange _
      · exact hclosed _
  · exact hclosed _

theorem addExpansion (h : SameFrame s t) (r : Record.Expansion) :
    SameFrame (s.addExpansion r) (t.addExpansion r) := by
  unfold Correction.addExpansion
  split
  · refine h.modify ?_ _
    exact fun _ => rfl
  · exact h

/-- A record that is no error does the same to both. -/
theorem apply {records records' : List Record}
    (hpath : ∀ r, pathOf records r = pathOf records' r) (h : SameFrame s t) {record : Record}
    (hrecord : record.isError = false) :
    SameFrame (s.apply records record) (t.apply records' record) := by
  cases record with
  | fileStart r => exact h.openFile (hpath r)
  | fileEnd r => exact h.closeFile r
  | expansion r => exact h.addExpansion r
  | error r => cases hrecord
  | processor | namePart | ignored | unrecognized => exact h

/-- Errors leave nothing behind but themselves. -/
theorem foldl_others {records records' : List Record}
    (hpath : ∀ r, pathOf records r = pathOf records' r) (before : List Record) (h : SameFrame s t) :
    SameFrame (before.foldl (Correction.apply records) s)
      ((others before).foldl (Correction.apply records') t) := by
  induction before generalizing s t with
  | nil => exact h
  | cons record before ih =>
    cases hrecord : record.isError with
    | true =>
      have hothers : others (record :: before) = others before := by simp [others, hrecord]
      cases record with
      | error r =>
        rw [hothers]
        exact ih ((addError s r).trans h)
      | processor | fileStart | namePart | fileEnd | expansion | ignored | unrecognized =>
        cases hrecord
    | false =>
      have hothers : others (record :: before) = record :: others before := by
        simp [others, hrecord]
      rw [hothers]
      exact ih (h.apply hpath hrecord)

end SameFrame

theorem pathOf_others (records : List Record) (r : Record.FileStart) :
    pathOf (others records) r = pathOf records r := by
  unfold pathOf
  rw [UnitName.full?_others]

theorem accepted?_others (records before : List Record) (record : Record) :
    accepted? (others records) (others before) record = accepted? records before record := by
  have hsame := SameFrame.foldl_others (fun r => (pathOf_others records r).symm) before
    (SameFrame.refl start)
  cases record with
  | error r => simp only [accepted?, UnitName.firstStart?_others, hsame.rangesOf_eq r.fileId]
  | processor | fileStart | namePart | fileEnd | expansion | ignored | unrecognized => rfl

theorem pathUnder?_others (records : List Record) (id : FileId) :
    pathUnder? (others records) id = pathUnder? records id := by
  unfold pathUnder?
  rw [UnitName.firstStart?_others]
  congr 1
  funext r
  exact pathOf_others records r

/-! ### One error less -/

section Without

variable (xs ys : List Record) (r : Record.Error)

theorem accepted_oneLess :
    OneLess (accepted? (xs ++ .error r :: ys) xs (.error r)) (accepted (xs ++ .error r :: ys))
      (accepted (xs ++ ys)) := by
  have hblind : ∀ before record, accepted? (xs ++ .error r :: ys) (others before) record =
      accepted? (xs ++ .error r :: ys) before record := by
    intro before record
    rw [← accepted?_others _ (others before), others_others, accepted?_others]
  have hsame : accepted? (xs ++ ys) = accepted? (xs ++ .error r :: ys) := by
    funext before record
    rw [← accepted?_others, ← others_error xs ys r, accepted?_others]
  unfold accepted
  rw [hsame]
  exact gather_error hblind xs ys r

theorem openedIds_error : openedIds (xs ++ .error r :: ys) = openedIds (xs ++ ys) := by
  unfold openedIds
  rw [← openings_others, others_error, openings_others]

theorem pathUnder?_error :
    pathUnder? (xs ++ .error r :: ys) = pathUnder? (xs ++ ys) := by
  funext id
  rw [← pathUnder?_others, others_error, pathUnder?_others]

theorem acceptedUnder_oneLess (path : String) :
    OneLess (((accepted? (xs ++ .error r :: ys) xs (.error r)).filter fun a =>
        pathUnder? (xs ++ .error r :: ys) a.record.fileId = some path).map (·.diagnostic))
      (acceptedUnder (xs ++ .error r :: ys) path) (acceptedUnder (xs ++ ys) path) := by
  have hgroups := (accepted_oneLess xs ys r).flatMap_filter (·.record.fileId)
    ((nodup_openedIds (xs ++ .error r :: ys)).filter
      (pathUnder? (xs ++ .error r :: ys) · = some path))
  have hkey : ∀ a : Accepted, a.record.fileId ∈ (openedIds (xs ++ .error r :: ys)).filter
      (pathUnder? (xs ++ .error r :: ys) · = some path) ↔
        pathUnder? (xs ++ .error r :: ys) a.record.fileId = some path := by
    intro a
    rw [List.mem_filter, decide_eq_true_eq]
    exact ⟨And.right, fun h => ⟨mem_openedIds_of_pathUnder? (by rw [h]; rfl), h⟩⟩
  simp only [hkey] at hgroups
  rw [acceptedUnder_eq, acceptedUnder_eq, ← openedIds_error xs ys r, ← pathUnder?_error xs ys r]
  exact hgroups.map _

/-- Under each path, the pass by ranges lists one error less. -/
theorem listed_byRanges_oneLess (path : String) :
    OneLess (((accepted? (xs ++ .error r :: ys) xs (.error r)).filter fun a =>
        pathUnder? (xs ++ .error r :: ys) a.record.fileId = some path).map (·.diagnostic))
      ((byRanges (xs ++ .error r :: ys)).listed path) ((byRanges (xs ++ ys)).listed path) := by
  rw [listed_byRanges, listed_byRanges]
  exact byLine_oneLess (acceptedUnder_oneLess xs ys r path)

end Without

end Correction

/-! ## The way by the forest -/

namespace Mapping

/-- The lines after a run over bare files are those after the run over the
files themselves. -/
theorem lines_foldl_map {α : Type} {f f' : Mapping → α → Mapping} {g : α → α}
    (hf : ∀ m m' a, m.lines = m'.lines → (f m a).lines = (f' m' (g a)).lines) (l : List α)
    {m m' : Mapping} (h : m.lines = m'.lines) :
    (l.foldl f m).lines = ((l.map g).foldl f' m').lines := by
  induction l generalizing m m' with
  | nil => exact h
  | cons a l ih => exact ih (hf m m' a h)

variable {m m' : Mapping}

theorem lines_inline_bare (step : Step) (file : FileNode) (h : m.lines = m'.lines) :
    (m.inline step file).lines = (m'.inline step.bare file.bare).lines := by
  unfold inline
  rw [Step.absoluteStart?_bare]
  by_cases hbase : file.id = FileId.baseUnit
  · have hbase' : file.bare.id = FileId.baseUnit := hbase
    rw [if_pos hbase, if_pos hbase']
    exact h
  · have hbase' : ¬ file.bare.id = FileId.baseUnit := hbase
    rw [if_neg hbase, if_neg hbase']
    cases step.absoluteStart? file with
    | none => exact h
    | some position =>
      simp only [h]
      rfl

theorem lines_applyEdit_bare (step : Step) (file : FileNode) (edit : Edit)
    (h : m.lines = m'.lines) :
    (applyEdit step file m edit).lines = (applyEdit step.bare file.bare m' edit).lines := by
  have htarget : edit.target.bind step.bare.find? =
      (edit.target.bind step.find?).map FileNode.bare := by
    cases edit.target <;> simp
  unfold applyEdit
  rw [htarget]
  split
  · cases edit.target.bind step.find? with
    | none => exact h
    | some target =>
      simp only [Option.map_some, FileNode.bare]
      cases target.startsAt with
      | none => exact h
      | some startsAt => simp only [h]
  · split
    · simp only [FileNode.bare]
      cases file.startsAt with
      | none => exact h
      | some startsAt => simp only [h]
    · exact h

theorem lines_beforeEdits_bare (paths : OrderedMap FileId String) (inlines : Bool) (step : Step)
    (file : FileNode) (h : m.lines = m'.lines) :
    (beforeEdits paths inlines step m file).lines =
      (beforeEdits paths inlines step.bare m' file.bare).lines := by
  rw [lines_beforeEdits, lines_beforeEdits, lines_inline_bare step file h, h]

theorem lines_withEdits_bare (step : Step) (file : FileNode) (h : m.lines = m'.lines) :
    (withEdits step m file).lines = (withEdits step.bare m' file.bare).lines := by
  rw [lines_withEdits, lines_withEdits]
  have hedits := lines_foldl_map (g := id)
    (fun _ _ edit hm => lines_applyEdit_bare step file edit hm) file.edits h
  rw [List.map_id] at hedits
  exact hedits

theorem lines_addStep_bare (paths : OrderedMap FileId String) (inlines : Bool) (step : Step)
    (h : m.lines = m'.lines) :
    (addStep paths inlines m step).lines = (addStep paths inlines m' step.bare).lines :=
  lines_foldl_map (fun _ _ => lines_withEdits_bare step) step.files
    (lines_foldl_map (fun _ _ => lines_beforeEdits_bare paths inlines step) step.files h)

/-- The lines of a forest do not depend on its errors. -/
theorem lines_ofForest_bare (forest : Forest) :
    (ofForest forest).lines = (ofForest forest.bare).lines := by
  obtain ⟨steps, paths⟩ := forest
  unfold ofForest Forest.bare
  cases steps with
  | nil => rfl
  | cons first rest =>
    exact lines_foldl_map (fun _ _ step => lines_addStep_bare paths false step) rest
      (lines_addStep_bare paths true first rfl)

theorem linesAt_bare (forest : Forest) (moment : Moment) :
    linesAt forest moment = linesAt forest.bare moment := by
  have hbefore : (upTo forest moment.step).lines = (upTo forest.bare moment.step).lines := by
    unfold upTo
    rw [lines_ofForest_bare]
    simp [Forest.bare]
  unfold linesAt
  have hstep : forest.bare.steps[moment.step]? = (forest.steps[moment.step]?).map Step.bare :=
    List.getElem?_map
  rw [hstep]
  cases forest.steps[moment.step]? with
  | none => rfl
  | some step =>
    have hfiles : step.bare.files.take (moment.file + 1) =
        (step.files.take (moment.file + 1)).map FileNode.bare := List.map_take.symm
    have hearly : ∀ files : List FileNode,
        (files.foldl (beforeEdits forest.paths (moment.step = 0) step)
          (upTo forest moment.step)).lines =
        ((files.map FileNode.bare).foldl (beforeEdits forest.paths (moment.step = 0) step.bare)
          (upTo forest.bare moment.step)).lines := fun files =>
      lines_foldl_map (fun _ _ => lines_beforeEdits_bare forest.paths _ step) files hbefore
    simp only [Option.map_some, hfiles]
    split
    · exact lines_foldl_map (fun _ _ => lines_withEdits_bare step) _ (hearly step.files)
    · exact hearly _

end Mapping

/-! ### The moments -/

theorem bare_others (records : List Record) :
    (Forest.ofRecords (others records)).bare = (Forest.ofRecords records).bare := by
  rw [Forest.bare_ofRecords, Forest.bare_ofRecords]
  congr 1
  unfold others
  rw [List.filter_filter]
  congr 1
  funext record
  cases record <;> rfl

theorem moments_others (records : List Record) : moments (others records) = moments records := by
  unfold moments
  simp only [stepCount_others, openings_ofStep_others]

theorem report?_others (before : List Record) (record : Record) :
    report? (others before) record = report? before record := by
  cases record with
  | error r => simp only [report?, stepCount_others, openings_ofStep_others, any_ofStep_others]
  | processor | fileStart | namePart | fileEnd | expansion | ignored | unrecognized => rfl

theorem outcome?_others (records : List Record) (r : Report) :
    r.outcome? (others records) = r.outcome? records := by
  have hdirect : r.IsDirect (others records) ↔ r.IsDirect records := by
    unfold Report.IsDirect
    rw [openings_ofStep_others]
  have hlines : r.lines (others records) = r.lines records := by
    unfold Report.lines
    rw [Mapping.linesAt_bare, bare_others, ← Mapping.linesAt_bare]
  unfold Report.outcome? firstPath?
  simp only [hdirect, hlines, UnitName.firstStart?_others]

/-! ### One error less -/

section Without

variable (xs ys : List Record) (r : Record.Error)

theorem resolved_oneLess :
    OneLess (report? xs (.error r)) (resolved (xs ++ .error r :: ys)) (resolved (xs ++ ys)) := by
  have hreports : OneLess (report? xs (.error r)) (reports (xs ++ .error r :: ys))
      (reports (xs ++ ys)) := gather_error report?_others xs ys r
  have hmoments : moments (xs ++ ys) = moments (xs ++ .error r :: ys) := by
    rw [← moments_others, ← others_error xs ys r, moments_others]
  have hgroups := hreports.flatMap_filter (·.moment)
    (nodup_moments (xs ++ .error r :: ys))
  have hall : (report? xs (.error r)).filter (·.moment ∈ moments (xs ++ .error r :: ys)) =
      report? xs (.error r) := by
    cases hr : report? xs (.error r) with
    | none => rfl
    | some report =>
      obtain ⟨as, bs, hold, -⟩ := hreports
      have hmem : report ∈ reports (xs ++ .error r :: ys) := by simp [hold, hr]
      exact Option.filter_eq_some_iff.mpr ⟨rfl, by simpa using moment_mem hmem⟩
  rw [hall] at hgroups
  unfold resolved
  rw [hmoments]
  exact hgroups

theorem found_oneLess :
    OneLess ((report? xs (.error r)).bind (Report.outcome? (xs ++ .error r :: ys)))
      ((resolved (xs ++ .error r :: ys)).filterMap (Report.outcome? (xs ++ .error r :: ys)))
      ((resolved (xs ++ ys)).filterMap (Report.outcome? (xs ++ ys))) := by
  have hsame : Report.outcome? (xs ++ ys) = Report.outcome? (xs ++ .error r :: ys) := by
    funext report
    rw [← outcome?_others, ← others_error xs ys r, outcome?_others]
  rw [hsame]
  exact (resolved_oneLess xs ys r).filterMap _

theorem lines_error :
    (Mapping.ofForest (Forest.ofRecords (xs ++ .error r :: ys))).lines =
      (Mapping.ofForest (Forest.ofRecords (xs ++ ys))).lines := by
  rw [Mapping.lines_ofForest_bare, ← bare_others, others_error, bare_others,
    ← Mapping.lines_ofForest_bare]

end Without

/-! ## The law -/

namespace Strategy

/-- The diagnostic to which a record behind `before` leads, with its path. -/
def produced? (s : Strategy) (records before : List Record) (record : Record) :
    Option (String × Diagnostic) :=
  match s with
  | range => (Correction.accepted? records before record).bind fun a =>
      (Correction.pathUnder? records a.record.fileId).map fun path => (path, a.diagnostic)
  | tree => (report? before record).bind (Report.outcome? records)

theorem filter_produced?_range (records before : List Record) (record : Record) (path : String) :
    ((range.produced? records before record).filter (·.1 = path)).map Prod.snd =
      ((Correction.accepted? records before record).filter fun a =>
        Correction.pathUnder? records a.record.fileId = some path).map (·.diagnostic) := by
  unfold produced?
  simp only
  cases Correction.accepted? records before record with
  | none => rfl
  | some a =>
    cases hpath : Correction.pathUnder? records a.record.fileId with
    | none => simp [Option.filter_some, hpath]
    | some q => by_cases hq : q = path <;> simp [Option.filter_some, hpath, hq]

/-- What an error leads to is a diagnostic of its own. -/
theorem eq_of_produced? {s : Strategy} {records before : List Record} {r : Record.Error}
    {path : String} {d : Diagnostic}
    (h : s.produced? records before (.error r) = some (path, d)) : d = diagnosticAt r d.line := by
  cases s with
  | range =>
    obtain ⟨a, ha, hat⟩ := Option.bind_eq_some_iff.mp h
    obtain ⟨q, -, hq⟩ := Option.map_eq_some_iff.mp hat
    cases hq
    cases (Correction.of_accepted? ha).1
    rfl
  | tree =>
    obtain ⟨report, hreport, hat⟩ := Option.bind_eq_some_iff.mp h
    cases (of_report? hreport).1
    unfold Report.outcome? at hat
    split at hat
    · obtain ⟨q, -, hq⟩ := Option.map_eq_some_iff.mp hat
      cases hq
      rfl
    · obtain ⟨origin, -, hq⟩ := Option.map_eq_some_iff.mp hat
      cases hq
      rfl

end Strategy

end EventListing.Resolution

namespace EventListing

open Resolution

/-- Without the line of an error, a listing has the same diagnostics under each
path, in the same order, but for the one to which that error leads, if any. The
map of lines stays the same. -/
theorem errors_are_resolved_independently (before after : Listing) (line : Line) (r : Record.Error)
    (h : Record.decode line = .ok (.error r)) :
    let old : Listing := before ++ line :: after
    let new : Listing := before ++ after
    (∀ s : Strategy,
      let produced := s.produced? old.records before.records (.error r)
      (∀ path d, produced = some (path, d) → d = diagnosticAt r d.line) ∧
        ∀ path, OneLess ((produced.filter (·.1 = path)).map Prod.snd)
          ((s.resolve old).listed path) ((s.resolve new).listed path)) ∧
      (Mapping.ofForest (Forest.ofListing old)).lines =
        (Mapping.ofForest (Forest.ofListing new)).lines := by
  intro old new
  have hline : Listing.records (line :: after) = .error r :: after.records := by
    simp [Listing.records, h, Except.toOption]
  have hold : old.records = before.records ++ .error r :: after.records := by
    rw [← hline]
    exact Listing.records_append _ _
  have hnew : new.records = before.records ++ after.records := Listing.records_append _ _
  refine ⟨?_, ?_⟩
  · intro s
    refine ⟨fun path d => Strategy.eq_of_produced?, ?_⟩
    intro path
    cases s with
    | range =>
      simp only [Strategy.resolve, hold, hnew, Strategy.filter_produced?_range]
      exact Correction.listed_byRanges_oneLess _ _ r path
    | tree =>
      simp only [Strategy.produced?, Strategy.resolve]
      rw [byTree_eq, byTree_eq, DiagnosticMap.listed_pushAll, DiagnosticMap.listed_pushAll, hold,
        hnew]
      exact (((found_oneLess _ _ r).filter _).map _).append_left _
  · unfold Forest.ofListing
    rw [hold, hnew]
    exact lines_error _ _ r

/-- The last error of the root stands behind a line that the precompiler put
in. -/
def beforeLast : Listing := Listing.ofLines [
  "PROCESSOR  0 000 1",
  "FILEID     0 001 000000 013 LIB/SRC(ROOT) 20230101120000 0",
  "ERROR      0 001 1 000002 000002 001 000002 010 RNF7030 S 30 005 early",
  "EXPANSION  0 001 000000 000000 001 000002 000002",
  "ERROR      0 001 1 000001 000001 001 000001 010 RNF7030 S 30 005 first"]

def lastLine : Line :=
  Line.pad "ERROR      0 001 1 000003 000003 001 000003 010 RNF7030 S 30 004 last".toList

def lastError : Record.Error := ⟨FileId.root, some 30, some 3, some 1, some 10, "RNF7030", "last"⟩

def afterLast : Listing := Listing.ofLines [
  "FILEEND    0 001 000004"]

theorem last_error_is_resolved_alone :
    Record.decode lastLine = .ok (.error lastError) ∧
      (∀ s : Strategy, OneLess (some (diagnosticAt lastError 2))
        ((s.resolve (beforeLast ++ lastLine :: afterLast)).listed "LIB/SRC/ROOT")
        ((s.resolve (beforeLast ++ afterLast)).listed "LIB/SRC/ROOT")) ∧
      (Mapping.ofForest (Forest.ofListing (beforeLast ++ lastLine :: afterLast))).lines =
        (Mapping.ofForest (Forest.ofListing (beforeLast ++ afterLast))).lines := by
  have hdecode : Record.decode lastLine = .ok (.error lastError) := by decide +kernel
  have hproduced : ∀ s : Strategy,
      s.produced? (Listing.records (beforeLast ++ lastLine :: afterLast))
        (Listing.records beforeLast) (.error lastError) =
          some ("LIB/SRC/ROOT", diagnosticAt lastError 2) := by
    intro s
    cases s <;> decide +kernel
  obtain ⟨halone, hlines⟩ :=
    errors_are_resolved_independently beforeLast afterLast lastLine lastError hdecode
  refine ⟨hdecode, ?_, hlines⟩
  intro s
  have hpath := (halone s).2 "LIB/SRC/ROOT"
  rw [hproduced] at hpath
  exact hpath

end EventListing
