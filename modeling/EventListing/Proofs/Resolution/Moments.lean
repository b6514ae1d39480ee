-- The way by the forest, error by error. Each error that a compile step
-- reports for one of its files has one moment, and the lines of that moment
-- decide where it goes. So every error is listed at most once, and one that is
-- left out has no source line at its moment.
import Mathlib.Data.List.Nodup
import EventListing.Proofs.Forest.Reports
import EventListing.Proofs.Grouping
import EventListing.Proofs.Record.Width
import EventListing.Proofs.Resolution.Lines

namespace EventListing

/-! ## The moments of a run -/

/-- The moments of the compile step with index `i` and this many files: every
file before the edits, then every file with its edits. -/
def Moment.ofStep (i files : Nat) : List Moment :=
  (List.range files).map (⟨i, ·, false⟩) ++ (List.range files).map (⟨i, ·, true⟩)

/-- The moments of a listing, in their order. -/
def Record.moments (records : List Record) : List Moment :=
  (List.range (stepCount records)).flatMap fun i =>
    Moment.ofStep i (openings (ofStep (i + 1) records)).length

theorem Moment.mem_ofStep {i files : Nat} {m : Moment} :
    m ∈ ofStep i files ↔ m.step = i ∧ m.file < files := by
  unfold ofStep
  simp only [List.mem_append, List.mem_map, List.mem_range]
  constructor
  · rintro (⟨j, hj, rfl⟩ | ⟨j, hj, rfl⟩)
    · exact ⟨rfl, hj⟩
    · exact ⟨rfl, hj⟩
  · obtain ⟨step, file, afterEdit⟩ := m
    rintro ⟨rfl, hfile⟩
    cases afterEdit
    · exact Or.inl ⟨file, hfile, rfl⟩
    · exact Or.inr ⟨file, hfile, rfl⟩

theorem Moment.nodup_ofStep (i files : Nat) : (ofStep i files).Nodup := by
  have hmap : ∀ afterEdit, ((List.range files).map (Moment.mk i · afterEdit)).Nodup := by
    intro afterEdit
    refine List.Nodup.map ?_ List.nodup_range
    intro a b hab
    exact congrArg Moment.file hab
  refine List.nodup_append.mpr ⟨hmap false, hmap true, ?_⟩
  rintro a ha b hb rfl
  simp only [List.mem_map] at ha hb
  obtain ⟨_, -, rfl⟩ := ha
  obtain ⟨_, -, hb⟩ := hb
  cases hb

namespace Record

/-- The moments of a listing are those of files that its steps have. -/
theorem mem_moments {records : List Record} {m : Moment} :
    m ∈ moments records ↔
      m.step < stepCount records ∧ m.file < (openings (ofStep (m.step + 1) records)).length := by
  unfold moments
  simp only [List.mem_flatMap, List.mem_range, Moment.mem_ofStep]
  constructor
  · rintro ⟨i, hi, rfl, hfile⟩
    exact ⟨hi, hfile⟩
  · rintro ⟨hi, hfile⟩
    exact ⟨m.step, hi, rfl, hfile⟩

theorem nodup_moments (records : List Record) : (moments records).Nodup := by
  unfold moments
  generalize stepCount records = n
  induction n with
  | zero => exact List.nodup_nil
  | succ n ih =>
    rw [List.range_succ, List.flatMap_append, List.flatMap_singleton]
    refine List.nodup_append.mpr ⟨ih, Moment.nodup_ofStep _ _, ?_⟩
    rintro a ha b hb rfl
    obtain ⟨i, hi, hai⟩ := List.mem_flatMap.mp ha
    have hstep := (Moment.mem_ofStep.mp hai).1
    have hlast := (Moment.mem_ofStep.mp hb).1
    have := List.mem_range.mp hi
    omega

/-- The reports of a listing in the order in which they are brought to their
sources. -/
def resolved (records : List Record) : List Report :=
  (moments records).flatMap fun m => (reports records).filter (·.moment = m)

theorem moment_mem {records : List Record} {r : Report} (h : r ∈ reports records) :
    r.moment ∈ moments records := by
  obtain ⟨-, -, hstep, hfile⟩ := of_mem_reports h
  exact mem_moments.mpr ⟨hstep, (List.getElem?_eq_some_iff.mp hfile).1⟩

/-- Each report is brought to its source once. -/
theorem resolved_perm (records : List Record) : (resolved records).Perm (reports records) :=
  flatMap_filter_perm (nodup_moments records) fun _ => moment_mem

end Record

/-! ## What is found at a moment -/

namespace Resolution.Mapping

/-- The mapping before the compile step with this index. -/
def upTo (forest : Forest) (i : Nat) : Mapping :=
  ofForest { forest with steps := forest.steps.take i }

/-- The lines by which the errors of a moment are brought to their sources. -/
def linesAt (forest : Forest) (moment : Moment) : LineMap :=
  match forest.steps[moment.step]? with
  | none => LineMap.empty
  | some step =>
    let m := upTo forest moment.step
    let before := beforeEdits forest.paths (moment.step = 0) step
    let files := step.files.take (moment.file + 1)
    if moment.afterEdit then (files.foldl (withEdits step) (step.files.foldl before m)).lines
    else (files.foldl before m).lines

/-- Where an error of the file with this number goes at a moment. -/
def placeAt (forest : Forest) (moment : Moment) (id : FileId) (e : RawError) :
    Option (String × Diagnostic) :=
  if moment.afterEdit ∨ (forest.idsAt moment.step).length = 1 ∨ id = FileId.root then
    located (linesAt forest moment) e
  else (forest.paths.get? id).map fun path => (path, e.resolvedAt (Saturating.add e.line 1))

/-- The diagnostics that a moment adds. -/
def foundAt (forest : Forest) (moment : Moment) : List (String × Diagnostic) :=
  readAt (fun id => ((forest.errorsAt moment.step moment.file).filter
    (·.afterEdit = moment.afterEdit)).filterMap (placeAt forest moment id))
    (forest.idsAt moment.step) moment.file

theorem ofForest_take_succ {forest : Forest} {i : Nat} {step : Step}
    (h : forest.steps[i]? = some step) :
    upTo forest (i + 1) = addStep forest.paths (i = 0) (upTo forest i) step := by
  obtain ⟨steps, paths⟩ := forest
  unfold upTo ofForest
  simp only at *
  rw [List.take_add_one, h]
  cases steps with
  | nil => cases h
  | cons first rest =>
    cases i with
    | zero =>
      simp only [List.getElem?_cons_zero, Option.some.injEq] at h
      subst h
      rfl
    | succ i => simp [List.foldl_append]

/-- Each element adds what it finds by the lines that it leaves. -/
theorem diagnostics_foldl_take {α : Type} {f : Mapping → α → Mapping}
    {g : α → LineMap → List (String × Diagnostic)}
    (hf : ∀ m a, (f m a).diagnostics = m.diagnostics.pushAll (g a (f m a).lines))
    (l : List α) (m : Mapping) (k : Nat) :
    ((l.take k).foldl f m).diagnostics =
      m.diagnostics.pushAll ((List.range k).flatMap fun j =>
        readAt (fun a => g a ((l.take (j + 1)).foldl f m).lines) l j) := by
  induction k with
  | zero => rfl
  | succ k ih =>
    rw [List.range_succ, List.flatMap_append, DiagnosticMap.pushAll_append, ← ih,
      List.flatMap_singleton, readAt, List.take_add_one]
    cases l[k]? with
    | none => simp
    | some a => simp [List.foldl_append, hf]

section Step

variable {forest : Forest} {i : Nat} {step : Step}

theorem foundAt_eq (h : forest.steps[i]? = some step) (j : Nat) (afterEdit : Bool) :
    foundAt forest ⟨i, j, afterEdit⟩ = readAt (fun file =>
      (file.errors.filter (·.afterEdit = afterEdit)).filterMap
        (placeAt forest ⟨i, j, afterEdit⟩ file.id)) step.files j := by
  have hids : forest.idsAt i = step.ids := by simp [Forest.idsAt, readAt, h]
  have herrors : forest.errorsAt i j = step.errorsAt j := by simp [Forest.errorsAt, readAt, h]
  unfold foundAt
  simp only [hids, herrors]
  unfold readAt Step.errorsAt Step.ids readAt
  rw [List.getElem?_map]
  cases step.files[j]? <;> rfl

theorem placeAt_early (h : forest.steps[i]? = some step) (j : Nat) (file : FileNode) :
    placeAt forest ⟨i, j, false⟩ file.id =
      locatedEarly forest.paths step file (linesAt forest ⟨i, j, false⟩) := by
  funext e
  have hlength : (forest.idsAt i).length = step.files.length := by
    simp [Forest.idsAt, readAt, h, Step.ids]
  unfold placeAt locatedEarly
  simp only [hlength, Bool.false_eq_true, false_or]

theorem placeAt_late (j : Nat) (id : FileId) :
    placeAt forest ⟨i, j, true⟩ id = located (linesAt forest ⟨i, j, true⟩) := by
  funext e
  unfold placeAt
  rw [if_pos (Or.inl rfl)]

/-- A compile step adds what its moments find, one after the other. -/
theorem diagnostics_addStep (h : forest.steps[i]? = some step) :
    (addStep forest.paths (i = 0) (upTo forest i) step).diagnostics =
      (upTo forest i).diagnostics.pushAll
        ((Moment.ofStep i step.files.length).flatMap (foundAt forest)) := by
  set m := upTo forest i with hm
  set before := beforeEdits forest.paths (i = 0) step with hbefore
  have hall : ∀ (f : Mapping → FileNode → Mapping) (m : Mapping),
      step.files.foldl f m = (step.files.take step.files.length).foldl f m := by
    intro f m
    rw [List.take_length]
  have hearly : (step.files.foldl before m).diagnostics = m.diagnostics.pushAll
      (((List.range step.files.length).map (⟨i, ·, false⟩)).flatMap (foundAt forest)) := by
    rw [hall, diagnostics_foldl_take (g := fun file lines =>
      (file.errors.filter (!·.afterEdit)).filterMap (locatedEarly forest.paths step file lines))
      (diagnostics_beforeEdits forest.paths (i = 0) step), List.flatMap_map]
    congr 2
    funext j
    rw [foundAt_eq h]
    congr 1
    funext file
    rw [placeAt_early h]
    simp [linesAt, h, ← hm, ← hbefore]
  have hlate : ((step.files.foldl (withEdits step) (step.files.foldl before m))).diagnostics =
      (step.files.foldl before m).diagnostics.pushAll
        (((List.range step.files.length).map (⟨i, ·, true⟩)).flatMap (foundAt forest)) := by
    rw [hall (withEdits step), diagnostics_foldl_take (g := fun file lines =>
      (file.errors.filter (·.afterEdit)).filterMap (located lines)) (diagnostics_withEdits step),
      List.flatMap_map]
    congr 2
    funext j
    rw [foundAt_eq h]
    congr 1
    funext file
    rw [placeAt_late]
    simp [linesAt, h, ← hm, ← hbefore]
  unfold addStep
  rw [hlate, hearly, ← DiagnosticMap.pushAll_append, ← List.flatMap_append]
  rfl

end Step

/-- A forest adds what its moments find, one after the other. -/
theorem diagnostics_ofForest (forest : Forest) :
    (ofForest forest).diagnostics = DiagnosticMap.pushAll ∅
      (((List.range forest.steps.length).flatMap fun i =>
        Moment.ofStep i (forest.idsAt i).length).flatMap (foundAt forest)) := by
  suffices h : ∀ k ≤ forest.steps.length, (upTo forest k).diagnostics =
      DiagnosticMap.pushAll ∅ (((List.range k).flatMap fun i =>
        Moment.ofStep i (forest.idsAt i).length).flatMap (foundAt forest)) by
    rw [← h _ (Nat.le_refl _), upTo, List.take_length]
  intro k hk
  induction k with
  | zero => rfl
  | succ k ih =>
    have hstep : forest.steps[k]? = some forest.steps[k] := List.getElem?_eq_getElem hk
    have hlength : (forest.idsAt k).length = forest.steps[k].files.length := by
      simp [Forest.idsAt, readAt, hstep, Step.ids]
    rw [ofForest_take_succ hstep, diagnostics_addStep hstep, ih (by omega),
      ← DiagnosticMap.pushAll_append, ← List.flatMap_append, List.range_succ, ← hlength]
    simp

/-! ## The reports of a moment -/

section OfRecords

variable (records : List Record) (m : Moment)

/-- The file of a moment has the number that the reports of the moment name. -/
theorem getElem?_idsAt_ofRecords {r : Report}
    (h : r ∈ (Record.reports records).filter (·.moment = m)) :
    ((Forest.ofRecords records).idsAt m.step)[m.file]? = some r.record.fileId := by
  obtain ⟨hmem, hmoment⟩ := List.mem_filter.mp h
  have hmoment' : r.moment = m := by simpa using hmoment
  rw [Forest.idsAt_ofRecords, ← hmoment']
  exact (Record.of_mem_reports hmem).2.2.2

/-- The errors of a moment are those of its reports. -/
theorem filter_errorsAt_ofRecords :
    ((Forest.ofRecords records).errorsAt m.step m.file).filter (·.afterEdit = m.afterEdit) =
      ((Record.reports records).filter (·.moment = m)).filterMap Report.raw? := by
  rw [Forest.errorsAt_ofRecords, List.filter_filterMap, List.filterMap_filter,
    List.filterMap_filter]
  refine List.filterMap_congr ?_
  intro r _
  cases hraw : r.raw? with
  | none => simp
  | some e =>
    obtain ⟨-, -, -, hafter, -⟩ := RawError.of_ofRecord? hraw
    by_cases hplace : r.moment.step = m.step ∧ r.moment.file = m.file
    · by_cases hwith : r.moment.afterEdit = m.afterEdit <;>
        simp [Moment.ext_iff, Option.filter_some, hplace, hwith, hafter]
    · simp only [Moment.ext_iff, ← and_assoc, hplace]
      simp

/-- A moment of a listing finds what its reports lead to. -/
theorem foundAt_ofRecords :
    foundAt (Forest.ofRecords records) m =
      ((Record.reports records).filter (·.moment = m)).filterMap fun r =>
        r.raw?.bind (placeAt (Forest.ofRecords records) m r.record.fileId) := by
  unfold foundAt readAt
  simp only [filter_errorsAt_ofRecords, List.filterMap_filterMap]
  cases hat : ((Forest.ofRecords records).idsAt m.step)[m.file]? with
  | none =>
    have hnone : (Record.reports records).filter (·.moment = m) = [] := by
      rw [List.eq_nil_iff_forall_not_mem]
      intro r hr
      rw [getElem?_idsAt_ofRecords records m hr] at hat
      cases hat
    rw [hnone]
    rfl
  | some id =>
    simp only [Option.map_some, Option.getD_some]
    refine List.filterMap_congr ?_
    intro r hr
    have hid := getElem?_idsAt_ofRecords records m hr
    rw [hat] at hid
    cases hid
    rfl

end OfRecords

end Resolution.Mapping

/-! ## Where a report goes -/

open Resolution Mapping

namespace Report

/-- The report is not looked up: no edit of its compile step comes before it,
and its file is another one than the root and not the only one. -/
def IsDirect (records : List Record) (r : Report) : Prop :=
  r.moment.afterEdit = false ∧ r.record.fileId ≠ FileId.root ∧
    1 < (Record.openings (Record.ofStep (r.moment.step + 1) records)).length

instance (records : List Record) (r : Report) : Decidable (r.IsDirect records) :=
  inferInstanceAs (Decidable (_ ∧ _))

/-- The lines of the moment at which the report is brought to its source. -/
def lines (records : List Record) (r : Report) : LineMap :=
  linesAt (Forest.ofRecords records) r.moment

/-- The diagnostic of the report with its path, if it has one. -/
def outcome? (records : List Record) (r : Report) : Option (String × Diagnostic) :=
  if r.IsDirect records then
    (firstPath? records r.record.fileId).map fun path => (path, diagnosticAt r.record r.line)
  else ((r.lines records).resolve? (r.line - 1)).map fun origin =>
    (origin.path, diagnosticAt r.record origin.line)

/-- The other reports are those that their moment looks up. -/
theorem not_isDirect_iff {records : List Record} {r : Report} (h : r ∈ Record.reports records) :
    ¬ r.IsDirect records ↔
      r.moment.afterEdit ∨ ((Forest.ofRecords records).idsAt r.moment.step).length = 1 ∨
        r.record.fileId = FileId.root := by
  obtain ⟨-, -, -, hid⟩ := Record.of_mem_reports h
  have hlt := (List.getElem?_eq_some_iff.mp hid).1
  rw [Forest.idsAt_ofRecords]
  unfold IsDirect
  cases r.moment.afterEdit with
  | true => simp
  | false =>
    by_cases hroot : r.record.fileId = FileId.root
    · simp [hroot]
    · simp only [ne_eq, hroot, not_false_eq_true, true_and, or_false, Bool.false_eq_true, false_or]
      omega

/-- The moment of a report finds its outcome. -/
theorem bind_placeAt {listing : Listing} {r : Report} (h : r ∈ Record.reports listing.records) :
    r.raw?.bind (placeAt (Forest.ofRecords listing.records) r.moment r.record.fileId) =
      r.outcome? listing.records := by
  obtain ⟨hmem, hline, -, -⟩ := Record.of_mem_reports h
  obtain ⟨e, he⟩ : ∃ e, r.raw? = some e := by simp [raw?, RawError.ofRecord?, hline]
  obtain ⟨line, hline', heline, -, hresolved⟩ := RawError.of_ofRecord? he
  rw [hline] at hline'
  cases hline'
  rw [he, Option.bind_some]
  unfold placeAt outcome? located lines firstPath?
  simp only [← not_isDirect_iff h, ite_not]
  rw [Forest.paths_ofRecords, heline, Record.add_sub_line hmem hline, Record.sub_line hmem hline]
  simp only [hresolved, Option.map_map]

/-- A report that is not looked up stays at its line, under the first path of
its file number. -/
theorem outcome?_of_isDirect {records : List Record} {r : Report}
    (h : r ∈ Record.reports records) (hdirect : r.IsDirect records) :
    ∃ path, firstPath? records r.record.fileId = some path ∧
      r.outcome? records = some (path, diagnosticAt r.record r.line) := by
  obtain ⟨-, -, -, hid⟩ := Record.of_mem_reports h
  have hopened : r.record.fileId ∈ Record.openings records :=
    ((Record.ofStep_sublist _ _).filterMap _).subset (List.mem_of_getElem? hid)
  obtain ⟨start, hstart⟩ := Option.isSome_iff_exists.mp (Record.isSome_firstStart?.mpr hopened)
  refine ⟨UnitName.path start.name, ?_, ?_⟩
  · rw [firstPath?, hstart]
    rfl
  · rw [outcome?, if_pos hdirect, firstPath?, hstart]
    rfl

/-- Any other report is listed at the origin of its line, and left out exactly
when the line has no origin or was made by the precompiler. -/
theorem outcome?_of_not_isDirect {records : List Record} {r : Report}
    (hdirect : ¬ r.IsDirect records) :
    (∀ origin, (r.lines records).get? (r.line - 1) = some origin → origin.isSql = false →
        r.outcome? records = some (origin.path, diagnosticAt r.record origin.line)) ∧
      (r.outcome? records = none ↔ (r.lines records).get? (r.line - 1) = none ∨
        ∃ origin, (r.lines records).get? (r.line - 1) = some origin ∧ origin.isSql) := by
  unfold outcome? LineMap.resolve?
  rw [if_neg hdirect]
  cases (r.lines records).get? (r.line - 1) with
  | none => simp
  | some origin => cases hsql : origin.isSql <;> simp [Option.filter_some, hsql]

end Report

/-- The way by the forest lists the outcomes of the reports. -/
theorem byTree_eq (listing : Listing) :
    byTree listing.records = DiagnosticMap.pushAll ∅
      ((Record.resolved listing.records).filterMap (Report.outcome? listing.records)) := by
  unfold byTree
  rw [diagnostics_ofForest, Forest.length_ofRecords]
  simp only [Forest.idsAt_ofRecords]
  change DiagnosticMap.pushAll ∅ ((Record.moments listing.records).flatMap _) = _
  unfold Record.resolved
  rw [List.filterMap_flatMap]
  congr 2
  funext m
  rw [foundAt_ofRecords]
  refine List.filterMap_congr ?_
  intro r hr
  obtain ⟨hmem, hmoment⟩ := List.mem_filter.mp hr
  have hmoment' : r.moment = m := by simpa using hmoment
  rw [← hmoment']
  exact Report.bind_placeAt hmem

/-! ## The law -/

/-- The way by the forest lists each report at most once, with its own severity,
columns, code and text. A report that is not looked up is listed at its line
under the first path of its file number. Any other report is listed at the
origin of its line at its moment, or left out when there is no such origin or
the precompiler made the line. -/
theorem each_report_has_one_outcome (listing : Listing) :
    let records := listing.records
    byTree records =
        DiagnosticMap.pushAll ∅ ((Record.resolved records).filterMap (Report.outcome? records)) ∧
      (Record.resolved records).Perm (Record.reports records) ∧
      ((Record.reports records).map (·.record)).Sublist (Record.errors records) ∧
      ∀ r ∈ Record.reports records, r.record.line = some r.line ∧
        (r.IsDirect records → ∃ path, firstPath? records r.record.fileId = some path ∧
          r.outcome? records = some (path, diagnosticAt r.record r.line)) ∧
        (¬ r.IsDirect records →
          (∀ origin, (r.lines records).get? (r.line - 1) = some origin → origin.isSql = false →
            r.outcome? records = some (origin.path, diagnosticAt r.record origin.line)) ∧
          (r.outcome? records = none ↔ (r.lines records).get? (r.line - 1) = none ∨
            ∃ origin, (r.lines records).get? (r.line - 1) = some origin ∧ origin.isSql)) := by
  intro records
  refine ⟨byTree_eq listing, Record.resolved_perm records, Record.reports_sublist records, ?_⟩
  intro r hr
  obtain ⟨-, hline, -, -⟩ := Record.of_mem_reports hr
  exact ⟨hline, Report.outcome?_of_isDirect hr, Report.outcome?_of_not_isDirect⟩

end EventListing
