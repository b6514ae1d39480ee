-- Diagnostics that are shown on one line. Whichever way a text is resolved, each
-- path that lists a diagnostic is made of the name in a file start, and each code and
-- text is that of an error record. None of these has a line end, and merging maps
-- only moves them around.
import EventListing.Output
import EventListing.Proofs.Record.OneLine
import EventListing.Proofs.Resolution.Accepted
import EventListing.Proofs.Resolution.Soundness

namespace EventListing

open Text

/-! ## What is shown -/

/-- What is shown of a diagnostic: its path, line, first column, kind and
message. -/
def Diagnostic.shownAt (path : String) (d : Diagnostic) : String :=
  path ++ ":" ++ toString d.line ++ ":" ++ toString d.columnStart ++ ": " ++
    (Report.Kind.ofSeverity d.severity).name ++ ": " ++ d.message

/-- The path, the code and the text have no line end. -/
structure Diagnostic.OneLineAt (path : String) (d : Diagnostic) : Prop where
  path : OneLine path.toList
  code : OneLine d.code.toList
  text : OneLine d.text.toList

theorem Diagnostic.textLine_eq (path : String) (d : Diagnostic) :
    d.textLine path = d.shownAt path ++ "\n" := rfl

theorem Report.Kind.oneLine_name (k : Kind) : OneLine k.name.toList := by
  cases k <;> decide

theorem Diagnostic.OneLineAt.oneLine_shownAt {path : String} {d : Diagnostic}
    (h : d.OneLineAt path) : OneLine (d.shownAt path).toList := by
  have hmarks : OneLine ":".toList ∧ OneLine ": ".toList ∧ OneLine " (".toList ∧
      OneLine ")".toList := by decide
  unfold shownAt message
  simp only [String.toList_append, oneLine_append, h.path, h.code, h.text, oneLine_toString_nat,
    oneLine_toString_int, Report.Kind.oneLine_name, hmarks, and_self]

/-! ## Maps of diagnostics -/

namespace DiagnosticMap

/-- Every diagnostic of the map is shown on one line. -/
def OneLines (m : DiagnosticMap) : Prop := ∀ path, ∀ d ∈ m.listed path, d.OneLineAt path

/-- What is shown of the diagnostics, in the order of the map. -/
def shown (m : DiagnosticMap) : List String :=
  m.entries.flatMap fun (path, ds) => ds.map (Diagnostic.shownAt path)

theorem OneLines.of_mem_entries {m : DiagnosticMap} (h : m.OneLines)
    {entry : String × List Diagnostic} (hentry : entry ∈ m.entries) :
    ∀ d ∈ entry.2, d.OneLineAt entry.1 := by
  intro d hd
  refine h entry.1 d ?_
  rwa [listed_of_mem hentry]

theorem OneLines.oneLine_of_mem_shown {m : DiagnosticMap} (h : m.OneLines) {line : String}
    (hline : line ∈ m.shown) : OneLine line.toList := by
  obtain ⟨entry, hentry, hmem⟩ := List.mem_flatMap.mp hline
  obtain ⟨d, hd, rfl⟩ := List.mem_map.mp hmem
  exact (h.of_mem_entries hentry d hd).oneLine_shownAt

/-- The text of the map are these lines, each with a line end. -/
theorem text_eq (m : DiagnosticMap) : m.text = String.join (m.shown.map (· ++ "\n")) := by
  unfold text shown
  simp only [List.map_flatMap, List.map_map, Function.comp_def, ← Diagnostic.textLine_eq]

theorem OneLines.rawLines_text {m : DiagnosticMap} (h : m.OneLines) :
    Listing.rawLines m.text = m.shown ++ [""] := by
  rw [text_eq]
  exact rawLines_join fun _ hline => h.oneLine_of_mem_shown hline

/-! ### Merging -/

theorem OneLines.extend {m : DiagnosticMap} (h : m.OneLines) {path : String} {ds : List Diagnostic}
    (hds : ∀ d ∈ ds, d.OneLineAt path) : (m.extend path ds).OneLines := by
  intro q d hd
  rw [listed_extend, List.mem_append] at hd
  rcases hd with hold | hnew
  · exact h q d hold
  · by_cases hq : path = q
    · rw [if_pos hq] at hnew
      exact hq ▸ hds d hnew
    · rw [if_neg hq] at hnew
      cases hnew

theorem OneLines.merge {m next : DiagnosticMap} (h : m.OneLines) (hnext : next.OneLines) :
    (m.merge next).OneLines := by
  have hentries : ∀ entry ∈ next.entries, ∀ d ∈ entry.2, d.OneLineAt entry.1 :=
    fun _ hentry => hnext.of_mem_entries hentry
  unfold DiagnosticMap.merge
  generalize next.entries = entries at hentries ⊢
  induction entries generalizing m with
  | nil => exact h
  | cons entry rest ih =>
    obtain ⟨hentry, hrest⟩ := List.forall_mem_cons.mp hentries
    exact ih (h.extend hentry) hrest

theorem oneLines_mergeAll {ms : List DiagnosticMap} (h : ∀ m ∈ ms, m.OneLines) :
    (mergeAll ms).OneLines := by
  unfold mergeAll
  have hempty : (∅ : DiagnosticMap).OneLines := fun _ _ hd => by cases hd
  generalize (∅ : DiagnosticMap) = m at hempty ⊢
  induction ms generalizing m with
  | nil => exact hempty
  | cons next ms ih =>
    obtain ⟨hnext, hms⟩ := List.forall_mem_cons.mp h
    exact ih hms (m.merge next) (hempty.merge hnext)

end DiagnosticMap

/-! ## The first files of a forest -/

theorem Forest.exists_step_of_mem_firstFiles {forest : Forest} {file : FileNode}
    (h : file ∈ forest.firstFiles) : ∃ step ∈ forest.steps, file ∈ step.files := by
  unfold firstFiles at h
  cases hsteps : forest.steps with
  | nil => simp [hsteps] at h
  | cons first rest => exact ⟨first, List.mem_cons_self, by simpa [hsteps] using h⟩

namespace Resolution

/-! ## By ranges -/

section
variable {records : List Record} (h : ∀ record ∈ records, record.OneLineTexts)

include h in
theorem Correction.oneLine_pathOf {r : Record.FileStart} (hr : .fileStart r ∈ records) :
    OneLine (pathOf records r).toList := by
  obtain ⟨-, hname, hinline⟩ := h _ hr
  unfold pathOf
  split
  · exact UnitName.oneLine_memberPath hname
  · refine UnitName.oneLine_streamPath ?_
    cases hfull : UnitName.full? records r.fileId with
    | none => exact hinline
    | some name => exact UnitName.oneLine_full? h hfull

include h in
theorem oneLines_byRanges : (byRanges records).OneLines := by
  intro path d hd
  obtain ⟨a, ha, hpath, rfl⟩ := Correction.mem_listed_byRanges.mp hd
  obtain ⟨r, hfirst, rfl⟩ := Option.map_eq_some_iff.mp hpath
  obtain ⟨hcode, htext⟩ := h _ (Correction.of_mem_accepted ha).1
  exact ⟨Correction.oneLine_pathOf h (UnitName.of_firstStart? hfirst).1, hcode, htext⟩

end

/-! ## By the forest -/

theorem oneLines_byTree {listing : Listing} (h : ∀ record ∈ listing.records, record.OneLineTexts) :
    (byTree listing.records).OneLines := by
  intro path d hd
  obtain ⟨r, hr, hat, hplace⟩ := (Mapping.sound_ofForest listing).placed path d hd
  obtain ⟨hcode, htext⟩ := h _ hr
  have hname {start : Record.FileStart} (hstart : .fileStart start ∈ listing.records) :
      OneLine (UnitName.path start.name).toList := by
    obtain ⟨-, hname, -⟩ := h _ hstart
    exact UnitName.oneLine_path hname
  rw [hat]
  refine ⟨?_, hcode, htext⟩
  rcases hplace with ⟨file, hfile, line, howns, -⟩ | ⟨hfirst, -⟩
  · obtain ⟨step, hstep, hmem⟩ := Forest.exists_step_of_mem_firstFiles hfile
    obtain ⟨start, hstart, -, hpath⟩ :=
      Forest.opened_ofRecords listing.records step hstep file hmem
    have hsource : file.id ≠ FileId.baseUnit ∧ file.path = path :=
      of_decide_eq_true (FileNode.isSource_of_owns howns)
    exact hsource.2 ▸ hpath ▸ hname hstart
  · obtain ⟨start, hstart, rfl⟩ := Option.map_eq_some_iff.mp hfirst
    exact hname (UnitName.of_firstStart? hstart).1

theorem Strategy.oneLines_resolve (s : Strategy) (text : String) :
    (s.resolve (Listing.ofText text)).OneLines := by
  cases s with
  | range => exact oneLines_byRanges fun _ => Record.oneLineTexts_of_mem_ofText
  | tree => exact oneLines_byTree fun _ => Record.oneLineTexts_of_mem_ofText

end Resolution

end EventListing
