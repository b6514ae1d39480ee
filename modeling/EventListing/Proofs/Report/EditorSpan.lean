-- The spans that an editor underlines. Each lies on one line and starts at the first
-- column of its error or where the line starts. The last column is taken as the record
-- tells it, so the span ends before its start when the record tells an earlier one.
import EventListing.Proofs.Report.EditorRange

namespace EventListing

open Saturating (InRange least)

/-! ## One diagnostic -/

namespace Report

/-- The span lies on one line and does not end before it starts. Nothing of it is
negative. -/
structure Span.RunsForward (span : Span) : Prop where
  line_nonneg : 0 ≤ span.start.line
  line_eq : span.start.line = span.stop.line
  character_nonneg : 0 ≤ span.start.character
  character_le : span.start.character ≤ span.stop.character

theorem fromZero_nonneg (n : Int) : 0 ≤ fromZero n := Int.le_max_right _ _

/-- The last column counts from one, so it may be the one before the first. -/
theorem underlined_le_iff (columnStart columnEnd : Int) :
    (underlined columnStart columnEnd).1 ≤ (underlined columnStart columnEnd).2 ↔
      0 ≤ columnEnd ∧ columnStart ≤ columnEnd + 1 := by
  unfold underlined fromZero
  simp only
  split <;> simp only <;> omega

theorem EditorDiagnostic.character_nonneg (d : Diagnostic) :
    0 ≤ (ofDiagnostic d).span.start.character := by
  have hfirst : (ofDiagnostic d).span.start.character = fromZero d.columnStart :=
    underlined_fst d.columnStart d.columnEnd
  rw [hfirst]
  exact fromZero_nonneg d.columnStart

end Report

/-! ## Where it comes from -/

namespace Resolution

theorem inRange_correctedLine {line : Int} (hline : InRange line) (ranges : List LineRange) :
    InRange (correctedLine ranges line) := by
  unfold correctedLine
  split
  · exact Saturating.sub_inRange _ _
  · exact hline

variable {listing : Listing} {path : String} {d : Diagnostic}

/-- Both ways list errors of the listing at a line of 64 bits. -/
theorem Strategy.exists_error_of_mem_listed (s : Strategy)
    (hd : d ∈ (s.resolve listing).listed path) :
    ∃ r line, .error r ∈ listing.records ∧ InRange line ∧ d = diagnosticAt r line := by
  cases s with
  | range =>
    obtain ⟨a, ha, -, rfl⟩ := Correction.mem_listed_byRanges.mp hd
    obtain ⟨hrecord, hline, -⟩ := Correction.of_mem_accepted ha
    have hsmall := hasPredecessor_of_natAbs_lt (Record.natAbs_line_lt hrecord hline)
    exact ⟨a.record, _, hrecord, inRange_correctedLine ⟨Int.le_of_lt hsmall.1, hsmall.2⟩ _, rfl⟩
  | tree =>
    obtain ⟨r, hr, hat, -⟩ := (Mapping.sound_ofForest listing).placed path d hd
    obtain ⟨hleast, hgreatest⟩ := (fitsEditor_byTree hd).line
    exact ⟨r, d.line, hr, ⟨Int.le_of_lt hleast, hgreatest⟩, hat⟩

end Resolution

/-! ## The law -/

open Resolution Report

/-- Every diagnostic of a report comes from an error of the listing. Its span lies on one
line, neither the line nor the first column is negative, and no number leaves the range of
64 bits when the line is not the least of them. The span does not end before it starts
exactly when the record tells columns in order, where a column that does not read is
zero. -/
theorem editor_spans_run_forward_iff (settings : Report.Settings) (listing : Listing)
    (s : Strategy) :
    ∀ report ∈ Report.ofMap settings (s.resolve listing), ∀ e ∈ report.diagnostics,
      ∃ r line, .error r ∈ listing.records ∧
        e = EditorDiagnostic.ofDiagnostic (diagnosticAt r line) ∧
        InRange line ∧ (least < line → InRange (line - 1)) ∧
        InRange (r.columnStart.getD 0 - 1) ∧
        0 ≤ e.span.start.line ∧ e.span.start.line = e.span.stop.line ∧
        0 ≤ e.span.start.character ∧
        (e.span.start.character ≤ e.span.stop.character ↔
          0 ≤ r.columnEnd.getD 0 ∧ r.columnStart.getD 0 ≤ r.columnEnd.getD 0 + 1) := by
  intro report hreport e he
  obtain ⟨path, d, hd, rfl⟩ := Report.exists_listed_of_mem hreport he
  obtain ⟨r, line, hr, hline, rfl⟩ := s.exists_error_of_mem_listed hd
  refine ⟨r, line, hr, rfl, hline, fun hleast => ?_, ?_, fromZero_nonneg line, rfl,
    EditorDiagnostic.character_nonneg _, underlined_le_iff _ _⟩
  · exact HasPredecessor.inRange_sub_one ⟨hleast, hline.2⟩
  · exact (hasPredecessor_columnStart hr line).inRange_sub_one

/-- One error with these columns. -/
def withColumns (first last : String) : Listing := Listing.ofLines [
  "PROCESSOR  0 000 1",
  "FILEID     0 001 000000 013 LIB/SRC(ROOT) 20230101120000 0",
  "ERROR      0 001 1 000005 000005 " ++ first ++ " 000005 " ++ last ++
    " RNF1234 S 30 016 Undefined symbol",
  "FILEEND    0 001 000010"]

/-- The columns of all spans that are shown. -/
def shownColumns (s : Strategy) (listing : Listing) : List (Int × Int) :=
  (Report.ofMap {} (s.resolve listing)).flatMap fun report =>
    report.diagnostics.map fun e => (e.span.start.character, e.span.stop.character)

theorem columns_in_order_run_forward :
    shownColumns .range (withColumns "012" "018") = [(11, 18)] ∧
    ∀ report ∈ Report.ofMap {} (Strategy.range.resolve (withColumns "012" "018")),
      ∀ e ∈ report.diagnostics, e.span.RunsForward := by
  refine ⟨by decide +kernel, fun report hreport e he => ?_⟩
  obtain ⟨r, line, hr, -, -, -, -, hline, hsame, hfirst, horder⟩ :=
    editor_spans_run_forward_iff {} (withColumns "012" "018") .range report hreport e he
  have hcolumns : ∀ r ∈ Record.errors (withColumns "012" "018").records,
      0 ≤ r.columnEnd.getD 0 ∧ r.columnStart.getD 0 ≤ r.columnEnd.getD 0 + 1 := by
    decide +kernel
  exact ⟨hline, hsame, hfirst, horder.mpr (hcolumns r (Record.mem_errors.mpr hr))⟩

/-- The last column does not read, lies before the first, or is negative. -/
theorem columns_out_of_order_run_backward :
    shownColumns .range (withColumns "012" "0x8") = [(11, 0)] ∧
    shownColumns .tree (withColumns "012" "008") = [(11, 8)] ∧
    shownColumns .tree (withColumns "000" "-05") = [(0, -5)] ∧
    ¬ ∀ (settings : Report.Settings) (listing : Listing) (s : Strategy),
      (∀ path, ∀ d ∈ (s.resolve listing).listed path, d.FitsEditor) →
      ∀ report ∈ Report.ofMap settings (s.resolve listing), ∀ e ∈ report.diagnostics,
        e.span.RunsForward := by
  have hbackward : shownColumns .tree (withColumns "012" "008") = [(11, 8)] := by decide +kernel
  refine ⟨by decide +kernel, hbackward, by decide +kernel, fun h => ?_⟩
  have hnonneg : NoNegativeLine (withColumns "012" "008").records := by decide +kernel
  have hforward := h {} (withColumns "012" "008") .tree
    fun _ _ hd => Strategy.tree.fitsEditor_resolve hnonneg hd
  have horder : ∀ columns ∈ shownColumns .tree (withColumns "012" "008"),
      columns.1 ≤ columns.2 := by
    intro columns hcolumns
    unfold shownColumns at hcolumns
    obtain ⟨report, hreport, hshown⟩ := List.mem_flatMap.mp hcolumns
    obtain ⟨e, he, rfl⟩ := List.mem_map.mp hshown
    exact (hforward report hreport e he).character_le
  rw [hbackward] at horder
  exact absurd (horder (11, 8) (List.mem_singleton.mpr rfl)) (by decide)

end EventListing
