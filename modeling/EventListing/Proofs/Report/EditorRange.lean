-- The editor takes one from each line and first column, and the text of a report adds
-- it again, both without care for the range of 64 bits. No diagnostic of a listing
-- leaves that range on the way when no error is reported at a negative line, however
-- large the numbers of files and ranges are: a correction takes a line at most as far
-- below zero as the greatest number lies above it.
import EventListing.Proofs.Resolution.FromOne
import EventListing.Proofs.Resolution.OneLine
import EventListing.Report.FileReport

namespace EventListing

open Saturating (InRange least greatest clamp)

/-! ## Numbers that have a predecessor -/

theorem HasPredecessor.inRange_sub_one {n : Int} (h : HasPredecessor n) : InRange (n - 1) := by
  unfold HasPredecessor at h
  unfold InRange
  omega

theorem hasPredecessor_of_natAbs_lt {n : Int} (h : n.natAbs < 1000000) : HasPredecessor n := by
  unfold HasPredecessor least greatest
  omega

/-- The editor's count from zero has a successor. -/
theorem HasPredecessor.inRange_fromZero_add_one {n : Int} (h : HasPredecessor n) :
    InRange (Report.fromZero n + 1) := by
  unfold HasPredecessor least greatest at h
  unfold InRange Report.fromZero least greatest
  omega

/-! ## Lines -/

namespace Resolution

/-- A correction stops before the least number, because no sum of shares is larger than
the greatest one. -/
theorem hasPredecessor_correctedLine {ranges : List LineRange} {line : Int} (hline : 0 ≤ line)
    (hgreatest : line ≤ greatest) : HasPredecessor (correctedLine ranges line) := by
  have hshift := shift_inRange ranges line
  unfold HasPredecessor correctedLine Saturating.sub
  simp only [clamp, InRange, least, greatest] at *
  split <;> omega

variable {listing : Listing}

/-- A line of a file is not longer than the file, and no file is longer than the
greatest number. -/
theorem hasPredecessor_of_owns {file : FileNode} {path : String} {line : Nat}
    (hfile : file ∈ (Forest.ofListing listing).firstFiles) (howns : file.owns path line) :
    HasPredecessor line := by
  unfold FileNode.owns at howns
  simp only [decide_eq_true_eq] at howns
  obtain ⟨-, hone, hle⟩ := howns
  obtain ⟨step, hstep, hmem⟩ := Forest.exists_step_of_mem_firstFiles hfile
  cases hlength : file.length with
  | none =>
    rw [hlength, Option.getD_none] at hle
    omega
  | some n =>
    obtain ⟨r, hr, hn⟩ := Forest.ended_ofRecords listing.records step hstep file hmem n hlength
    have hgreatest := (Record.length_inRange hr hn).2
    rw [hlength, Option.getD_some] at hle
    unfold HasPredecessor least
    omega

/-- A first column that does not read is zero. -/
theorem hasPredecessor_columnStart {r : Record.Error} (hr : .error r ∈ listing.records)
    (line : Int) : HasPredecessor (diagnosticAt r line).columnStart := by
  unfold diagnosticAt
  simp only
  cases hn : r.columnStart with
  | none => exact hasPredecessor_of_natAbs_lt (by decide)
  | some n =>
    exact hasPredecessor_of_natAbs_lt
      (Nat.lt_trans (Record.natAbs_columnStart_lt hr hn) (by decide))

/-! ## Both ways -/

/-- No error is reported at a negative line. -/
def NoNegativeLine (records : List Record) : Prop :=
  ∀ r, .error r ∈ records → ∀ line, r.line = some line → 0 ≤ line

instance (records : List Record) : Decidable (NoNegativeLine records) :=
  decidable_of_iff (∀ r ∈ Record.errors records, r.line.all (0 ≤ ·)) <| by
    unfold NoNegativeLine
    simp [Record.mem_errors, Option.all_eq_true]

theorem fitsEditor_byRanges (h : NoNegativeLine listing.records) {path : String} {d : Diagnostic}
    (hd : d ∈ (byRanges listing.records).listed path) : d.FitsEditor := by
  obtain ⟨a, ha, -, rfl⟩ := Correction.mem_listed_byRanges.mp hd
  obtain ⟨hrecord, hline, -⟩ := Correction.of_mem_accepted ha
  have hsmall := hasPredecessor_of_natAbs_lt (Record.natAbs_line_lt hrecord hline)
  exact ⟨hasPredecessor_correctedLine (h a.record hrecord a.line hline) hsmall.2,
    hasPredecessor_columnStart hrecord _⟩

/-- The way by the forest only needs that lines are read from six characters. -/
theorem fitsEditor_byTree {path : String} {d : Diagnostic}
    (hd : d ∈ (byTree listing.records).listed path) : d.FitsEditor := by
  obtain ⟨r, hr, hat, hplace⟩ := (Mapping.sound_ofForest listing).placed path d hd
  refine ⟨?_, hat ▸ hasPredecessor_columnStart hr _⟩
  rcases hplace with ⟨file, hfile, line, howns, hline⟩ | ⟨-, hline⟩
  · exact hline ▸ hasPredecessor_of_owns hfile howns
  · exact hasPredecessor_of_natAbs_lt (Record.natAbs_line_lt hr hline)

theorem Strategy.fitsEditor_resolve (s : Strategy) (h : NoNegativeLine listing.records)
    {path : String} {d : Diagnostic} (hd : d ∈ (s.resolve listing).listed path) :
    d.FitsEditor := by
  cases s with
  | range => exact fitsEditor_byRanges h hd
  | tree => exact fitsEditor_byTree hd

end Resolution

/-! ## Reports -/

namespace Report

theorem underlined_fst (columnStart columnEnd : Int) :
    (underlined columnStart columnEnd).1 = fromZero columnStart := by
  unfold underlined
  simp only
  split
  · rename_i hnone
    exact hnone.1.symm
  · rfl

/-- What a report shows are diagnostics of the map. -/
theorem exists_listed_of_mem {settings : Settings} {m : DiagnosticMap} {r : FileReport}
    (hr : r ∈ ofMap settings m) {e : EditorDiagnostic} (he : e ∈ r.diagnostics) :
    ∃ path, ∃ d ∈ m.listed path, e = EditorDiagnostic.ofDiagnostic d := by
  obtain ⟨⟨path, ds⟩, hentry, rfl⟩ := List.mem_map.mp hr
  obtain ⟨d, hd, rfl⟩ := List.mem_map.mp he
  refine ⟨path, d, ?_, rfl⟩
  rw [DiagnosticMap.listed_of_mem hentry]
  exact List.mem_of_mem_filter hd

theorem fits_of_forall_listed {settings : Settings} {m : DiagnosticMap}
    (h : ∀ path, ∀ d ∈ m.listed path, d.FitsEditor) : Fits settings m := by
  intro (path, ds) hentry d hd _
  exact h path d (by rwa [DiagnosticMap.listed_of_mem hentry])

end Report

/-! ## The law -/

open Resolution

/-- When no error is reported at a negative line, both ways to resolve a listing lead
only to lines and first columns that are not the least number. So the editor takes one
from them, and the text of a report adds one again, inside the range of 64 bits. -/
theorem editor_positions_stay_in_range (listing : Listing) (s : Strategy)
    (h : NoNegativeLine listing.records) :
    (∀ path, ∀ d ∈ (s.resolve listing).listed path,
      least < d.line ∧ least < d.columnStart ∧
        InRange (d.line - 1) ∧ InRange (d.columnStart - 1)) ∧
    ∀ settings, ∀ r ∈ Report.ofMap settings (s.resolve listing), ∀ e ∈ r.diagnostics,
      InRange (e.span.start.line + 1) ∧ InRange (e.span.start.character + 1) := by
  refine ⟨?_, ?_⟩
  · intro path d hd
    obtain ⟨hline, hcolumn⟩ := s.fitsEditor_resolve h hd
    exact ⟨hline.1, hcolumn.1, hline.inRange_sub_one, hcolumn.inRange_sub_one⟩
  · intro settings r hr e he
    obtain ⟨path, d, hd, rfl⟩ := Report.exists_listed_of_mem hr he
    obtain ⟨hline, hcolumn⟩ := s.fitsEditor_resolve h hd
    refine ⟨hline.inRange_fromZero_add_one, ?_⟩
    unfold Report.EditorDiagnostic.ofDiagnostic
    simp only
    rw [Report.underlined_fst]
    exact hcolumn.inRange_fromZero_add_one

/-- A range over all numbers of 64 bits, a file that is as long as any, and one error. -/
def widest (errorLine : String) : Listing := Listing.ofLines [
  "FILEID     0 001 000000 013 LIB/SRC(ROOT) 20230101120000 0",
  "EXPANSION  0 001 000000 000000 001 -9223372036854775808 9223372036854775807",
  "ERROR      0 001 1 000002 000002 001 " ++ errorLine ++ " 010 RNF1234 S 30 006 inside",
  "FILEEND    0 001 9223372036854775807"]

theorem widest_stays_in_range :
    NoNegativeLine (widest "000000").records ∧
      ((Strategy.range.resolve (widest "000000")).listed "LIB/SRC/ROOT").map (·.line) =
        [-9223372036854775807] ∧
      ∀ d ∈ (Strategy.range.resolve (widest "000000")).listed "LIB/SRC/ROOT",
        InRange (d.line - 1) := by
  have hall : NoNegativeLine (widest "000000").records ∧
      ((Strategy.range.resolve (widest "000000")).listed "LIB/SRC/ROOT").map (·.line) =
        [-9223372036854775807] := by
    decide +kernel
  refine ⟨hall.1, hall.2, fun d hd => ?_⟩
  exact ((editor_positions_stay_in_range (widest "000000") .range hall.1).1 _ d hd).2.2.1

/-- One line further down is the least number. -/
example : ((Strategy.range.resolve (widest "-00001")).listed "LIB/SRC/ROOT").map (·.line) =
    [least] := by
  decide +kernel

end EventListing
