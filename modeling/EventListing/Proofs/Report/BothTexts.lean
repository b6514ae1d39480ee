-- The two texts that are printed: of the diagnostics as they are, and of the reports for
-- an editor. A report counts from zero and its text counts from one again, so the same
-- lines come out, without the hidden ones. Only the path becomes a location, and a number
-- below one becomes one.
import EventListing.Output
import EventListing.Proofs.Report.EditorRange

namespace EventListing

open Saturating (InRange)

/-! ## One diagnostic -/

/-- The diagnostic with nothing before the first line and the first column. -/
def Diagnostic.fromOne (d : Diagnostic) : Diagnostic :=
  { d with line := max d.line 1, columnStart := max d.columnStart 1 }

theorem Diagnostic.fromOne_eq_self {d : Diagnostic} (hline : 1 ≤ d.line)
    (hcolumn : 1 ≤ d.columnStart) : d.fromOne = d := by
  unfold fromOne
  rw [Int.max_eq_left hline, Int.max_eq_left hcolumn]

namespace Report

theorem fromZero_add_one (n : Int) : fromZero n + 1 = max n 1 := by
  unfold fromZero
  omega

namespace EditorDiagnostic

theorem line_ofDiagnostic (d : Diagnostic) :
    (ofDiagnostic d).span.start.line + 1 = d.fromOne.line := fromZero_add_one d.line

/-- A diagnostic without columns is underlined from the first column on, which is where
its own first column leads as well. -/
theorem character_ofDiagnostic (d : Diagnostic) :
    (ofDiagnostic d).span.start.character + 1 = d.fromOne.columnStart := by
  have hfirst : (ofDiagnostic d).span.start.character = fromZero d.columnStart :=
    underlined_fst d.columnStart d.columnEnd
  rw [hfirst]
  exact fromZero_add_one d.columnStart

theorem textLine_ofDiagnostic (location : Location) (d : Diagnostic) :
    (ofDiagnostic d).textLine location = d.fromOne.textLine location.text := by
  unfold textLine
  rw [line_ofDiagnostic, character_ofDiagnostic]
  rfl

end EditorDiagnostic

/-! ## All diagnostics of a map -/

theorem isHidden_iff {settings : Settings} {code : String} :
    settings.isHidden code ↔ code ∈ settings.hiddenCodes := by
  unfold Settings.isHidden
  simp

theorem text_ofMap (settings : Settings) (m : DiagnosticMap) :
    text (ofMap settings m) = String.join
      ((m.toList.filter fun (_, d) => d.code ∉ settings.hiddenCodes).map
        fun (path, d) => d.fromOne.textLine (Location.ofPath settings path).text) := by
  have hshown : ∀ d : Diagnostic,
      (!settings.isHidden d.code) = decide (d.code ∉ settings.hiddenCodes) := by
    intro d
    simp [← isHidden_iff]
  unfold text ofMap DiagnosticMap.toList FileReport.ofEntry
  simp only [List.flatMap_map, List.map_map, List.filter_flatMap, List.map_flatMap,
    List.filter_map, Function.comp_def, EditorDiagnostic.textLine_ofDiagnostic, hshown]

end Report

theorem DiagnosticMap.text_eq_join (m : DiagnosticMap) :
    m.text = String.join (m.toList.map fun (path, d) => d.textLine path) := by
  unfold text toList
  simp only [List.map_flatMap, List.map_map, Function.comp_def]

/-! ## The law -/

/-- Both texts have one line for each diagnostic, in the order of the map. The text of the
reports leaves out the hidden codes, writes the location of a path in its place, and one
for a line or first column below one, so that a diagnostic with neither keeps its line of
text but for the path. No number leaves the range of 64 bits on the way. -/
theorem both_texts_agree (settings : Report.Settings) (m : DiagnosticMap)
    (fits : ∀ found ∈ m.toList, found.2.FitsEditor) :
    m.text = String.join (m.toList.map fun (path, d) => d.textLine path) ∧
    Report.text (Report.ofMap settings m) = String.join
      ((m.toList.filter fun (_, d) => d.code ∉ settings.hiddenCodes).map fun (path, d) =>
        d.fromOne.textLine (Report.Location.ofPath settings path).text) ∧
    ∀ found ∈ m.toList,
      (1 ≤ found.2.line → 1 ≤ found.2.columnStart → found.2.fromOne = found.2) ∧
      InRange (found.2.line - 1) ∧ InRange (found.2.columnStart - 1) ∧
      InRange ((Report.EditorDiagnostic.ofDiagnostic found.2).span.start.line + 1) ∧
      InRange ((Report.EditorDiagnostic.ofDiagnostic found.2).span.start.character + 1) := by
  refine ⟨m.text_eq_join, Report.text_ofMap settings m, ?_⟩
  intro found hfound
  obtain ⟨hline, hcolumn⟩ := fits found hfound
  refine ⟨Diagnostic.fromOne_eq_self, hline.inRange_sub_one, hcolumn.inRange_sub_one,
    hline.inRange_fromZero_add_one, ?_⟩
  rw [Report.EditorDiagnostic.character_ofDiagnostic]
  unfold Diagnostic.fromOne
  simp only
  rw [← Report.fromZero_add_one]
  exact hcolumn.inRange_fromZero_add_one

/-- A diagnostic before the first line, one at its place, and a hidden one. -/
def threeFound : DiagnosticMap where
  entries := [
    ("LIB/SRC/PGM", [⟨30, -4, 0, 0, "before", "RNF1234"⟩, ⟨20, 7, 3, 9, "at", "RNF5410"⟩]),
    ("/home/me/a.c", [⟨0, 2, 1, 5, "hidden", "CZM0045"⟩])]
  nodup_keys := by decide

theorem three_found_agree : (∀ found ∈ threeFound.toList, found.2.FitsEditor) ∧
    threeFound.text =
      "LIB/SRC/PGM:-4:0: error: RNF1234: before (30)\n" ++
      "LIB/SRC/PGM:7:3: warning: RNF5410: at (20)\n" ++
      "/home/me/a.c:2:1: info: CZM0045: hidden (0)\n" ∧
    Report.text (Report.ofMap { hiddenCodes := ["CZM0045"] } threeFound) =
      "member:/LIB/SRC/PGM:1:1: error: RNF1234: before (30)\n" ++
      "member:/LIB/SRC/PGM:7:3: warning: RNF5410: at (20)\n" := by
  have fits : ∀ found ∈ threeFound.toList, found.2.FitsEditor := by decide
  obtain ⟨hall, hreports, -⟩ := both_texts_agree { hiddenCodes := ["CZM0045"] } threeFound fits
  refine ⟨fits, hall.trans ?_, hreports.trans ?_⟩
  · decide +kernel
  · decide +kernel

end EventListing
