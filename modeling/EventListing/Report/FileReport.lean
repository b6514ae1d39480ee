-- Reports: all that an editor shows for one file. A file whose diagnostics
-- are all hidden still has a report, so that what the editor showed for it
-- before goes away.
import EventListing.Report.Editor
import EventListing.Report.Location

namespace EventListing.Report

structure FileReport where
  location : Location
  diagnostics : List EditorDiagnostic
deriving DecidableEq, Repr

/-- The report of one path: its diagnostics that are not hidden. -/
def FileReport.ofEntry (settings : Settings) (path : String) (ds : List Diagnostic) :
    FileReport where
  location := Location.ofPath settings path
  diagnostics := (ds.filter (!settings.isHidden ·.code)).map EditorDiagnostic.ofDiagnostic

/-- The reports of all paths, in the order of the map. -/
def ofMap (settings : Settings) (m : DiagnosticMap) : List FileReport :=
  m.entries.map fun (path, ds) => FileReport.ofEntry settings path ds

/-- No number of the diagnostics that are shown leaves the range of 64 bits when the
editor counts from zero. -/
def Fits (settings : Settings) (m : DiagnosticMap) : Prop :=
  ∀ entry ∈ m.entries, ∀ d ∈ entry.2, settings.isHidden d.code = false → d.FitsEditor

instance (settings : Settings) (m : DiagnosticMap) : Decidable (Fits settings m) :=
  inferInstanceAs (Decidable (∀ entry ∈ m.entries, ∀ d ∈ entry.2, _ → _))

end EventListing.Report
