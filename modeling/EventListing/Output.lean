-- What is printed: diagnostics and reports, as JSON or as text with one
-- line for each diagnostic.
import EventListing.Json
import EventListing.Report.FileReport

namespace EventListing

open Report (Kind FileReport EditorDiagnostic Location Position)

/-! ## Resolved diagnostics -/

/-- One line of text: `path:line:column: kind: message`. -/
def Diagnostic.textLine (path : String) (d : Diagnostic) : String :=
  path ++ ":" ++ toString d.line ++ ":" ++ toString d.columnStart ++ ": " ++
    (Kind.ofSeverity d.severity).name ++ ": " ++ d.message ++ "\n"

def Diagnostic.json (d : Diagnostic) : Json :=
  .object [
    ("severity", .number d.severity),
    ("line", .number d.line),
    ("column_start", .number d.columnStart),
    ("column_end", .number d.columnEnd),
    ("text", .text d.text),
    ("code", .text d.code)]

namespace DiagnosticMap

/-- One line of text for each diagnostic, in the order of the map. -/
def text (m : DiagnosticMap) : String :=
  String.join (m.entries.flatMap fun (path, ds) => ds.map (Diagnostic.textLine path))

def json (m : DiagnosticMap) : Json :=
  .object (m.entries.map fun (path, ds) => (path, .list (ds.map Diagnostic.json)))

end DiagnosticMap

/-! ## Reports -/

namespace Report

/-- One line of text: `location:line:column: kind: message`, where lines and
columns count from one. -/
def EditorDiagnostic.textLine (location : Location) (d : EditorDiagnostic) : String :=
  location.text ++ ":" ++ toString (d.span.start.line + 1) ++ ":" ++
    toString (d.span.start.character + 1) ++ ": " ++ d.kind.name ++ ": " ++ d.message ++ "\n"

/-- One line of text for each diagnostic, in the order of the reports. -/
def text (reports : List FileReport) : String :=
  String.join (reports.flatMap fun r => r.diagnostics.map (EditorDiagnostic.textLine r.location))

def Position.json (p : Position) : Json :=
  .object [("line", .number p.line), ("character", .number p.character)]

def EditorDiagnostic.json (d : EditorDiagnostic) : Json :=
  .object [
    ("range", .object [("start", d.span.start.json), ("end", d.span.stop.json)]),
    ("kind", .text d.kind.name),
    ("code", .text d.code),
    ("message", .text d.message)]

def Location.json (l : Location) : Json :=
  .object [("scheme", .text l.scheme.name), ("path", .text l.path)]

def FileReport.json (r : FileReport) : Json :=
  .object [("location", r.location.json), ("diagnostics", .list (r.diagnostics.map (·.json)))]

def json (reports : List FileReport) : Json := .list (reports.map FileReport.json)

end Report

end EventListing
