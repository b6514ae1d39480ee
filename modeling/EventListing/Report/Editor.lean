-- Diagnostics as an editor shows them. Lines and columns count from zero
-- here, and from one in the resolved diagnostics.
import EventListing.Diagnostic
import EventListing.Number.Saturating
import EventListing.Report.Kind

namespace EventListing

/-! ## Numbers that have a predecessor -/

/-- The number is one of 64 bits, and not the least one. -/
def HasPredecessor (n : Int) : Prop := Saturating.least < n ∧ n ≤ Saturating.greatest

instance (n : Int) : Decidable (HasPredecessor n) := inferInstanceAs (Decidable (_ ∧ _))

/-- The line and the first column of a diagnostic both have a predecessor. -/
structure Diagnostic.FitsEditor (d : Diagnostic) : Prop where
  line : HasPredecessor d.line
  columnStart : HasPredecessor d.columnStart

instance (d : Diagnostic) : Decidable d.FitsEditor :=
  decidable_of_iff (HasPredecessor d.line ∧ HasPredecessor d.columnStart)
    ⟨fun h => ⟨h.1, h.2⟩, fun h => ⟨h.line, h.columnStart⟩⟩

/-! ## Diagnostics of the editor -/

/-- The one line that is shown for a diagnostic. -/
def Diagnostic.message (d : Diagnostic) : String :=
  d.code ++ ": " ++ d.text ++ " (" ++ toString d.severity ++ ")"

namespace Report

structure Position where
  line : Int
  character : Int
deriving DecidableEq, Repr

structure Span where
  start : Position
  stop : Position
deriving DecidableEq, Repr

structure EditorDiagnostic where
  span : Span
  kind : Kind
  code : String
  message : String
deriving DecidableEq, Repr

/-- A count from one as a count from zero. Nothing lies before zero. The difference is
one of integers: of the numbers of 64 bits, the least one has none. -/
def fromZero (n : Int) : Int := max (n - 1) 0

/-- The columns to underline. Without any column it is the first hundred. -/
def underlined (columnStart columnEnd : Int) : Int × Int :=
  let first := fromZero columnStart
  if first = 0 ∧ columnEnd = 0 then (0, 100) else (first, columnEnd)

namespace EditorDiagnostic

/-- The diagnostic of the editor for a resolved one. -/
def ofDiagnostic (d : Diagnostic) : EditorDiagnostic :=
  let line := fromZero d.line
  let columns := underlined d.columnStart d.columnEnd
  { span := ⟨⟨line, columns.1⟩, ⟨line, columns.2⟩⟩
    kind := Kind.ofSeverity d.severity
    code := d.code
    message := d.message }

end EditorDiagnostic

end Report

end EventListing
