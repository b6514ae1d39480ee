-- Diagnostics in their own source, listed by path.
import EventListing.OrderedMap

namespace EventListing

/-- A diagnostic at its place in the source. -/
structure Diagnostic where
  severity : Nat
  /-- The line in the source, from one. -/
  line : Int
  columnStart : Int
  columnEnd : Int
  text : String
  code : String
deriving DecidableEq, Repr

/-- The diagnostics of each path, the paths in the order in which they were
first reported. -/
abbrev DiagnosticMap := OrderedMap String (List Diagnostic)

namespace DiagnosticMap

/-- The map with more diagnostics at the end of a path. -/
def extend (m : DiagnosticMap) (path : String) (ds : List Diagnostic) : DiagnosticMap :=
  m.alter path fun old => old.getD [] ++ ds

/-- The map with one more diagnostic at the end of a path. -/
def push (m : DiagnosticMap) (path : String) (d : Diagnostic) : DiagnosticMap :=
  m.extend path [d]

/-- The two maps together: the lists of `next` come after those of `m`. -/
def merge (m next : DiagnosticMap) : DiagnosticMap :=
  next.entries.foldl (fun m (path, ds) => m.extend path ds) m

/-- All the maps together, the first one first. -/
def mergeAll (ms : List DiagnosticMap) : DiagnosticMap := ms.foldl merge ∅

end DiagnosticMap

end EventListing
