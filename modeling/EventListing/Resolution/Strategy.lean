-- The two ways to resolve a listing, and which one is taken.
import EventListing.Resolution.Correction
import EventListing.Resolution.Mapping

namespace EventListing.Resolution

inductive Strategy where
  /-- One pass that corrects line numbers. -/
  | range
  /-- The forest and a map of lines. -/
  | tree
deriving DecidableEq, Repr, Inhabited

namespace Strategy

def name : Strategy → String
  | range => "range"
  | tree => "tree"

def ofName? (name : String) : Option Strategy := [range, tree].find? (·.name == name)

theorem ofName?_name (s : Strategy) : ofName? s.name = some s := by cases s <;> decide

/-- The diagnostics of a listing, resolved in this way. -/
def resolve (s : Strategy) (listing : Listing) : DiagnosticMap :=
  match s with
  | range => byRanges listing.records
  | tree => byTree listing.records

end Strategy

structure Settings where
  /-- The tree may be taken for listings in which the precompiler made
  edits. -/
  useTree : Bool := false
deriving DecidableEq, Repr, Inhabited

namespace Settings

/-- The tree is taken when it is allowed and some line speaks of an
expansion. -/
def select (settings : Settings) (listing : Listing) : Strategy :=
  if settings.useTree && listing.any (·.contains "EXPANSION") then .tree else .range

/-- The diagnostics of a listing, resolved in the way that the settings
select. -/
def resolve (settings : Settings) (listing : Listing) : DiagnosticMap :=
  (settings.select listing).resolve listing

end Settings

end EventListing.Resolution
