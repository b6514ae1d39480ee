-- The kinds of diagnostics that an editor tells apart.
namespace EventListing.Report

inductive Kind where
  /-- The unit does not compile. -/
  | error
  | warning
  | info
deriving DecidableEq, Repr

namespace Kind

/-- The kind of a severity of the listing. -/
def ofSeverity (severity : Nat) : Kind :=
  if severity = 20 then warning
  else if severity ∈ [30, 40, 50] then error
  else info

def name : Kind → String
  | error => "error"
  | warning => "warning"
  | info => "info"

def ofName? (name : String) : Option Kind := [error, warning, info].find? (·.name == name)

theorem ofName?_name (k : Kind) : ofName? k.name = some k := by cases k <;> decide

end Kind

end EventListing.Report
