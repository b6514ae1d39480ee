-- A request to map some listings, and what a run of the command leaves behind.
import EventListing.Resolution.Strategy

namespace EventListing.Command

open Resolution (Strategy)

/-! ## What can be asked for -/

inductive StrategyChoice where
  /-- The configuration and the listing decide. -/
  | auto
  | fixed (s : Strategy)
deriving DecidableEq, Repr

inductive Format where
  | json
  | text
deriving DecidableEq, Repr

/-- The request to map some listings. -/
structure Invocation where
  /-- The names of the listings, in the order of the arguments. -/
  inputs : List String
  config : Option String
  strategy : StrategyChoice
  format : Format
  /-- Reports for an editor instead of resolved diagnostics. -/
  editor : Bool
  /-- Message codes to hide, besides those of the configuration. -/
  hide : List String
  pool : Option String
  extension : Option String
deriving DecidableEq, Repr

/-! ## What a run leaves behind -/

/-- The exit status of a run and what it printed. -/
structure Outcome where
  status : Nat
  stdout : String
  /-- The line that says what went wrong. The causes that may follow it and the lines
  of the log are left out. -/
  headline : Option String
deriving DecidableEq, Repr

/-- What a run says of its failure, as far as it is known here. -/
def Outcome.stderr (o : Outcome) : String := (o.headline.map (· ++ "\n")).getD ""

end EventListing.Command
