-- The command with its own readers of arguments and of documents.
import EventListing.Command.Arguments
import EventListing.Command.Host

namespace EventListing.Command

/-- The host of the command. It checks for numbers that leave 64 bits, and then stops
before it prints anything. -/
def checkedHost : Host where
  request := readRequest
  document? := Toml.document?
  overflow _ _ _ := ⟨101, "", some "attempt to subtract with overflow"⟩

/-- A run of the command with some arguments among some files. -/
def run (files : Files) (arguments : List String) : Outcome :=
  checkedHost.run files arguments

end EventListing.Command
