-- The command itself: it reads the files that the arguments name, runs, and
-- prints what the run leaves behind.
import EventListing.Command.Run

namespace EventListing.Command

/-- The names that a run may ask for. -/
def namesToRead (arguments : List String) : List String :=
  match checkedHost.request arguments with
  | .ok i => i.config.getD defaultConfigName :: i.inputs
  | .error _ => []

/-- What a name leads to in the file system. -/
def readEntry (name : String) : IO FileEntry := do
  try
    return .file (← IO.FS.readBinFile name)
  catch
    | .noFileOrDirectory _ _ _ => return .missing
    | .inappropriateType _ _ _ => return .directory
    | _ => return .unreadable

/-- The files with some names, as they stand in the file system. -/
def readFiles (names : List String) : IO Files := do
  let entries ← names.mapM fun name => return (name, ← readEntry name)
  return fun name => ((entries.find? (·.1 == name)).map (·.2)).getD .missing

end EventListing.Command

open EventListing.Command in
def main (arguments : List String) : IO UInt32 := do
  let files ← readFiles (namesToRead arguments)
  let outcome := run files arguments
  IO.print outcome.stdout
  IO.eprint outcome.stderr
  return outcome.status.toUInt32
