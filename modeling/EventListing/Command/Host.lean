-- One run of the command among what surrounds it. The configuration is read first
-- and the listings after it. The first file that fails ends the run, and then nothing
-- is printed; otherwise the merged diagnostics of all listings are.
import EventListing.Command.Files
import EventListing.Command.Invocation
import EventListing.Config
import EventListing.Output

namespace EventListing.Command

/-- What surrounds the command: a reader of arguments, a reader of documents, and
arithmetic that has no answer everywhere. -/
structure Host where
  /-- The request of the arguments, or how a run ends that is not asked to map listings. -/
  request : List String → Except Outcome Invocation
  /-- The document that a text holds. -/
  document? : String → Option Toml.Value
  /-- What a run leaves behind when the editor cannot count from zero in 64 bits. A run
  that checks for this stops; one that does not goes on with the number it gets. -/
  overflow : Invocation → Report.Settings → DiagnosticMap → Outcome

/-! ## Why a run fails -/

inductive Failure where
  | configUnreadable (name : String)
  | configInvalid (name : String) (cause : ConfigError)
  | listingUnreadable (name : String)
deriving DecidableEq, Repr

/-- The line that says what went wrong. It names the file, and the cause may follow it. -/
def Failure.headline : Failure → String
  | configUnreadable name => "Error: Failed to read config file: " ++ name
  | configInvalid name _ => "Error: Invalid config file: " ++ name
  | listingUnreadable name => "Error: Failed to read listing: " ++ name

/-! ## What a request asks for -/

/-- The configuration that is taken when no other one is named. -/
def defaultConfigName : String := "evfevent.toml"

namespace Invocation

/-- The report settings with what the arguments add to them. -/
def reportSettings (i : Invocation) (config : Config) : Report.Settings :=
  { config.report with
    hiddenCodes := config.report.hiddenCodes ++ i.hide
    pool := i.pool.or config.report.pool
    extension := i.extension.or config.report.extension }

/-- The diagnostics of the text of one listing. -/
def resolve (i : Invocation) (config : Config) (text : String) : DiagnosticMap :=
  match i.strategy with
  | .auto => config.resolver.resolve (Listing.ofText text)
  | .fixed strategy => strategy.resolve (Listing.ofText text)

/-- The diagnostics of one listing file. -/
def resolveFile (i : Invocation) (config : Config) (files : Files) (name : String) :
    Except Failure DiagnosticMap :=
  match (files name).text? with
  | none => .error (.listingUnreadable name)
  | some text => .ok (i.resolve config text)

/-- What is printed for the merged diagnostics. -/
def render (i : Invocation) (settings : Report.Settings) (m : DiagnosticMap) : String :=
  match i.editor, i.format with
  | false, .json => m.json.print ++ "\n"
  | false, .text => m.text
  | true, .json => (Report.json (Report.ofMap settings m)).print ++ "\n"
  | true, .text => Report.text (Report.ofMap settings m)

end Invocation

/-! ## The run -/

namespace Host

/-- The configuration of a file. -/
def readConfig (host : Host) (files : Files) (name : String) : Except Failure Config :=
  match (files name).text? with
  | none => .error (.configUnreadable name)
  | some text =>
    match Config.ofTextBy host.document? text with
    | .error cause => .error (.configInvalid name cause)
    | .ok config => .ok config

/-- The configuration of the named file, or else of the default file if
there is one, or else the default settings. -/
def loadConfig (host : Host) (files : Files) (named : Option String) : Except Failure Config :=
  match named with
  | some name => host.readConfig files name
  | none =>
    if (files defaultConfigName).isFile then host.readConfig files defaultConfigName else .ok {}

/-- The settings of the reports, and the merged diagnostics of all listings. -/
def mapped (host : Host) (files : Files) (i : Invocation) :
    Except Failure (Report.Settings × DiagnosticMap) := do
  let config ← host.loadConfig files i.config
  let maps ← i.inputs.mapM (i.resolveFile config files)
  return (i.reportSettings config, DiagnosticMap.mergeAll maps)

/-- A run that has mapped all listings. -/
def answer (host : Host) (i : Invocation) (settings : Report.Settings) (m : DiagnosticMap) :
    Outcome :=
  if i.editor ∧ ¬ Report.Fits settings m then host.overflow i settings m
  else ⟨0, i.render settings m, none⟩

/-- A run of the command with some arguments among some files. -/
def run (host : Host) (files : Files) (arguments : List String) : Outcome :=
  match host.request arguments with
  | .error ended => ended
  | .ok i =>
    match host.mapped files i with
    | .error failure => ⟨1, "", some failure.headline⟩
    | .ok (settings, m) => host.answer i settings m

end Host

end EventListing.Command
