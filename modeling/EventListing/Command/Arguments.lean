-- The arguments of the command. They are read from left to right, and the
-- first one that settles the request, or breaks a rule, decides.
import EventListing.Command.Invocation
import EventListing.Text.Segments

namespace EventListing.Command

open Resolution (Strategy)

/-! ## What breaks a rule -/

inductive UsageError where
  | unknownOption (argument : String)
  | missingValue (option : String)
  | badValue (option value : String)
  | unexpectedValue (option : String)
  | repeated (option : String)
  | emptyName
  | noInput
deriving DecidableEq, Repr

def UsageError.message : UsageError → String
  | unknownOption argument => "error: unexpected argument '" ++ argument ++ "' found"
  | missingValue option => "error: a value is required for '--" ++ option ++ "'"
  | badValue option value => "error: invalid value '" ++ value ++ "' for '--" ++ option ++ "'"
  | unexpectedValue option => "error: no value may be given for '--" ++ option ++ "'"
  | repeated option => "error: '--" ++ option ++ "' cannot be used multiple times"
  | emptyName => "error: a file name may not be empty"
  | noInput => "error: no input file was given"

/-! ## What can be asked for -/

inductive Request where
  | run (i : Invocation)
  | help
  | version
deriving DecidableEq, Repr

def versionText : String := "evfevent 0.1.0\n"

def helpText : String :=
  "Map compiler event listings to diagnostics in the original source\n\n" ++
  "Usage: evfevent [OPTIONS] <INPUT>...\n\n" ++
  "Arguments:\n" ++
  "  <INPUT>...  Listing files to read\n\n" ++
  "Options:\n" ++
  "      --config <FILE>          TOML configuration (defaults to ./evfevent.toml if present)\n" ++
  "      --strategy <STRATEGY>    Resolution strategy: auto, range or tree\n" ++
  "      --format <FORMAT>        Output format: json or text\n" ++
  "      --editor                 Emit editor-facing diagnostics instead of resolved ones\n" ++
  "      --hide <CODE>            Message code to hide (can be specified multiple times)\n" ++
  "      --asp <ASP>              Auxiliary storage pool for member locations\n" ++
  "      --extension <EXTENSION>  Source extension for member locations\n" ++
  "  -h, --help                   Print help\n" ++
  "  -V, --version                Print version\n"

/-! ## Options -/

/-- The options that take a value. -/
inductive ValueOption where
  | config | strategy | format | hide | pool | extension
deriving DecidableEq, Repr

/-- The arguments that were read so far. An option that was not given is
`none`. -/
structure Parsed where
  inputs : List String := []
  config : Option String := none
  strategy : Option StrategyChoice := none
  format : Option Format := none
  editor : Bool := false
  hide : List String := []
  pool : Option String := none
  extension : Option String := none
deriving DecidableEq, Repr

namespace ValueOption

def name : ValueOption → String
  | config => "config"
  | strategy => "strategy"
  | format => "format"
  | hide => "hide"
  | pool => "asp"
  | extension => "extension"

def ofName? (name : String) : Option ValueOption :=
  [config, strategy, format, hide, pool, extension].find? (·.name == name)

end ValueOption

def strategyOfName? (name : String) : Option StrategyChoice :=
  if name = "auto" then some .auto else (Strategy.ofName? name).map .fixed

def formatOfName? (name : String) : Option Format :=
  if name = "json" then some .json else if name = "text" then some .text else none

namespace Parsed

/-- The value of an option that may be given once. -/
def once {α : Type} (option : ValueOption) (old : Option α) (new : α) :
    Except UsageError (Option α) :=
  if old.isSome then .error (.repeated option.name) else .ok (some new)

/-- The name of a file, which may not be empty. -/
def fileName (name : String) : Except UsageError String :=
  if name.isEmpty then .error .emptyName else .ok name

/-- A choice by its name. -/
def chosen {α : Type} (option : ValueOption) (read : String → Option α) (value : String) :
    Except UsageError α :=
  match read value with
  | some a => .ok a
  | none => .error (.badValue option.name value)

/-- The value of an option. Only codes to hide may be given more than
once. -/
def setOption (p : Parsed) (option : ValueOption) (value : String) : Except UsageError Parsed := do
  match option with
  | .config => return { p with config := ← once option p.config (← fileName value) }
  | .strategy =>
    return { p with strategy := ← once option p.strategy (← chosen option strategyOfName? value) }
  | .format =>
    return { p with format := ← once option p.format (← chosen option formatOfName? value) }
  | .hide => return { p with hide := p.hide ++ [value] }
  | .pool => return { p with pool := ← once option p.pool value }
  | .extension => return { p with extension := ← once option p.extension value }

def setEditor (p : Parsed) : Except UsageError Parsed :=
  if p.editor then .error (.repeated "editor") else .ok { p with editor := true }

def addInput (p : Parsed) (name : String) : Except UsageError Parsed := do
  return { p with inputs := p.inputs ++ [← fileName name] }

/-- The request, once every argument was read. -/
def request (p : Parsed) : Except UsageError Request :=
  if p.inputs.isEmpty then .error .noInput
  else .ok (.run {
    inputs := p.inputs
    config := p.config
    strategy := p.strategy.getD .auto
    format := p.format.getD .json
    editor := p.editor
    hide := p.hide
    pool := p.pool
    extension := p.extension })

end Parsed

/-! ## Arguments -/

/-- What an argument looks like. -/
inductive Shape where
  /-- Two dashes alone: only file names follow. -/
  | endOfOptions
  /-- Two dashes, a name, and perhaps a value after an equals sign. -/
  | long (name : String) (value : Option String)
  /-- One dash and letters. -/
  | short (letter : Char)
  | plain

def shapeOf (argument : String) : Shape :=
  match argument.toList with
  | ['-', '-'] => .endOfOptions
  | '-' :: '-' :: rest =>
    let name := rest.takeWhile (· ≠ '=')
    let value := match rest.dropWhile (· ≠ '=') with
      | [] => none
      | _ :: value => some (String.ofList value)
    .long (String.ofList name) value
  | '-' :: letter :: _ => .short letter
  | _ => .plain

/-- An argument that can be the value of the option before it. -/
def isPlain (argument : String) : Bool :=
  match shapeOf argument with
  | .plain => true
  | _ => false

/-- The request of the arguments after those of `p`. -/
def readArguments : List String → Parsed → Except UsageError Request
  | [], p => p.request
  | argument :: rest, p =>
    match shapeOf argument with
    | .endOfOptions => do (← rest.foldlM Parsed.addInput p).request
    | .plain => do readArguments rest (← p.addInput argument)
    | .short letter =>
      if letter = 'h' then .ok .help
      else if letter = 'V' then .ok .version
      else .error (.unknownOption argument)
    | .long name value =>
      match ValueOption.ofName? name, value, rest with
      | some option, some value, rest => do readArguments rest (← p.setOption option value)
      | some option, none, value :: rest =>
        if isPlain value then do readArguments rest (← p.setOption option value)
        else .error (.missingValue option.name)
      | some option, none, [] => .error (.missingValue option.name)
      | none, value, rest =>
        if name ∉ ["editor", "help", "version"] then .error (.unknownOption argument)
        else if value.isSome then .error (.unexpectedValue name)
        else if name = "help" then .ok .help
        else if name = "version" then .ok .version
        else do readArguments rest (← p.setEditor)

/-- The request that the arguments make. -/
def requestOf (arguments : List String) : Except UsageError Request := readArguments arguments {}

/-- The request to map listings that the arguments make. A run that is asked for
something else, or by arguments that break a rule, ends at once. -/
def readRequest (arguments : List String) : Except Outcome Invocation :=
  match requestOf arguments with
  | .error e => .error ⟨2, "", some e.message⟩
  | .ok .help => .error ⟨0, helpText, none⟩
  | .ok .version => .error ⟨0, versionText, none⟩
  | .ok (.run i) => .ok i

end EventListing.Command
