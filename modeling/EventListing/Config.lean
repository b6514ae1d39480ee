-- The configuration file. It has two sections, `resolver` and `reporting`.
-- What it leaves out keeps its default, and what it does not know is ignored.
import EventListing.Report.Settings
import EventListing.Resolution.Strategy
import EventListing.Toml.Document

namespace EventListing

open Toml (Value)

structure Config where
  resolver : Resolution.Settings := {}
  report : Report.Settings := {}
deriving DecidableEq, Repr, Inhabited

/-- Why a text is no configuration. -/
inductive ConfigError where
  /-- The text is no TOML document. -/
  | malformed
  /-- A setting has a value of the wrong type. -/
  | wrongType
deriving DecidableEq, Repr

/-- The message is the same for every cause. -/
def ConfigError.message : ConfigError → String
  | malformed => "Failed to parse configuration"
  | wrongType => "Failed to parse configuration"

namespace Config

/-! ## Settings of a section -/

/-- The setting of a section with this name. In a section that is a list,
the settings stand in a fixed order. A date holds no settings, and any other
value is no section. -/
def setting? (part : Value) (name : String) (place : Nat) :
    Except ConfigError (Option Value) :=
  match part with
  | .table entries => .ok ((entries.find? (·.1 == name)).map (·.2))
  | .list items => .ok items[place]?
  | .moment _ => .ok none
  | _ => .error .wrongType

/-- The setting as `read` takes it, or the default when it is left out. -/
def settingOr {α : Type} (part : Value) (name : String) (place : Nat)
    (read : Value → Option α) (default : α) : Except ConfigError α :=
  match setting? part name place with
  | .error e => .error e
  | .ok none => .ok default
  | .ok (some v) =>
    match read v with
    | none => .error .wrongType
    | some a => .ok a

def asBoolean? : Value → Option Bool
  | .boolean b => some b
  | _ => none

def asText? : Value → Option String
  | .text s => some s
  | _ => none

def asTexts? : Value → Option (List String)
  | .list items => items.mapM asText?
  | _ => none

/-! ## Sections -/

def resolverOf (v : Value) : Except ConfigError Resolution.Settings := do
  return { useTree := ← settingOr v "try_new_error_parser" 0 asBoolean? false }

def reportOf (v : Value) : Except ConfigError Report.Settings := do
  let optional (name : String) (place : Nat) :=
    settingOr v name place (fun v => (asText? v).map some) none
  return {
    hiddenCodes := ← settingOr v "hide_compile_errors" 0 asTexts? []
    pool := ← optional "asp" 1
    extension := ← optional "extension" 2
    deployPath := ← optional "workspace_deploy_path" 3 }

/-- The configuration that a document holds. -/
def ofValue (v : Value) : Except ConfigError Config := do
  let part (name : String) (place : Nat) : Except ConfigError Value :=
    settingOr v name place some (.table [])
  return {
    resolver := ← resolverOf (← part "resolver" 0)
    report := ← reportOf (← part "reporting" 1) }

/-- The configuration that a text holds, when `document?` reads its TOML document. -/
def ofTextBy (document? : String → Option Value) (text : String) : Except ConfigError Config :=
  match document? text with
  | none => .error .malformed
  | some v => ofValue v

/-- The configuration that a text holds. -/
def ofText (text : String) : Except ConfigError Config := ofTextBy Toml.document? text

end Config

end EventListing
