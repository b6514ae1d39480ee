-- What shapes the reports for an editor.
namespace EventListing.Report

structure Settings where
  /-- The message codes that are never shown. -/
  hiddenCodes : List String := []
  /-- The auxiliary storage pool in front of member paths. -/
  pool : Option String := none
  /-- The extension at the end of member paths, without its dot. -/
  extension : Option String := none
  /-- The remote directory to which a local workspace is deployed. -/
  deployPath : Option String := none
deriving DecidableEq, Repr, Inhabited

/-- Diagnostics with this code are not shown. -/
def Settings.isHidden (settings : Settings) (code : String) : Bool :=
  settings.hiddenCodes.any (· == code)

end EventListing.Report
