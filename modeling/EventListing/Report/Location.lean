-- Where a path lies from the editor's point of view.
import EventListing.Report.Settings
import EventListing.Text.Case
import EventListing.Text.Search

namespace EventListing.Report

inductive Scheme where
  /-- A stream file, by its absolute path. -/
  | streamFile
  /-- A source member, `/[POOL/]LIB/FILE/MEMBER[.extension]`. -/
  | member
  /-- A file of the local workspace, relative to its root. -/
  | workspace
deriving DecidableEq, Repr

namespace Scheme

def name : Scheme → String
  | streamFile => "streamfile"
  | member => "member"
  | workspace => "workspace"

def ofName? (name : String) : Option Scheme :=
  [streamFile, member, workspace].find? (·.name == name)

theorem ofName?_name (s : Scheme) : ofName? s.name = some s := by cases s <;> decide

end Scheme

structure Location where
  scheme : Scheme
  path : String
deriving DecidableEq, Repr

namespace Location

/-- The location as it is shown: the scheme, a colon and the path. -/
def text (l : Location) : String := l.scheme.name ++ ":" ++ l.path

/-- The path of a deployed file within the workspace: in small letters,
without the deploy directory and without slashes in front. -/
def workspacePath (deployPath path : String) : String :=
  let lowered := Text.lowercase path.toList
  String.ofList ((Text.removeFirst deployPath.toList lowered).dropWhile (· == '/'))

/-- The path of a member, with the pool in front and the extension at the
end. -/
def memberPath (settings : Settings) (path : String) : String :=
  let pool := (settings.pool.map (· ++ "/")).getD ""
  let extension := (settings.extension.map ("." ++ ·)).getD ""
  "/" ++ pool ++ path ++ extension

/-- The location of a path. A deploy directory makes every path one of the
workspace. -/
def ofPath (settings : Settings) (path : String) : Location :=
  match settings.deployPath with
  | some deployPath => ⟨.workspace, workspacePath deployPath path⟩
  | none =>
    if path.toList.head? = some '/' then ⟨.streamFile, path⟩
    else ⟨.member, memberPath settings path⟩

end Location

end EventListing.Report
