-- The path under which a file is known, made from its name in the listing.
-- A member is named `LIB/FILE(MEMBER)` and becomes `LIB/FILE/MEMBER`. A stream
-- file is named by its path, and only loses the segments that are a dot.
import EventListing.Text.Segments

namespace EventListing.UnitName

open Text

/-- The path of a member, from its qualified name: the library, and the
object split at its parenthesis. Text that is missing reads as empty. -/
def memberPath (name : String) : String :=
  let parts := segments '/' name.toList
  let object := (parts[1]?.getD []).dropLast
  let pieces := segments '(' object
  String.ofList (join '/' [parts.headD [], pieces.headD [], pieces[1]?.getD []])

/-- The path of a stream file, without the segments that are a dot. -/
def streamPath (name : String) : String :=
  String.ofList (join '/' ((segments '/' name.toList).filter (· != ['.'])))

/-- A qualified name ends with a parenthesis. -/
def isQualified (name : String) : Bool := name.toList.getLast? == some ')'

/-- The path of any name. -/
def path (name : String) : String :=
  if isQualified name then memberPath name else streamPath name

end EventListing.UnitName
