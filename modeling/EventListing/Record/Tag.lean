-- The tags that name the kind of a record.
import EventListing.Line

namespace EventListing

/-- Every kind of record that a listing may hold. -/
inductive Tag where
  | timestamp | processor | fileId | fileIdCont | fileEnd | error | expansion | program
  | mapDefine | mapStart | mapEnd | feedback
deriving DecidableEq, Repr

namespace Tag

/-- The tag as it stands in the first columns of a record. -/
def name : Tag → String
  | timestamp => "TIMESTAMP"
  | processor => "PROCESSOR"
  | fileId => "FILEID"
  | fileIdCont => "FILEIDCONT"
  | fileEnd => "FILEEND"
  | error => "ERROR"
  | expansion => "EXPANSION"
  | program => "PROGRAM"
  | mapDefine => "MAPDEFINE"
  | mapStart => "MAPSTART"
  | mapEnd => "MAPEND"
  | feedback => "FEEDBACK"

def all : List Tag :=
  [timestamp, processor, fileId, fileIdCont, fileEnd, error, expansion, program, mapDefine,
   mapStart, mapEnd, feedback]

/-- The tag with this name, letter for letter. -/
def ofName? (name : String) : Option Tag := all.find? (·.name == name)

theorem mem_all (tag : Tag) : tag ∈ all := by cases tag <;> decide

theorem ofName?_name (tag : Tag) : ofName? tag.name = some tag := by cases tag <;> decide

end Tag

end EventListing
