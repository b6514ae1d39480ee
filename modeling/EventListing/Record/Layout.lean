-- Where the fields of each record stand. Offsets count characters from zero.
-- Tokens are the pieces between spaces; token zero is the tag.
import EventListing.Record.Tag

namespace EventListing

/-- The place of a field in a line. -/
inductive Place where
  /-- The `width` characters from `offset` on. -/
  | column (offset width : Nat)
  /-- The characters from `offset` to the end of the line. -/
  | rest (offset : Nat)
  /-- The token with this index. -/
  | token (index : Nat)
deriving DecidableEq, Repr

structure Field where
  name : String
  place : Place
deriving DecidableEq, Repr

namespace Field

/-- The text of the field, not trimmed. Only a token can be missing. -/
def extract (field : Field) (line : Line) : Option (List Char) :=
  match field.place with
  | .column offset width => some (line.column offset width)
  | .rest offset => some (line.restFrom offset)
  | .token index => line.token? index

end Field

namespace Layout

/-- The tag. -/
def recordTag : Field := ⟨"record_type", .column 0 10⟩

/-- The number of the file that a record is about. -/
def fileId : Field := ⟨"file_id", .column 13 3⟩

namespace FileStart

/-- Zeros for a root. Anything else marks an included member. -/
def includeMarker : Field := ⟨"include_marker", .column 17 6⟩

/-- The line of the including file at which this file begins. -/
def line : Field := ⟨"line", .token 3⟩

def nameLength : Field := ⟨"name_length", .token 4⟩

/-- The file name up to the next space. -/
def nameToken : Field := ⟨"name", .token 5⟩

/-- The start of the file name, which may hold spaces. -/
def name : Field := ⟨"file_name", .rest 28⟩

/-- The most characters of a file name that one record carries. -/
def maxNameLength : Nat := 255

def fields : List Field := [fileId, includeMarker, line, nameLength, nameToken, name]

end FileStart

namespace NamePart

def name : Field := ⟨"file_name", .rest 28⟩

def fields : List Field := [fileId, name]

end NamePart

namespace FileEnd

/-- The number of lines that the file has. -/
def length : Field := ⟨"length", .token 3⟩

def fields : List Field := [fileId, length]

end FileEnd

namespace Expansion

def definedStart : Field := ⟨"defined_start", .token 3⟩
def definedEnd : Field := ⟨"defined_end", .token 4⟩

/-- The file into which the lines were put. -/
def on : Field := ⟨"on", .token 5⟩

def rangeStart : Field := ⟨"range_start", .token 6⟩
def rangeEnd : Field := ⟨"range_end", .token 7⟩

def fields : List Field := [fileId, definedStart, definedEnd, on, rangeStart, rangeEnd]

end Expansion

namespace Error

def columnStart : Field := ⟨"column_start", .column 33 3⟩

/-- The line as the compiler counts it, from one. -/
def line : Field := ⟨"line", .column 37 6⟩

def columnEnd : Field := ⟨"column_end", .column 44 3⟩
def code : Field := ⟨"code", .column 48 7⟩
def severity : Field := ⟨"severity", .column 58 2⟩
def text : Field := ⟨"text", .rest 65⟩

def fields : List Field := [fileId, columnStart, line, columnEnd, code, severity, text]

end Error

end Layout

/-- The fields of a kind of record. A kind that says nothing about
diagnostics has none. -/
def Tag.fields : Tag → List Field
  | .fileId => Layout.FileStart.fields
  | .fileIdCont => Layout.NamePart.fields
  | .fileEnd => Layout.FileEnd.fields
  | .expansion => Layout.Expansion.fields
  | .error => Layout.Error.fields
  | .processor => [Layout.fileId]
  | _ => []

/-- The trimmed text of the tag columns. -/
def Line.tagText (line : Line) : List Char :=
  Text.trim ((Layout.recordTag.extract line).getD [])

/-- The kind of record that the line holds, if its tag is a known one. -/
def Line.tag? (line : Line) : Option Tag := Tag.ofName? (String.ofList line.tagText)

end EventListing
