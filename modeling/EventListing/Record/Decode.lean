-- Decoding a line into its record. Only two things stop a line from being
-- decoded: a file number that is no number, and a file start without a name.
import EventListing.Record.Basic
import EventListing.Record.Layout
import EventListing.Number.Decimal
import EventListing.Number.Saturating
import EventListing.Text.Quoted

namespace EventListing

open Text

/-! ## Why a line is not decoded -/

inductive RecordError where
  /-- A token that the record must have is not there. -/
  | missingField (tag : Tag) (field : String)
  /-- The file number is something else than a number. -/
  | malformedNumber (tag : Tag) (field : String) (value : String)
deriving DecidableEq, Repr

namespace RecordError

def message : RecordError → String
  | missingField tag field => tag.name ++ " record is missing field '" ++ field ++ "'"
  | malformedNumber tag field value =>
    tag.name ++ " record has non-numeric '" ++ field ++ "': " ++ quoted value

end RecordError

/-! ## Reading a field -/

namespace Field

/-- The text of a field that every line has. -/
def text (field : Field) (line : Line) : List Char := (field.extract line).getD []

/-- A numeric field. A blank one is zero, and one that is missing or does
not read is `none`. -/
def number {α : Type} (read : List Char → Option α) (zero : α) (field : Field) (line : Line) :
    Option α :=
  match field.extract line with
  | none => none
  | some raw => if (trim raw).isEmpty then some zero else read (trim raw)

/-- A number of 64 bits. -/
def word64 (field : Field) (line : Line) : Option Int := field.number Decimal.word64? 0 line

/-- A number of 32 bits without a sign. -/
def word32 (field : Field) (line : Line) : Option Nat := field.number Decimal.word32? 0 line

end Field

namespace Record

/-- The number of the file that the record is about. A blank one is zero,
and one that does not read rejects the record. -/
def readFileId (tag : Tag) (line : Line) : Except RecordError FileId :=
  match Layout.fileId.word32 line with
  | some n => .ok ⟨n⟩
  | none =>
    .error (.malformedNumber tag Layout.fileId.name
      (String.ofList (trim (Layout.fileId.text line))))

/-! ## The records with fields -/

namespace FileStart

/-- The number of characters of the name that one record carries when the
whole name is declared to have `nameLength` of them. -/
def inlineLength (nameLength : Option Int) : Nat :=
  min (nameLength.getD 0).toNat Layout.FileStart.maxNameLength

def decode (line : Line) : Except RecordError FileStart :=
  match readFileId .fileId line, Layout.FileStart.nameToken.extract line with
  | .error e, _ => .error e
  | .ok _, none => .error (.missingField .fileId Layout.FileStart.nameToken.name)
  | .ok id, some name =>
    let nameLength := Layout.FileStart.nameLength.word64 line
    .ok {
      fileId := id
      includeMarker := String.ofList (Layout.FileStart.includeMarker.text line)
      line := Layout.FileStart.line.word64 line
      nameLength := nameLength
      name := String.ofList name
      inlineName :=
        String.ofList ((Layout.FileStart.name.text line).take (inlineLength nameLength)) }

/-- The offset in the including file, from zero, at which the file begins. -/
def startsAt (r : FileStart) : Option Int := r.line.map (Saturating.sub · 1)

end FileStart

namespace NamePart

def decode (line : Line) : Except RecordError NamePart :=
  (readFileId .fileIdCont line).map fun id =>
    { fileId := id, fragment := String.ofList (Layout.NamePart.name.text line) }

end NamePart

namespace FileEnd

def decode (line : Line) : Except RecordError FileEnd :=
  (readFileId .fileEnd line).map fun id =>
    { fileId := id, length := Layout.FileEnd.length.word64 line }

end FileEnd

namespace Expansion

def decode (line : Line) : Except RecordError Expansion :=
  (readFileId .expansion line).map fun id => {
    fileId := id
    definedStart := Layout.Expansion.definedStart.word64 line
    definedEnd := Layout.Expansion.definedEnd.word64 line
    on := (Layout.Expansion.on.word32 line).map FileId.mk
    rangeStart := Layout.Expansion.rangeStart.word64 line
    rangeEnd := Layout.Expansion.rangeEnd.word64 line }

end Expansion

namespace Error

def decode (line : Line) : Except RecordError Error :=
  (readFileId .error line).map fun id => {
    fileId := id
    severity := Layout.Error.severity.word32 line
    line := Layout.Error.line.word64 line
    columnStart := Layout.Error.columnStart.word64 line
    columnEnd := Layout.Error.columnEnd.word64 line
    code := String.ofList (trim (Layout.Error.code.text line))
    text := String.ofList (trim (Layout.Error.text.text line)) }

end Error

/-! ## Any line -/

/-- The record that a line holds. -/
def decode (line : Line) : Except RecordError Record :=
  match line.tag? with
  | none => .ok .unrecognized
  | some .processor => .ok .processor
  | some .fileId => (FileStart.decode line).map .fileStart
  | some .fileIdCont => (NamePart.decode line).map .namePart
  | some .fileEnd => (FileEnd.decode line).map .fileEnd
  | some .expansion => (Expansion.decode line).map .expansion
  | some .error => (Error.decode line).map .error
  | some tag => .ok (.ignored tag)

end Record

/-- The records of a listing. A line that does not decode is left out. -/
def Listing.records (listing : Listing) : List Record :=
  listing.filterMap fun line => (Record.decode line).toOption

theorem Listing.records_append (xs ys : Listing) :
    Listing.records (xs ++ ys) = xs.records ++ ys.records := List.filterMap_append

end EventListing
