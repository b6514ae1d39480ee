-- Which lines decode, and what the numbers of their records are. Two things stop a
-- line: a file number that is no number, and after that a file start without a name.
-- Every other number is read by itself: its own field decides it, and nothing else.
import EventListing.Proofs.Number.Numeral
import EventListing.Proofs.Record.Width

namespace EventListing

open Text
open Decimal (Size)

/-! ## What a field says -/

namespace Field

/-- What a numeric field says. It is zero when its text is blank, and otherwise the
number that the text writes. A field that is missing says nothing, and neither does a
text that writes no number of the size. -/
inductive Says (field : Field) (line : Line) (size : Size) : Option Int → Prop
  | missing : field.extract line = none → Says field line size none
  | blank {raw : List Char} : field.extract line = some raw → trim raw = [] →
      Says field line size (some 0)
  | number {raw : List Char} {n : Int} : field.extract line = some raw →
      size.Writes (trim raw) n → Says field line size (some n)
  | other {raw : List Char} : field.extract line = some raw → trim raw ≠ [] →
      (∀ n, ¬ size.Writes (trim raw) n) → Says field line size none

variable {field : Field} {line : Line} {size : Size} {value : Option Int}

theorem number_of_missing (hraw : field.extract line = none) :
    field.number size.read? 0 line = none := by
  unfold number
  rw [hraw]

theorem number_of_blank {raw : List Char} (hraw : field.extract line = some raw)
    (hblank : trim raw = []) : field.number size.read? 0 line = some 0 := by
  unfold number
  rw [hraw]
  simp [hblank]

theorem number_of_full {raw : List Char} (hraw : field.extract line = some raw)
    (hfull : trim raw ≠ []) : field.number size.read? 0 line = size.read? (trim raw) := by
  unfold number
  rw [hraw]
  simp [hfull]

/-- What is read is what the field says. -/
theorem says_iff : field.Says line size value ↔ field.number size.read? 0 line = value := by
  constructor
  · intro h
    cases h with
    | missing hraw => exact number_of_missing hraw
    | blank hraw hblank => exact number_of_blank hraw hblank
    | number hraw hwrites =>
      rw [number_of_full hraw hwrites.ne_nil]
      exact Size.read?_eq_some_iff.mpr hwrites
    | other hraw hfull hwrites =>
      rw [number_of_full hraw hfull]
      exact Option.eq_none_iff_forall_ne_some.mpr fun n hn =>
        hwrites n (Size.read?_eq_some_iff.mp hn)
  · rintro rfl
    cases hraw : field.extract line with
    | none =>
      rw [number_of_missing hraw]
      exact .missing hraw
    | some raw =>
      by_cases hblank : trim raw = []
      · rw [number_of_blank hraw hblank]
        exact .blank hraw hblank
      · rw [number_of_full hraw hblank]
        cases hread : size.read? (trim raw) with
        | none =>
          refine .other hraw hblank fun n hn => ?_
          rw [Size.read?_eq_some_iff.mpr hn] at hread
          cases hread
        | some n => exact .number hraw (Size.read?_eq_some_iff.mp hread)

/-- A field says one thing. -/
theorem Says.unique {other : Option Int} (h : field.Says line size value)
    (hother : field.Says line size other) : value = other :=
  (says_iff.mp h).symm.trans (says_iff.mp hother)

theorem says_word64 (field : Field) (line : Line) :
    field.Says line .word64 (field.word64 line) :=
  says_iff.mpr rfl

theorem says_word32 (field : Field) (line : Line) :
    field.Says line .word32 ((field.word32 line).map Nat.cast) := by
  refine says_iff.mpr ?_
  unfold word32 number
  cases field.extract line with
  | none => rfl
  | some raw =>
    simp only
    split <;> rfl

end Field

/-! ## The numbers of a record -/

/-- A number of a record: where it stands, how large it may be, and what was read. -/
structure Reading where
  field : Field
  size : Size
  value : Option Int

namespace Record

/-- The number of the file that a record is about. -/
def fileReading (id : FileId) : Reading := ⟨Layout.fileId, .word32, some id.number⟩

/-- The numbers of a record, the number of its file first. -/
def readings : Record → List Reading
  | .fileStart r => [
      fileReading r.fileId,
      ⟨Layout.FileStart.line, .word64, r.line⟩,
      ⟨Layout.FileStart.nameLength, .word64, r.nameLength⟩]
  | .namePart r => [fileReading r.fileId]
  | .fileEnd r => [fileReading r.fileId, ⟨Layout.FileEnd.length, .word64, r.length⟩]
  | .expansion r => [
      fileReading r.fileId,
      ⟨Layout.Expansion.definedStart, .word64, r.definedStart⟩,
      ⟨Layout.Expansion.definedEnd, .word64, r.definedEnd⟩,
      ⟨Layout.Expansion.on, .word32, r.on.map fun id => (id.number : Int)⟩,
      ⟨Layout.Expansion.rangeStart, .word64, r.rangeStart⟩,
      ⟨Layout.Expansion.rangeEnd, .word64, r.rangeEnd⟩]
  | .error r => [
      fileReading r.fileId,
      ⟨Layout.Error.severity, .word32, r.severity.map Nat.cast⟩,
      ⟨Layout.Error.line, .word64, r.line⟩,
      ⟨Layout.Error.columnStart, .word64, r.columnStart⟩,
      ⟨Layout.Error.columnEnd, .word64, r.columnEnd⟩]
  | .processor | .ignored _ | .unrecognized => []

/-- The tag of the lines that hold such a record. -/
def tag? : Record → Option Tag
  | .processor => some .processor
  | .fileStart _ => some .fileId
  | .namePart _ => some .fileIdCont
  | .fileEnd _ => some .fileEnd
  | .expansion _ => some .expansion
  | .error _ => some .error
  | .ignored tag => some tag
  | .unrecognized => none

variable {line : Line} {tag : Tag} {id : FileId} {record : Record}

/-! ### The number of the file -/

theorem says_of_readFileId (h : readFileId tag line = .ok id) :
    Layout.fileId.Says line .word32 (some id.number) := by
  have hsaid := Layout.fileId.says_word32 line
  unfold readFileId at h
  split at h
  · rename_i n hn
    cases h
    rw [hn] at hsaid
    exact hsaid
  · cases h

/-- A file number that is no number is shown in the error, without the blanks around
it. -/
theorem readFileId_cases (tag : Tag) (line : Line) :
    (Layout.fileId.Says line .word32 none ∧
        readFileId tag line = .error (.malformedNumber tag "file_id"
          (String.ofList (trim (line.column 13 3))))) ∨
      ∃ id, readFileId tag line = .ok id := by
  have hsaid := Layout.fileId.says_word32 line
  unfold readFileId
  cases hn : Layout.fileId.word32 line with
  | none =>
    rw [hn] at hsaid
    exact Or.inl ⟨hsaid, rfl⟩
  | some n => exact Or.inr ⟨⟨n⟩, rfl⟩

/-! ### Every number -/

namespace FileStart

/-- A file start needs the number of its file, and then its name. -/
theorem decode_cases (line : Line) :
    (∃ e, readFileId .fileId line = .error e ∧ decode line = .error e) ∨
      ∃ id, readFileId .fileId line = .ok id ∧
        (line.tokens.length < 6 ∧ decode line = .error (.missingField .fileId "name") ∨
          6 ≤ line.tokens.length ∧ ∃ r, decode line = .ok r ∧ r.fileId = id ∧
            r.line = Layout.FileStart.line.word64 line ∧
            r.nameLength = Layout.FileStart.nameLength.word64 line) := by
  unfold decode
  cases hid : readFileId .fileId line with
  | error e => exact Or.inl ⟨e, rfl, rfl⟩
  | ok id =>
    refine Or.inr ⟨id, rfl, ?_⟩
    cases hname : Layout.FileStart.nameToken.extract line with
    | none => exact Or.inl ⟨Nat.lt_succ_of_le (List.getElem?_eq_none_iff.mp hname), rfl⟩
    | some name =>
      exact Or.inr ⟨(List.getElem?_eq_some_iff.mp hname).1, _, rfl, rfl, rfl, rfl⟩

end FileStart

/-- Every number of a record is what its own field says. -/
theorem says_of_decode (h : decode line = .ok record) :
    ∀ reading ∈ record.readings, reading.field.Says line reading.size reading.value := by
  have hreads := reads_of_decode h
  have hword64 (field : Field) := field.says_word64 line
  have hword32 (field : Field) := field.says_word32 line
  cases record with
  | processor | ignored | unrecognized => exact List.forall_mem_nil _
  | fileStart r =>
    rcases FileStart.decode_cases line with
      ⟨e, -, herror⟩ | ⟨id, hid, ⟨-, herror⟩ | ⟨-, r', hok, rfl, hline, hlength⟩⟩
    · rw [hreads] at herror
      cases herror
    · rw [hreads] at herror
      cases herror
    · cases hreads.symm.trans hok
      simp [readings, fileReading, says_of_readFileId hid, hline, hlength, hword64]
  | namePart r =>
    obtain ⟨id, hid, rfl⟩ := ok_of_map_eq_ok hreads
    simp [readings, fileReading, says_of_readFileId hid]
  | fileEnd r =>
    obtain ⟨id, hid, rfl⟩ := ok_of_map_eq_ok hreads
    simp [readings, fileReading, says_of_readFileId hid, hword64]
  | expansion r =>
    obtain ⟨id, hid, rfl⟩ := ok_of_map_eq_ok hreads
    have hon : ((Layout.Expansion.on.word32 line).map FileId.mk).map
        (fun id => (id.number : Int)) = (Layout.Expansion.on.word32 line).map Nat.cast := by
      rw [Option.map_map]
      rfl
    simp [readings, fileReading, says_of_readFileId hid, hword64, hon, hword32]
  | error r =>
    obtain ⟨id, hid, rfl⟩ := ok_of_map_eq_ok hreads
    simp [readings, fileReading, says_of_readFileId hid, hword64, hword32]

/-! ## What stops a line -/

end Record

/-- The kinds of record that are about a file. -/
def Tag.aboutFile : List Tag := [.fileId, .fileIdCont, .fileEnd, .expansion, .error]

namespace Line

/-- The text where the number of the file stands. -/
def fileNumber (line : Line) : List Char := trim (line.column 13 3)

/-- The line is about a file, and the number of the file is no number. -/
structure HasBadNumber (line : Line) (tag : Tag) : Prop where
  tag_eq : line.tag? = some tag
  about_file : tag ∈ Tag.aboutFile
  not_blank : line.fileNumber ≠ []
  not_number : ∀ n, ¬ Size.word32.Writes line.fileNumber n

/-- A file begins on the line, its number is fine, and there is no name. -/
structure LacksName (line : Line) : Prop where
  tag_eq : line.tag? = some .fileId
  number : line.fileNumber = [] ∨ ∃ n, Size.word32.Writes line.fileNumber n
  few_tokens : line.tokens.length < 6

variable {line : Line} {tag tag' : Tag}

theorem says_none_iff : Layout.fileId.Says line .word32 none ↔
    line.fileNumber ≠ [] ∧ ∀ n, ¬ Size.word32.Writes line.fileNumber n := by
  constructor
  · rintro (hmissing | _ | _ | ⟨hraw, hfull, hwrites⟩)
    · cases hmissing
    · cases hraw
      exact ⟨hfull, hwrites⟩
  · rintro ⟨hfull, hwrites⟩
    exact .other rfl hfull hwrites

theorem says_some_iff {n : Int} : Layout.fileId.Says line .word32 (some n) ↔
    line.fileNumber = [] ∧ n = 0 ∨ Size.word32.Writes line.fileNumber n := by
  constructor
  · rintro (_ | ⟨hraw, hblank⟩ | ⟨hraw, hwrites⟩)
    · cases hraw
      exact Or.inl ⟨hblank, rfl⟩
    · cases hraw
      exact Or.inr hwrites
  · rintro (⟨hblank, rfl⟩ | hwrites)
    · exact .blank rfl hblank
    · exact .number rfl hwrites

/-- A line has a bad number of one kind only. -/
theorem HasBadNumber.tag_unique (h : line.HasBadNumber tag) (h' : line.HasBadNumber tag') :
    tag = tag' :=
  Option.some.inj (h.tag_eq.symm.trans h'.tag_eq)

/-- A bad number comes before a missing name. -/
theorem HasBadNumber.not_lacksName (h : line.HasBadNumber tag) : ¬ line.LacksName := by
  rintro ⟨-, hblank | ⟨n, hn⟩, -⟩
  · exact h.not_blank hblank
  · exact h.not_number n hn

end Line

namespace Record

variable {line : Line} {tag : Tag} {record : Record}

/-- A record is of the kind that the tag of its line names. -/
theorem tag?_of_decode (h : decode line = .ok record) : record.tag? = line.tag? := by
  unfold decode at h
  split at h <;> rename_i htag <;> rw [htag]
  case h_1 | h_2 | h_8 =>
    cases h
    rfl
  all_goals
    obtain ⟨r, -, rfl⟩ := ok_of_map_eq_ok h
    rfl

/-- A line that is not about a file always decodes. -/
theorem decode_of_other (hother : ∀ tag ∈ Tag.aboutFile, line.tag? ≠ some tag) :
    ∃ record, decode line = .ok record := by
  unfold decode
  split
  case h_1 | h_2 | h_8 => exact ⟨_, rfl⟩
  all_goals exact absurd ‹_› (hother _ (by decide))

/-- An error in the number of the file is the error of the line. -/
theorem decode_of_readFileId_error {e : RecordError} (htag : line.tag? = some tag)
    (habout : tag ∈ Tag.aboutFile) (h : readFileId tag line = .error e) :
    decode line = .error e := by
  simp only [Tag.aboutFile, List.mem_cons, List.not_mem_nil, or_false] at habout
  rcases habout with rfl | rfl | rfl | rfl | rfl
  · simp [decode, htag, FileStart.decode, h, Except.map]
  · simp [decode, htag, NamePart.decode, h, Except.map]
  · simp [decode, htag, FileEnd.decode, h, Except.map]
  · simp [decode, htag, Expansion.decode, h, Except.map]
  · simp [decode, htag, Error.decode, h, Except.map]

/-- Only a file start needs more than the number of the file. -/
theorem decode_of_readFileId_ok {id : FileId} (htag : line.tag? = some tag)
    (habout : tag ∈ Tag.aboutFile) (h : readFileId tag line = .ok id)
    (hname : tag = .fileId → 6 ≤ line.tokens.length) : ∃ record, decode line = .ok record := by
  simp only [Tag.aboutFile, List.mem_cons, List.not_mem_nil, or_false] at habout
  rcases habout with rfl | rfl | rfl | rfl | rfl
  · rcases FileStart.decode_cases line with
      ⟨e, herror, -⟩ | ⟨id', -, ⟨hfew, -⟩ | ⟨-, r, hok, -⟩⟩
    · rw [h] at herror
      cases herror
    · exact absurd (hname rfl) (Nat.not_le.mpr hfew)
    · simp [decode, htag, hok, Except.map]
  · simp [decode, htag, NamePart.decode, h, Except.map]
  · simp [decode, htag, FileEnd.decode, h, Except.map]
  · simp [decode, htag, Expansion.decode, h, Except.map]
  · simp [decode, htag, Error.decode, h, Except.map]

/-- A line has a bad file number, or it begins a file and lacks the name, or it
decodes. -/
theorem decode_cases (line : Line) :
    (∃ tag, line.HasBadNumber tag ∧ decode line =
        .error (.malformedNumber tag "file_id" (String.ofList line.fileNumber))) ∨
      (line.LacksName ∧ decode line = .error (.missingField .fileId "name")) ∨
      ((∀ tag, ¬ line.HasBadNumber tag) ∧ ¬ line.LacksName ∧
        ∃ record, decode line = .ok record) := by
  by_cases habout : ∃ tag ∈ Tag.aboutFile, line.tag? = some tag
  · obtain ⟨tag, habout, htag⟩ := habout
    rcases readFileId_cases tag line with ⟨hsaid, hid⟩ | ⟨id, hid⟩
    · obtain ⟨hblank, hnumber⟩ := Line.says_none_iff.mp hsaid
      exact Or.inl ⟨tag, ⟨htag, habout, hblank, hnumber⟩,
        decode_of_readFileId_error htag habout hid⟩
    · have hgood := Line.says_some_iff.mp (says_of_readFileId hid)
      have hbad (tag' : Tag) : ¬ line.HasBadNumber tag' := by
        intro h
        rcases hgood with ⟨hblank, -⟩ | hwrites
        · exact h.not_blank hblank
        · exact h.not_number _ hwrites
      by_cases hname : tag = .fileId ∧ line.tokens.length < 6
      · obtain ⟨rfl, hfew⟩ := hname
        have hlacks : line.LacksName := ⟨htag, hgood.imp And.left fun h => ⟨_, h⟩, hfew⟩
        rcases FileStart.decode_cases line with ⟨e, herror, -⟩ | ⟨-, -, ⟨-, hmissing⟩ | ⟨hmany, -⟩⟩
        · rw [hid] at herror
          cases herror
        · exact Or.inr (Or.inl ⟨hlacks, by simp [decode, htag, hmissing, Except.map]⟩)
        · exact absurd hmany (Nat.not_le.mpr hfew)
      · refine Or.inr (Or.inr ⟨hbad, fun h => hname ⟨?_, h.few_tokens⟩, ?_⟩)
        · exact Option.some.inj (htag.symm.trans h.tag_eq)
        · exact decode_of_readFileId_ok htag habout hid fun h =>
            Nat.not_lt.mp fun hfew => hname ⟨h, hfew⟩
  · push Not at habout
    refine Or.inr (Or.inr ⟨fun tag h => habout tag h.about_file h.tag_eq, fun h => ?_,
      decode_of_other habout⟩)
    exact habout .fileId (by decide) h.tag_eq

/-- A line is refused for the number of its file exactly when the line is about a file
and the columns of the number hold neither blanks nor a number; the error shows what
they hold. It is refused for a missing name exactly when a file begins there, the number
is fine and there are fewer than six tokens. Any other line decodes, to a record of the
kind that its tag names, and each number of that record is what its own field says. -/
theorem refused_only_for_number_or_name (line : Line) :
    (∀ tag field value, decode line = .error (.malformedNumber tag field value) ↔
      line.HasBadNumber tag ∧ field = "file_id" ∧ value = String.ofList line.fileNumber) ∧
    (∀ tag field, decode line = .error (.missingField tag field) ↔
      line.LacksName ∧ tag = .fileId ∧ field = "name") ∧
    ((∀ tag, ¬ line.HasBadNumber tag) → ¬ line.LacksName →
      ∃ record, decode line = .ok record ∧ record.tag? = line.tag? ∧
        ∀ reading ∈ record.readings, ∀ value,
          reading.field.Says line reading.size value ↔ reading.value = value) := by
  rcases decode_cases line with
    ⟨tag, hbad, hdecode⟩ | ⟨hlacks, hdecode⟩ | ⟨hbad, hlacks, record, hdecode⟩
  · refine ⟨fun tag' field value => ?_, fun tag' field => ?_, fun h => absurd hbad (h tag)⟩
    · rw [hdecode, Except.error.injEq, RecordError.malformedNumber.injEq]
      constructor
      · rintro ⟨rfl, rfl, rfl⟩
        exact ⟨hbad, rfl, rfl⟩
      · rintro ⟨hbad', rfl, rfl⟩
        exact ⟨hbad.tag_unique hbad', rfl, rfl⟩
    · rw [hdecode]
      simp [hbad.not_lacksName]
  · refine ⟨fun tag field value => ?_, fun tag field => ?_, fun _ h => absurd hlacks h⟩
    · rw [hdecode]
      simp only [Except.error.injEq, reduceCtorEq, false_iff]
      exact fun h => h.1.not_lacksName hlacks
    · rw [hdecode, Except.error.injEq, RecordError.missingField.injEq]
      simp [hlacks, eq_comm]
  · refine ⟨fun tag field value => ?_, fun tag field => ?_, fun _ _ =>
      ⟨record, hdecode, tag?_of_decode hdecode, fun reading hreading value => ?_⟩⟩
    · simp [hdecode, hbad]
    · simp [hdecode, hlacks]
    · have hsaid := says_of_decode hdecode reading hreading
      constructor
      · exact fun h => hsaid.unique h
      · rintro rfl
        exact hsaid

/-- Both causes occur. -/
theorem refused_lines :
    (Line.pad "FILEEND    0 0x1 000010".toList).HasBadNumber .fileEnd ∧
      (Line.pad "FILEID     0 001 000000 019".toList).LacksName :=
  ⟨(((refused_only_for_number_or_name _).1 .fileEnd "file_id" "0x1").mp (by decide +kernel)).1,
    (((refused_only_for_number_or_name _).2.1 .fileId "name").mp (by decide +kernel)).1⟩

end Record

end EventListing
