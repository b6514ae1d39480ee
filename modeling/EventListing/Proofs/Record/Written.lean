-- Records as they are written into a listing. Each field stands in its column or at
-- its place between the spaces, so decoding a written line gives the record back.
import EventListing.Proofs.Line.Cells
import EventListing.Proofs.Number.Padded
import EventListing.Record.Decode

namespace EventListing

open Text Decimal

/-! ## Reading a number that was written -/

section Numbers

variable {field : Field} {line : Line} {width n : Nat}

theorem trim_padded (width n : Nat) : trim (padded width n) = padded width n :=
  (trimmed_of_no_blank fun c hc => isBlank_of_isDigit (isDigit_of_mem_padded c hc)).trim_eq

theorem Field.number_padded {α : Type} (read : List Char → Option α) (zero : α)
    (h : field.extract line = some (padded width n)) :
    field.number read zero line = read (padded width n) := by
  unfold number
  rw [h]
  simp only [trim_padded, List.isEmpty_iff, padded_ne_nil, if_false]

theorem Field.word32_padded (h : field.extract line = some (padded width n)) (hn : n < 2 ^ 32) :
    field.word32 line = some n :=
  (number_padded _ _ h).trans (word32?_padded hn width)

theorem Field.word64_padded (h : field.extract line = some (padded width n)) (hn : n < 2 ^ 32) :
    field.word64 line = some (n : Int) :=
  (number_padded _ _ h).trans (word64?_padded hn width)

theorem getLast?_padded (width n : Nat) : (padded width n).getLast? ≠ some '\r' := fun hreturn =>
  absurd (isDigit_of_mem_padded _ (List.mem_of_getLast? hreturn)) (by decide)

theorem isWord_padded (width n : Nat) : IsWord (padded width n) := by
  refine ⟨padded_ne_nil _ _, fun hspace => ?_⟩
  exact absurd (isDigit_of_mem_padded _ hspace) (by decide)

end Numbers

/-! ## The cells of a record -/

/-- The tag in its columns. -/
def tagCell (tag : Tag) : List Char := tag.name.toList.rightpad 10 ' '

/-- The cells of a record: the tag, a zero, the number of the file, and the others. -/
def recordCells (tag : Tag) (id : Nat) (fields : List (List Char)) : List (List Char) :=
  tagCell tag :: ['0'] :: padded 3 id :: fields

/-- The raw line of a record. -/
def rawRecord (tag : Tag) (id : Nat) (fields : List (List Char)) : String :=
  String.ofList (join ' ' (recordCells tag id fields))

theorem length_tagCell (tag : Tag) : (tagCell tag).length = 10 := by cases tag <;> rfl

section Written

variable {tag : Tag} {id : Nat} {fields : List (List Char)}

theorem startOf_recordCells (hid : id ≤ 999) (index : Nat) :
    startOf (recordCells tag id fields) (index + 3) = 17 + startOf fields index := by
  have hnumber : (padded 3 id).length = 3 := length_padded (by decide) (by omega)
  simp only [recordCells, startOf_cons_succ, length_tagCell, hnumber, List.length_singleton]
  omega

/-- A written record is one line. -/
theorem ofRaw?_rawRecord (hlast : ∀ cell ∈ fields.getLast?, cell.getLast? ≠ some '\r') :
    Line.ofRaw? (rawRecord tag id fields) = some (Line.ofCells (recordCells tag id fields)) := by
  refine Line.ofRaw?_join ?_ ?_
  · obtain ⟨more, hmore⟩ := exists_join_cons (tagCell tag) (['0'] :: padded 3 id :: fields)
    have htag : isBlankText (tagCell tag) = false := by cases tag <;> decide
    rw [recordCells, hmore, isBlankText_append, htag, Bool.false_and]
  · intro cell hcell
    cases fields with
    | nil =>
      obtain rfl : padded 3 id = cell := Option.some.inj hcell
      exact getLast?_padded _ _
    | cons x fields => exact hlast cell hcell

theorem tag?_recordCells : (Line.ofCells (recordCells tag id fields)).tag? = some tag := by
  have htrim : trim (tagCell tag) = tag.name.toList := by cases tag <;> decide
  have hcell : (recordCells tag id fields)[0]? = some (tagCell tag) := rfl
  have hcolumn : (Line.ofCells (recordCells tag id fields)).column 0 10 = tagCell tag :=
    Line.column_ofCells hcell rfl (length_tagCell tag)
  unfold Line.tag? Line.tagText Field.extract Layout.recordTag
  simp only [Option.getD_some]
  rw [hcolumn, htrim, String.ofList_toList, Tag.ofName?_name]

/-- The number of the file is read from its column. -/
theorem readFileId_recordCells (hid : id ≤ 999) (kind : Tag) :
    Record.readFileId kind (Line.ofCells (recordCells tag id fields)) = .ok ⟨id⟩ := by
  have hstart : startOf (recordCells tag id fields) 2 = 13 := by
    simp only [recordCells, startOf_cons_succ, length_tagCell, List.length_singleton]
    rfl
  have hlength : (padded 3 id).length = 3 := length_padded (by decide) (by omega)
  have hcolumn : (Line.ofCells (recordCells tag id fields)).column 13 3 = padded 3 id :=
    Line.column_ofCells rfl hstart hlength
  have hextract : Layout.fileId.extract (Line.ofCells (recordCells tag id fields)) =
      some (padded 3 id) := congrArg some hcolumn
  unfold Record.readFileId
  rw [Field.word32_padded hextract (by omega)]

/-- A column behind the number of the file. -/
theorem column_recordCells (hid : id ≤ 999) (index : Nat) {offset width : Nat}
    {cell : List Char} (hcell : fields[index]? = some cell)
    (hstart : 17 + startOf fields index = offset) (hwidth : cell.length = width) :
    (Line.ofCells (recordCells tag id fields)).column offset width = cell := by
  have hcells : (recordCells tag id fields)[index + 3]? = some cell := hcell
  exact Line.column_ofCells hcells ((startOf_recordCells hid index).trans hstart) hwidth

/-- The text from the last cell on. -/
theorem restFrom_recordCells (hid : id ≤ 999) (index : Nat) {offset : Nat} {cell : List Char}
    (hcell : fields[index]? = some cell) (hstart : 17 + startOf fields index = offset)
    (hlast : fields.length = index + 1) :
    ∃ count, (Line.ofCells (recordCells tag id fields)).restFrom offset =
      cell ++ List.replicate count ' ' := by
  have hcells : (recordCells tag id fields)[index + 3]? = some cell := hcell
  have hstarts : startOf (recordCells tag id fields) (index + 3) = offset :=
    (startOf_recordCells hid index).trans hstart
  rw [← hstarts]
  refine Line.restFrom_ofCells_last hcells ?_
  simp only [recordCells, List.length_cons, hlast]

/-- A token behind the number of the file. -/
theorem token?_recordCells (hwords : ∀ cell ∈ fields, IsWord cell) (index : Nat) :
    (Line.ofCells (recordCells tag id fields)).token? (index + 3) = fields[index]? := by
  have htag : words (tagCell tag) = [tag.name.toList] := by cases tag <;> decide
  have hnumber : words (padded 3 id) = [padded 3 id] :=
    words_of_not_mem (isWord_padded 3 id).1 (isWord_padded 3 id).2
  have htokens : (Line.ofCells (recordCells tag id fields)).tokens =
      tag.name.toList :: ['0'] :: padded 3 id :: fields := by
    rw [Line.tokens_ofCells, recordCells, List.flatMap_cons, List.flatMap_cons,
      List.flatMap_cons, htag, hnumber, flatMap_words hwords]
    rfl
  unfold Line.token?
  rw [htokens]
  rfl

end Written

/-! ## The entries of a listing -/

/-- The date that stands behind a file name. -/
def stamp : List Char := "20230101120000".toList

/-- What can be written into a listing. -/
inductive Entry where
  /-- A file begins at this line of the including file, or at line zero if it is a root. -/
  | file (id line : Nat) (name : String)
  | fileEnd (id length : Nat)
  | expansion (id : Nat) (defined : Nat × Nat) (on : Nat) (range : Nat × Nat)
  | error (id line : Nat) (columns : Nat × Nat) (code : String) (severity : Nat) (text : String)

namespace Entry

def tag : Entry → Tag
  | file .. => .fileId
  | fileEnd .. => .fileEnd
  | expansion .. => .expansion
  | error .. => .error

/-- The number of the file that the entry is about. -/
def fileNumber : Entry → Nat
  | file id .. | fileEnd id .. | expansion id .. | error id .. => id

/-- The cells behind the number of the file. -/
def fields : Entry → List (List Char)
  | file _ line name =>
    [padded 6 line, padded 3 name.toList.length,
      name.toList.take Layout.FileStart.maxNameLength, stamp, ['0']]
  | fileEnd _ length => [padded 6 length]
  | expansion _ defined on range =>
    [padded 6 defined.1, padded 6 defined.2, padded 3 on, padded 6 range.1, padded 6 range.2]
  | error _ line columns code severity text =>
    [['1'], padded 6 line, padded 6 line, padded 3 columns.1, padded 6 line, padded 3 columns.2,
      code.toList.rightpad 7 ' ', ['S'], padded 2 severity, padded 3 text.utf8ByteSize,
      text.toList]

/-- The parts of a long file name that go on further records. -/
def nameParts : Entry → List (List Char)
  | file _ _ name =>
    (name.toList.drop Layout.FileStart.maxNameLength).toChunks Layout.FileStart.maxNameLength
  | _ => []

/-- The raw lines of an entry. -/
def rawLines (e : Entry) : List String :=
  rawRecord e.tag e.fileNumber e.fields ::
    e.nameParts.map fun part =>
      rawRecord .fileIdCont e.fileNumber [List.replicate 11 ' ' ++ part, stamp, ['0']]

/-- The values fit in their columns. -/
def Fits : Entry → Prop
  | file id line name =>
    id ≤ 999 ∧ line ≤ 999999 ∧ IsWord name.toList ∧ name.toList.length ≤ 255
  | fileEnd id length => id ≤ 999 ∧ length < 2 ^ 32
  | expansion id defined on range =>
    id ≤ 999 ∧ defined.1 < 2 ^ 32 ∧ defined.2 < 2 ^ 32 ∧ on < 2 ^ 32 ∧
      range.1 < 2 ^ 32 ∧ range.2 < 2 ^ 32
  | error id line columns code severity text =>
    id ≤ 999 ∧ line ≤ 999999 ∧ columns.1 ≤ 999 ∧ columns.2 ≤ 999 ∧ severity ≤ 99 ∧
      (code.toList.length ≤ 7 ∧ Trimmed code.toList) ∧
      text.utf8ByteSize ≤ 999 ∧ Trimmed text.toList

instance : (e : Entry) → Decidable e.Fits
  | file .. | fileEnd .. | expansion .. | error .. => inferInstanceAs (Decidable (_ ∧ _))

/-- The record that an entry stands for. -/
def record : Entry → Record
  | file id line name => .fileStart {
      fileId := ⟨id⟩
      includeMarker := String.ofList (padded 6 line)
      line := some line
      nameLength := some name.toList.length
      name := name
      inlineName := name }
  | fileEnd id length => .fileEnd { fileId := ⟨id⟩, length := some length }
  | expansion id defined on range => .expansion {
      fileId := ⟨id⟩
      definedStart := some defined.1
      definedEnd := some defined.2
      on := some ⟨on⟩
      rangeStart := some range.1
      rangeEnd := some range.2 }
  | error id line columns code severity text => .error {
      fileId := ⟨id⟩
      severity := some severity
      line := some line
      columnStart := some columns.1
      columnEnd := some columns.2
      code := code
      text := text }

/-! ### Each kind of entry -/

/-- The line that an entry is written on. -/
def line (e : Entry) : Line := Line.ofCells (recordCells e.tag e.fileNumber e.fields)

section Kinds

variable {id : Nat}

theorem decode_file {line : Nat} {name : String} (h : (file id line name).Fits) :
    Record.decode (file id line name).line = .ok (file id line name).record := by
  obtain ⟨hid, hline, hname, hlength⟩ := h
  set cells := [padded 6 line, padded 3 name.toList.length, name.toList, stamp, ['0']] with hcells
  have hfields : (file id line name).fields = cells :=
    congrArg (fun head => [padded 6 line, padded 3 name.toList.length, head, stamp, ['0']])
      (List.take_of_length_le hlength)
  have hwords : ∀ cell ∈ cells, IsWord cell := by
    have hstamp : IsWord stamp := by constructor <;> decide
    have hzero : IsWord ['0'] := by constructor <;> decide
    simp [hcells, isWord_padded, hname, hstamp, hzero]
  have hsix : (padded 6 line).length = 6 := length_padded (by decide) (by omega)
  have hthree : (padded 3 name.toList.length).length = 3 := length_padded (by decide) (by omega)
  have hstart : 17 + startOf cells 2 = 28 := by
    rw [hcells, startOf_cons_succ, startOf_cons_succ, hsix, hthree]
    rfl
  set written := Line.ofCells (recordCells .fileId id cells) with hwritten
  have hnumber : Record.readFileId .fileId written = .ok ⟨id⟩ := readFileId_recordCells hid _
  have hmarker : Layout.FileStart.includeMarker.text written = padded 6 line :=
    column_recordCells hid 0 rfl rfl hsix
  have hopened : Layout.FileStart.line.word64 written = some (line : Int) :=
    Field.word64_padded (token?_recordCells hwords 0) (by omega)
  have hcount : Layout.FileStart.nameLength.word64 written = some (name.toList.length : Int) :=
    Field.word64_padded (token?_recordCells hwords 1) (by omega)
  have htoken : Layout.FileStart.nameToken.extract written = some name.toList :=
    token?_recordCells hwords 2
  have hlimit : Record.FileStart.inlineLength (some (name.toList.length : Int)) =
      name.toList.length := Nat.min_eq_left hlength
  have hinline : (Layout.FileStart.name.text written).take name.toList.length = name.toList :=
    column_recordCells hid 2 rfl hstart rfl
  unfold Record.decode Entry.line
  rw [hfields, tag?_recordCells]
  simp only [tag, fileNumber, ← hwritten, Record.FileStart.decode, hnumber, hmarker, hopened,
    hcount, htoken, hlimit, hinline, String.ofList_toList]
  rfl

theorem decode_fileEnd {length : Nat} (h : (fileEnd id length).Fits) :
    Record.decode (fileEnd id length).line = .ok (fileEnd id length).record := by
  obtain ⟨hid, hlength⟩ := h
  set written := (fileEnd id length).line with hwritten
  have hwords : ∀ cell ∈ [padded 6 length], IsWord cell :=
    List.forall_mem_singleton.mpr (isWord_padded _ _)
  have hnumber : Record.readFileId .fileEnd written = .ok ⟨id⟩ := readFileId_recordCells hid _
  have hread : Layout.FileEnd.length.word64 written = some (length : Int) :=
    Field.word64_padded (token?_recordCells hwords 0) hlength
  have htag : written.tag? = some .fileEnd := tag?_recordCells
  simp only [Record.decode, htag, Record.FileEnd.decode, hnumber, hread]
  rfl

theorem decode_expansion {defined range : Nat × Nat} {on : Nat}
    (h : (expansion id defined on range).Fits) :
    Record.decode (expansion id defined on range).line =
      .ok (expansion id defined on range).record := by
  obtain ⟨hid, hdefinedStart, hdefinedEnd, hon, hrangeStart, hrangeEnd⟩ := h
  set e := expansion id defined on range with he
  have hwords : ∀ cell ∈ e.fields, IsWord cell := by
    simp [he, fields, isWord_padded]
  have htoken : ∀ index, e.line.token? (index + 3) = e.fields[index]? :=
    token?_recordCells hwords
  have htag : e.line.tag? = some .expansion := tag?_recordCells
  have hnumber : Record.readFileId .expansion e.line = .ok ⟨id⟩ := readFileId_recordCells hid _
  have h0 : Layout.Expansion.definedStart.word64 e.line = some (defined.1 : Int) :=
    Field.word64_padded (htoken 0) hdefinedStart
  have h1 : Layout.Expansion.definedEnd.word64 e.line = some (defined.2 : Int) :=
    Field.word64_padded (htoken 1) hdefinedEnd
  have h2 : Layout.Expansion.on.word32 e.line = some on := Field.word32_padded (htoken 2) hon
  have h3 : Layout.Expansion.rangeStart.word64 e.line = some (range.1 : Int) :=
    Field.word64_padded (htoken 3) hrangeStart
  have h4 : Layout.Expansion.rangeEnd.word64 e.line = some (range.2 : Int) :=
    Field.word64_padded (htoken 4) hrangeEnd
  simp only [Record.decode, htag, Record.Expansion.decode, hnumber, h0, h1, h2, h3, h4]
  rfl

theorem decode_error {line severity : Nat} {columns : Nat × Nat} {code text : String}
    (h : (error id line columns code severity text).Fits) :
    Record.decode (error id line columns code severity text).line =
      .ok (error id line columns code severity text).record := by
  obtain ⟨hid, hline, hfirst, hlast, hseverity, ⟨hcodeLength, hcode⟩, hbytes, htext⟩ := h
  set e := error id line columns code severity text with he
  have hsix : (padded 6 line).length = 6 := length_padded (by decide) (by omega)
  have hthree : (padded 3 columns.1).length = 3 := length_padded (by decide) (by omega)
  have hthree' : (padded 3 columns.2).length = 3 := length_padded (by decide) (by omega)
  have htwo : (padded 2 severity).length = 2 := length_padded (by decide) (by omega)
  have hbytesLength : (padded 3 text.utf8ByteSize).length = 3 :=
    length_padded (by decide) (by omega)
  have hseven : (code.toList.rightpad 7 ' ').length = 7 := by
    rw [List.length_rightpad, Nat.max_eq_left hcodeLength]
  have hstarts : startOf e.fields 3 = 16 ∧ startOf e.fields 4 = 20 ∧ startOf e.fields 5 = 27 ∧
      startOf e.fields 6 = 31 ∧ startOf e.fields 8 = 41 ∧ startOf e.fields 10 = 48 := by
    simp only [he, fields, startOf_zero, startOf_cons_succ, List.length_singleton, hsix, hthree,
      hthree', htwo, hbytesLength, hseven]
    decide
  obtain ⟨h3, h4, h5, h6, h8, h10⟩ := hstarts
  have htag : e.line.tag? = some .error := tag?_recordCells
  have hnumber : Record.readFileId .error e.line = .ok ⟨id⟩ := readFileId_recordCells hid _
  have hcolumnStart : Layout.Error.columnStart.word64 e.line = some (columns.1 : Int) :=
    Field.word64_padded (congrArg some (column_recordCells hid 3 rfl (by rw [h3]) hthree))
      (by omega)
  have hat : Layout.Error.line.word64 e.line = some (line : Int) :=
    Field.word64_padded (congrArg some (column_recordCells hid 4 rfl (by rw [h4]) hsix))
      (by omega)
  have hcolumnEnd : Layout.Error.columnEnd.word64 e.line = some (columns.2 : Int) :=
    Field.word64_padded (congrArg some (column_recordCells hid 5 rfl (by rw [h5]) hthree'))
      (by omega)
  have hcodeText : trim (Layout.Error.code.text e.line) = code.toList := by
    have hcolumn : Layout.Error.code.text e.line = code.toList.rightpad 7 ' ' :=
      column_recordCells hid 6 rfl (by rw [h6]) hseven
    rw [hcolumn, List.rightpad, trim_append (isBlankText_replicate (by decide) _), hcode.trim_eq]
  have hseverityRead : Layout.Error.severity.word32 e.line = some severity :=
    Field.word32_padded (congrArg some (column_recordCells hid 8 rfl (by rw [h8]) htwo))
      (by omega)
  have htextRead : trim (Layout.Error.text.text e.line) = text.toList := by
    have hrest : ∃ count, Layout.Error.text.text e.line = text.toList ++ List.replicate count ' ' :=
      restFrom_recordCells hid 10 rfl (by rw [h10]) rfl
    obtain ⟨count, hrest⟩ := hrest
    rw [hrest, trim_append (isBlankText_replicate (by decide) _), htext.trim_eq]
  simp only [Record.decode, htag, Record.Error.decode, hnumber, hcolumnStart, hat, hcolumnEnd,
    hcodeText, hseverityRead, htextRead, String.ofList_toList]
  rfl

end Kinds

variable {e : Entry}

theorem decode_line (h : e.Fits) : Record.decode e.line = .ok e.record := by
  cases e with
  | file => exact decode_file h
  | fileEnd => exact decode_fileEnd h
  | expansion => exact decode_expansion h
  | error => exact decode_error h

/-- An entry that fits is written on one line. -/
theorem ofLines_rawLines (h : e.Fits) : Listing.ofLines e.rawLines = [e.line] := by
  have hparts : e.nameParts = [] := by
    cases e with
    | file id line name =>
      have hshort : name.toList.drop Layout.FileStart.maxNameLength = [] :=
        List.drop_of_length_le h.2.2.2
      rw [nameParts, hshort]
      rfl
    | fileEnd | expansion | error => rfl
  have hlast : ∀ cell ∈ e.fields.getLast?, cell.getLast? ≠ some '\r' := by
    intro cell hcell
    cases e with
    | file =>
      obtain rfl : ['0'] = cell := Option.some.inj hcell
      decide
    | fileEnd id length =>
      obtain rfl : padded 6 length = cell := Option.some.inj hcell
      exact getLast?_padded _ _
    | expansion id defined on range =>
      obtain rfl : padded 6 range.2 = cell := Option.some.inj hcell
      exact getLast?_padded _ _
    | error id line columns code severity text =>
      obtain rfl : text.toList = cell := Option.some.inj hcell
      intro hreturn
      have htext : Trimmed text.toList := h.2.2.2.2.2.2.2
      have hblank := htext.2
      rw [hreturn] at hblank
      exact absurd hblank (by decide)
  unfold rawLines Listing.ofLines
  rw [hparts, List.map_nil, List.filterMap_cons_some (ofRaw?_rawRecord hlast)]
  rfl

/-- A listing of entries that fit reads as their records. -/
theorem records_rawLines {entries : List Entry} (h : ∀ e ∈ entries, e.Fits) :
    (Listing.ofLines (entries.flatMap rawLines)).records = entries.map record := by
  induction entries with
  | nil => rfl
  | cons e entries ih =>
    have he : e.Fits := h e List.mem_cons_self
    have hfirst : Listing.records [e.line] = [e.record] := by
      simp only [Listing.records, List.filterMap_cons, decode_line he, List.filterMap_nil]
      rfl
    have hlines : Listing.ofLines (e.rawLines ++ entries.flatMap rawLines) =
        [e.line] ++ Listing.ofLines (entries.flatMap rawLines) := by
      rw [← ofLines_rawLines he]
      exact List.filterMap_append
    rw [List.flatMap_cons, hlines, Listing.records_append, hfirst,
      ih fun e he => h e (List.mem_cons_of_mem _ he)]
    rfl

/-- The marker of a file is zero when its line is. -/
theorem padded_eq_zeros_iff {line : Nat} : String.ofList (padded 6 line) = "000000" ↔ line = 0 := by
  have hzero : String.ofList (padded 6 0) = "000000" := rfl
  rw [← hzero, String.ofList_inj]
  exact (padded_injective 6).eq_iff

end Entry

/-! ## The law -/

/-- An entry whose values fit in their columns is written on one line, and that line
decodes to the very record that the entry stands for. All numbers come back, and so
do the code and the text of an error, whatever characters they hold. A file has its
whole name in both forms, and it is an included member exactly when its line is not
zero. -/
theorem decoding_undoes_writing (e : Entry) (h : e.Fits) :
    ∃ line, Listing.ofLines e.rawLines = [line] ∧ Record.decode line = .ok e.record ∧
      ∀ id opensAt name, e = .file id opensAt name →
        ∃ r, e.record = .fileStart r ∧ r.name = name ∧ r.inlineName = name ∧
          (r.isInclude ↔ opensAt ≠ 0) := by
  refine ⟨e.line, Entry.ofLines_rawLines h, Entry.decode_line h, ?_⟩
  rintro id opensAt name rfl
  refine ⟨_, rfl, rfl, rfl, ?_⟩
  unfold Record.FileStart.isInclude
  rw [bne_iff_ne, ne_eq, Entry.padded_eq_zeros_iff]

/-- A copied member and an error in it. The columns of the error count characters, and
the length of its text counts bytes. -/
def writtenCopy : Entry := .file 2 14 "LIB/CPY(GRÖSSE)"

def writtenError : Entry := .error 2 3 (5, 10) "RNF7030" 30 "Die Größe „x“ fehlt."

theorem written_error_comes_back :
    (writtenCopy.Fits ∧ writtenError.Fits) ∧
      writtenCopy.rawLines = ["FILEID     0 002 000014 015 LIB/CPY(GRÖSSE) 20230101120000 0"] ∧
      writtenError.rawLines = [
        "ERROR      0 002 1 000003 000003 005 000003 010 RNF7030 S 30 026 Die Größe „x“ fehlt."] ∧
      (∃ line r, Listing.ofLines writtenCopy.rawLines = [line] ∧
        Record.decode line = .ok (.fileStart r) ∧ r.name = "LIB/CPY(GRÖSSE)" ∧ r.isInclude) ∧
      ∃ line, Listing.ofLines writtenError.rawLines = [line] ∧
        Record.decode line = .ok writtenError.record := by
  have hfits : writtenCopy.Fits ∧ writtenError.Fits := by decide +kernel
  refine ⟨hfits, by decide +kernel, by decide +kernel, ?_, ?_⟩
  · obtain ⟨line, hline, hdecode, hfile⟩ := decoding_undoes_writing writtenCopy hfits.1
    obtain ⟨r, hr, hname, -, hinclude⟩ := hfile 2 14 "LIB/CPY(GRÖSSE)" rfl
    exact ⟨line, r, hline, hr ▸ hdecode, hname, hinclude.mpr (by decide)⟩
  · obtain ⟨line, hline, hdecode, -⟩ := decoding_undoes_writing writtenError hfits.2
    exact ⟨line, hline, hdecode⟩

end EventListing
