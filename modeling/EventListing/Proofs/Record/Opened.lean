-- Errors and the file starts before them. An error is reported for a file
-- number, and it counts only when a file with that number was opened before.
import EventListing.UnitName.Long
import EventListing.UnitName.Path

namespace EventListing

/-! ## The first file start with a number -/

/-- The path of the first file start with the number. -/
def firstPath? (records : List Record) (id : FileId) : Option String :=
  (UnitName.firstStart? records id).map (UnitName.path ·.name)

/-- The first file start is that of the first record, if it is one. -/
theorem UnitName.firstStart?_cons (record : Record) (rest : List Record) (id : FileId) :
    firstStart? (record :: rest) id = (firstStart? [record] id).or (firstStart? rest id) := by
  unfold firstStart?
  rw [List.findSome?_cons, List.findSome?_cons, List.findSome?_nil]
  split <;> simp_all

theorem UnitName.of_firstStart? {records : List Record} {id : FileId} {r : Record.FileStart}
    (h : firstStart? records id = some r) : .fileStart r ∈ records ∧ r.fileId = id := by
  obtain ⟨record, hmem, hrecord⟩ := List.exists_of_findSome?_eq_some h
  cases record with
  | fileStart r' =>
    simp only at hrecord
    split at hrecord
    · rename_i hid
      cases hrecord
      exact ⟨hmem, hid⟩
    · cases hrecord
  | processor | namePart | fileEnd | expansion | error | ignored | unrecognized => cases hrecord

theorem UnitName.firstStart?_append (xs ys : List Record) (id : FileId) :
    firstStart? (xs ++ ys) id = (firstStart? xs id).or (firstStart? ys id) :=
  List.findSome?_append

/-! ### Names without some of the records -/

section Filter

variable {p : Record → Bool} (hstart : ∀ r, p (.fileStart r)) (hpart : ∀ r, p (.namePart r))
  (records : List Record) (id : FileId)

include hstart

/-- Only file starts decide which file start is the first one with a number. -/
theorem UnitName.firstStart?_filter :
    firstStart? (records.filter p) id = firstStart? records id := by
  unfold firstStart?
  rw [← List.head?_filterMap, ← List.head?_filterMap, List.filterMap_filter]
  congr 2
  funext record
  cases record with
  | fileStart r => rw [if_pos (hstart r)]
  | processor | namePart | fileEnd | expansion | error | ignored | unrecognized => simp

include hpart

/-- File starts and the further parts of names decide what a file is called. -/
theorem UnitName.full?_filter : full? (records.filter p) id = full? records id := by
  have hfragments : fragments (records.filter p) id = fragments records id := by
    unfold fragments
    rw [List.filterMap_filter]
    congr 1
    funext record
    cases record with
    | namePart r => rw [if_pos (hpart r)]
    | processor | fileStart | fileEnd | expansion | error | ignored | unrecognized => simp
  unfold full?
  rw [firstStart?_filter hstart, hfragments]

end Filter

namespace Record

/-! ## The files that the records open -/

/-- The number of the file that a record opens. -/
def openedId? : Record → Option FileId
  | .fileStart r => some r.fileId
  | _ => none

/-- The numbers of the files that the records open, one for each file
start. -/
def openings (records : List Record) : List FileId := records.filterMap openedId?

theorem openings_append (xs ys : List Record) :
    openings (xs ++ ys) = openings xs ++ openings ys := List.filterMap_append

theorem isSome_firstStart? {records : List Record} {id : FileId} :
    (UnitName.firstStart? records id).isSome ↔ id ∈ openings records := by
  unfold openings
  rw [List.mem_filterMap]
  constructor
  · intro h
    obtain ⟨r, hr⟩ := Option.isSome_iff_exists.mp h
    obtain ⟨hmem, hid⟩ := UnitName.of_firstStart? hr
    exact ⟨_, hmem, congrArg some hid⟩
  · rintro ⟨record, hmem, hid⟩
    cases record with
    | fileStart r =>
      unfold UnitName.firstStart?
      rw [List.findSome?_isSome_iff]
      exact ⟨_, hmem, by simp [Option.some.inj hid]⟩
    | processor | namePart | fileEnd | expansion | error | ignored | unrecognized => cases hid

/-! ## The errors of the records -/

/-- The error that a record holds. -/
def error? : Record → Option Record.Error
  | .error r => some r
  | _ => none

/-- The errors, in the order in which they come. -/
def errors (records : List Record) : List Record.Error := records.filterMap error?

/-- What is taken out of the records of one kind stands for those records. -/
theorem mem_filterMap_of_kind {α : Type} {part : Record → Option α} {whole : α → Record}
    (h : ∀ record a, part record = some a ↔ record = whole a) {records : List Record} {a : α} :
    a ∈ records.filterMap part ↔ whole a ∈ records := by
  simp only [List.mem_filterMap, h, exists_eq_right]

theorem mem_errors {records : List Record} {r : Record.Error} :
    r ∈ errors records ↔ .error r ∈ records :=
  mem_filterMap_of_kind fun record _ => by cases record <;> simp [error?]

/-! ## Errors of opened files -/

/-- The errors that name a file opened before them, or one of `opened`. -/
def reported (opened : List FileId) : List Record → List Record.Error
  | [] => []
  | record :: rest =>
    match record with
    | .fileStart r => reported (r.fileId :: opened) rest
    | .error r => if r.fileId ∈ opened then r :: reported opened rest else reported opened rest
    | _ => reported opened rest

theorem opened_of_mem_reported {opened : List FileId} {records : List Record} {r : Record.Error}
    (h : r ∈ reported opened records) :
    r.fileId ∈ opened ∨ ∃ start, .fileStart start ∈ records ∧ start.fileId = r.fileId := by
  induction records generalizing opened with
  | nil => cases h
  | cons record rest ih =>
    have hrest : ∀ {opened' : List FileId}, r ∈ reported opened' rest →
        r.fileId ∈ opened' ∨ ∃ start, .fileStart start ∈ record :: rest ∧
          start.fileId = r.fileId := by
      intro opened' hr
      rcases ih hr with hopened | ⟨start, hstart, hid⟩
      · exact Or.inl hopened
      · exact Or.inr ⟨start, List.mem_cons_of_mem _ hstart, hid⟩
    cases record with
    | fileStart start =>
      rcases hrest h with hopened | hlater
      · rcases List.mem_cons.mp hopened with hid | hbefore
        · exact Or.inr ⟨start, List.mem_cons_self, hid.symm⟩
        · exact Or.inl hbefore
      · exact Or.inr hlater
    | error r' =>
      rw [reported] at h
      split at h
      · rename_i hmem
        rcases List.mem_cons.mp h with rfl | hr
        · exact Or.inl hmem
        · exact hrest hr
      · exact hrest h
    | processor | namePart | fileEnd | expansion | ignored | unrecognized => exact hrest h

/-- No error before the first file start counts. -/
theorem reported_append {before : List Record} (h : ∀ r, .fileStart r ∉ before)
    (rest : List Record) : reported [] (before ++ rest) = reported [] rest := by
  induction before with
  | nil => rfl
  | cons record before ih =>
    simp only [List.mem_cons, not_or] at h
    have hbefore := ih fun r => (h r).2
    cases record with
    | fileStart r => exact absurd rfl (h r).1
    | error r => simpa [reported] using hbefore
    | processor | namePart | fileEnd | expansion | ignored | unrecognized => exact hbefore

/-- Every error names a file that was opened before it. -/
def ErrorsOpened (records : List Record) : Prop := reported [] records = errors records

instance (records : List Record) : Decidable (ErrorsOpened records) :=
  inferInstanceAs (Decidable (_ = _))

theorem reported_sublist (opened : List FileId) (records : List Record) :
    (reported opened records).Sublist (errors records) := by
  induction records generalizing opened with
  | nil => exact List.Sublist.slnil
  | cons record rest ih =>
    cases record with
    | error r =>
      rw [reported]
      split
      · exact (ih opened).cons_cons r
      · exact (ih opened).cons r
    | fileStart r => exact ih (r.fileId :: opened)
    | processor | namePart | fileEnd | expansion | ignored | unrecognized => exact ih opened

/-- No error comes before the first file start. -/
theorem ErrorsOpened.errors_eq_nil {before rest : List Record} (h : ErrorsOpened (before ++ rest))
    (hbefore : ∀ r, .fileStart r ∉ before) : errors before = [] := by
  have happend : errors (before ++ rest) = errors before ++ errors rest := List.filterMap_append
  have hlength := congrArg List.length h
  have hle := (reported_sublist [] rest).length_le
  rw [reported_append hbefore, happend, List.length_append] at hlength
  exact List.length_eq_zero_iff.mp (by omega)

/-- Only which files are opened matters, not in which order. -/
theorem reported_congr {opened opened' : List FileId} (h : ∀ id, id ∈ opened ↔ id ∈ opened')
    (records : List Record) : reported opened records = reported opened' records := by
  induction records generalizing opened opened' with
  | nil => rfl
  | cons record rest ih =>
    cases record with
    | fileStart r =>
      refine ih ?_
      intro id
      rw [List.mem_cons, List.mem_cons, h]
    | error r => simp only [reported, h, ih h]
    | processor | namePart | fileEnd | expansion | ignored | unrecognized => exact ih h

end Record

end EventListing
