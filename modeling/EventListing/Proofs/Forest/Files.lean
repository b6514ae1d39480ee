-- The files of the forest so far, and what one record does to them. A file start
-- opens a file, and every other record changes at most one file that is there.
-- What the first kind of step sets up and the second kind keeps holds of every
-- file of every forest.
import EventListing.Forest.Builder

namespace EventListing

namespace Step

theorem getElem?_of_indexOf? {step : Step} {id : FileId} {index : Nat}
    (h : step.indexOf? id = some index) :
    ∃ file, step.files[index]? = some file ∧ file.id = id := by
  obtain ⟨hlt, hid, -⟩ := List.findIdx?_eq_some_iff_getElem.mp h
  exact ⟨step.files[index], List.getElem?_eq_getElem hlt, by simpa using hid⟩

/-- A file of a changed step was there before, or it is the changed one. -/
theorem mem_modify {change : FileNode → FileNode} {step : Step} {index : Nat} {file : FileNode}
    (h : file ∈ (step.modify index change).files) :
    file ∈ step.files ∨ ∃ old, step.files[index]? = some old ∧ file = change old := by
  obtain ⟨i, hi⟩ := List.mem_iff_getElem?.mp h
  unfold modify at hi
  rw [List.getElem?_modify] at hi
  obtain ⟨old, hold, hfile⟩ := Option.map_eq_some_iff.mp hi
  by_cases he : index = i
  · subst he
    exact Or.inr ⟨old, hold, by simpa using hfile.symm⟩
  · rw [if_neg he] at hfile
    exact Or.inl (hfile ▸ List.mem_of_getElem? hold)

end Step

namespace Builder

/-! ## One record -/

/-- The files of all compile steps, the open one included. -/
def files (b : Builder) : List FileNode := b.finish.steps.flatMap (·.files)

theorem mem_files {b : Builder} {file : FileNode} :
    file ∈ b.files ↔
      (∃ step ∈ b.done.steps, file ∈ step.files) ∨
        ∃ step, b.current = some step ∧ file ∈ step.files := by
  simp only [files, finish, List.mem_flatMap, List.mem_append, Option.mem_toList, or_and_right,
    exists_or]

/-- The open files and the mark of an edit do not matter. -/
theorem mem_files_of_eq {b b' : Builder} {file : FileNode} (h : file ∈ b'.files)
    (hdone : b'.done = b.done) (hcurrent : b'.current = b.current) : file ∈ b.files := by
  rwa [mem_files, hdone, hcurrent, ← mem_files] at h

/-- What a record makes of a file that is there. -/
inductive Changes (b : Builder) : Record → FileNode → FileNode → Prop
  | length (r : Record.FileEnd) (old : FileNode) :
      Changes b (.fileEnd r) old { old with length := r.length }
  | edit (r : Record.Expansion) (old : FileNode) :
      Changes b (.expansion r) old { old with edits := old.edits ++ [Edit.ofRecord r] }
  | error {r : Record.Error} {e : RawError} {old : FileNode} (named : old.id = r.fileId)
      (reads : RawError.ofRecord? r b.edited = some e) :
      Changes b (.error r) old { old with errors := old.errors ++ [e] }

variable {b : Builder} {record : Record} {file : FileNode}

theorem of_mem_files_openFile {r : Record.FileStart} (h : file ∈ (b.openFile r).files) :
    file ∈ b.files ∨ file = b.newNode r := by
  obtain ⟨done, current, openFiles, edited⟩ := b
  rw [mem_files] at h ⊢
  cases current with
  | none => exact .inl h
  | some step =>
    rcases h with hdone | ⟨_, ⟨⟩, hcurrent⟩
    · exact .inl (.inl hdone)
    · rcases List.mem_append.mp hcurrent with hold | hnew
      · exact .inl (.inr ⟨step, rfl, hold⟩)
      · exact .inr (List.mem_singleton.mp hnew)

/-- A change in the open step changes one file. -/
theorem of_mem_files_modify {step : Step} {openFiles : List FileId} {edited : Bool}
    (hcurrent : b.current = some step) {index : Nat} {change : FileNode → FileNode}
    (h : file ∈ (Builder.mk b.done (some (step.modify index change)) openFiles edited).files) :
    file ∈ b.files ∨ ∃ old ∈ b.files, step.files[index]? = some old ∧ file = change old := by
  rw [mem_files] at h
  rcases h with hdone | ⟨_, ⟨⟩, hmem⟩
  · exact .inl (mem_files.mpr (.inl hdone))
  · rcases Step.mem_modify hmem with hold | ⟨old, hat, rfl⟩
    · exact .inl (mem_files.mpr (.inr ⟨step, hcurrent, hold⟩))
    · have hold : old ∈ b.files :=
        mem_files.mpr (.inr ⟨step, hcurrent, List.mem_of_getElem? hat⟩)
      exact .inr ⟨old, hold, hat, rfl⟩

/-- A file after a record was there before it, or was opened by it, or is a
change of one that was there. -/
theorem of_mem_files_apply (h : file ∈ (b.apply record).files) :
    file ∈ b.files ∨ (∃ r, record = .fileStart r ∧ file = b.newNode r) ∨
      ∃ old ∈ b.files, b.Changes record old file := by
  cases record with
  | processor =>
    have hsame : (b.apply .processor).files = b.files := by
      simp [files, apply, openStep, finish, Step.empty]
    exact .inl (hsame ▸ h)
  | fileStart r =>
    rcases of_mem_files_openFile h with hold | hnew
    · exact .inl hold
    · exact .inr (.inl ⟨r, rfl, hnew⟩)
  | fileEnd r =>
    cases hcurrent : b.current with
    | none => simp_all [apply, closeFile]
    | some step =>
      simp only [apply, closeFile, hcurrent] at h
      split at h
      · exact .inl (mem_files_of_eq h rfl hcurrent.symm)
      · rcases of_mem_files_modify hcurrent h with hold | ⟨old, hold, -, rfl⟩
        · exact .inl hold
        · exact .inr (.inr ⟨old, hold, .length r old⟩)
  | expansion r =>
    cases hcurrent : b.current with
    | none =>
      simp only [apply, addEdit, hcurrent] at h
      exact .inl (mem_files_of_eq h rfl hcurrent.symm)
    | some step =>
      simp only [apply, addEdit, hcurrent] at h
      split at h
      · exact .inl (mem_files_of_eq h rfl hcurrent.symm)
      · rcases of_mem_files_modify hcurrent h with hold | ⟨old, hold, -, rfl⟩
        · exact .inl hold
        · exact .inr (.inr ⟨old, hold, .edit r old⟩)
  | error r =>
    cases hcurrent : b.current with
    | none => simp_all [apply, addError]
    | some step =>
      simp only [apply, addError, hcurrent] at h
      split at h
      · rename_i index e hindex hread
        rcases of_mem_files_modify hcurrent h with hold | ⟨old, hold, hat, rfl⟩
        · exact .inl hold
        · obtain ⟨file, hat', hid⟩ := Step.getElem?_of_indexOf? hindex
          obtain rfl : old = file := Option.some.inj (hat.symm.trans hat')
          exact .inr (.inr ⟨old, hold, .error hid hread⟩)
      · exact .inl h
  | namePart | ignored | unrecognized => exact .inl h

/-! ## All records -/

/-- What new files have, and changed files keep, all files have. -/
theorem forall_mem_files_foldl {P : FileNode → Prop} {records rest : List Record}
    (opened : ∀ (b : Builder) r, .fileStart r ∈ records → P (b.newNode r))
    (kept : ∀ (b : Builder) record old new, record ∈ records → b.Changes record old new →
      P old → P new)
    (hrest : rest ⊆ records) (h : ∀ file ∈ b.files, P file) :
    ∀ file ∈ (rest.foldl apply b).files, P file := by
  induction rest generalizing b with
  | nil => exact h
  | cons record rest ih =>
    obtain ⟨hrecord, hrest⟩ := List.cons_subset.mp hrest
    refine ih hrest ?_
    intro file hfile
    rcases of_mem_files_apply hfile with hold | ⟨r, rfl, rfl⟩ | ⟨old, hold, hchange⟩
    · exact h file hold
    · exact opened b r hrecord
    · exact kept b record old file hrecord hchange (h old hold)

end Builder

/-- What new files have, and changed files keep, all files of a forest have. -/
theorem Forest.forall_mem_files {P : FileNode → Prop} {records : List Record}
    (opened : ∀ (b : Builder) r, .fileStart r ∈ records → P (b.newNode r))
    (kept : ∀ (b : Builder) record old new, record ∈ records → b.Changes record old new →
      P old → P new) :
    ∀ step ∈ (ofRecords records).steps, ∀ file ∈ step.files, P file := by
  intro step hstep file hfile
  refine Builder.forall_mem_files_foldl opened kept (List.Subset.refl records) ?_ file
    (List.mem_flatMap.mpr ⟨step, hstep, hfile⟩)
  exact fun file hfile => nomatch hfile

end EventListing
