-- A listing with one file. The builder holds that file alone, and each record
-- changes it in its own way.
import EventListing.Forest.Builder

namespace EventListing

namespace Builder

/-- The builder has one step, and that has one file. -/
structure Holds (b : Builder) (file : FileNode) (edited : Bool) : Prop where
  current : b.current = some ⟨[file]⟩
  done : b.done.steps = []
  edited : b.edited = edited

variable {b : Builder} {file : FileNode} {edited : Bool}

theorem indexOf?_singleton {id : FileId} (h : file.id = id) :
    (⟨[file]⟩ : Step).indexOf? id = some 0 := by
  simp [Step.indexOf?, List.findIdx?_cons, h]

theorem Holds.addEdit (h : b.Holds file edited) {r : Record.Expansion}
    (hid : file.id = r.fileId) :
    (b.addEdit r).Holds { file with edits := file.edits ++ [Edit.ofRecord r] } true := by
  obtain ⟨done, current, openFiles, flag⟩ := b
  obtain ⟨rfl, hdone, -⟩ := h
  unfold Builder.addEdit
  simp only [editedFile?, indexOf?_singleton hid]
  exact ⟨rfl, hdone, rfl⟩

theorem Holds.foldl_addEdit (h : b.Holds file edited) (rest : List Record.Expansion)
    (hid : ∀ r ∈ rest, file.id = r.fileId) :
    ((rest.map Record.expansion).foldl apply b).Holds
      { file with edits := file.edits ++ rest.map Edit.ofRecord } (edited || !rest.isEmpty) := by
  induction rest generalizing b file edited with
  | nil => simpa using h
  | cons r rest ih =>
    have hnext := ih (h.addEdit (hid r List.mem_cons_self)) (fun x hx =>
      hid x (List.mem_cons_of_mem _ hx))
    simpa [apply] using hnext

theorem Holds.addError (h : b.Holds file edited) {r : Record.Error} (hid : file.id = r.fileId) :
    (b.addError r).Holds
      { file with errors := file.errors ++ (RawError.ofRecord? r edited).toList } edited := by
  obtain ⟨done, current, openFiles, flag⟩ := b
  obtain ⟨rfl, hdone, rfl⟩ := h
  unfold Builder.addError
  simp only [indexOf?_singleton hid]
  cases RawError.ofRecord? r flag with
  | none => exact ⟨by simp, hdone, rfl⟩
  | some e => exact ⟨rfl, hdone, rfl⟩

theorem Holds.foldl_addError (h : b.Holds file edited) (rest : List Record.Error)
    (hid : ∀ r ∈ rest, file.id = r.fileId) :
    ((rest.map Record.error).foldl apply b).Holds
      { file with errors := file.errors ++ rest.filterMap (RawError.ofRecord? · edited) }
      edited := by
  induction rest generalizing b file with
  | nil => simpa using h
  | cons r rest ih =>
    have hnext := ih (h.addError (hid r List.mem_cons_self)) (fun x hx =>
      hid x (List.mem_cons_of_mem _ hx))
    rw [List.filterMap_cons]
    cases hr : RawError.ofRecord? r edited <;> simpa [apply, hr] using hnext

theorem Holds.closeFile (h : b.Holds file edited) {r : Record.FileEnd} (hid : file.id = r.fileId) :
    (b.closeFile r).Holds { file with length := r.length } edited := by
  obtain ⟨done, current, openFiles, flag⟩ := b
  obtain ⟨rfl, hdone, rfl⟩ := h
  unfold Builder.closeFile
  simp only [indexOf?_singleton hid]
  exact ⟨rfl, hdone, rfl⟩

theorem Holds.steps_finish (h : b.Holds file edited) : b.finish.steps = [⟨[file]⟩] := by
  simp [finish, h.current, h.done]

end Builder

/-! ## The forest of one member -/

/-- The file of a member that is a root, with its edits and its errors. The errors come
after the edits, if there are any. -/
def memberFile (opened : Record.FileStart) (count : Nat) (edits : List Record.Expansion)
    (errors : List Record.Error) : FileNode where
  id := FileId.root
  parent := none
  startsAt := some (-1)
  length := some (count : Int)
  path := UnitName.path opened.name
  errors := errors.filterMap (RawError.ofRecord? · !edits.isEmpty)
  edits := edits.map Edit.ofRecord

/-- The forest of such a listing has the member as its only file. -/
theorem Forest.steps_of_member {opened : Record.FileStart} {count : Nat}
    {edits : List Record.Expansion} {errors : List Record.Error}
    (hid : opened.fileId = FileId.root) (hline : opened.line = some 0)
    (hedits : ∀ r ∈ edits, r.fileId = FileId.root)
    (herrors : ∀ r ∈ errors, r.fileId = FileId.root) :
    (ofRecords (.processor :: .fileStart opened :: (edits.map .expansion ++
      (errors.map .error ++ [.fileEnd ⟨FileId.root, some (count : Int)⟩])))).steps =
        [⟨[memberFile opened count edits errors]⟩] := by
  have hopened : (Builder.start.openStep.openFile opened).Holds
      ⟨FileId.root, none, some (-1), none, UnitName.path opened.name, [], []⟩ false := by
    refine ⟨?_, rfl, rfl⟩
    simp [Builder.openFile, Builder.openStep, Builder.start, Builder.newNode, Step.empty, hid,
      Record.FileStart.startsAt, hline]
    rfl
  have hedited := hopened.foldl_addEdit edits fun r hr => (hedits r hr).symm
  have hfailed := hedited.foldl_addError errors fun r hr => (herrors r hr).symm
  have hclosed := hfailed.closeFile (r := ⟨FileId.root, some (count : Int)⟩) rfl
  have hsteps := hclosed.steps_finish
  rw [ofRecords]
  simp only [List.foldl_cons, List.foldl_append, List.foldl_nil]
  simpa [Builder.apply, memberFile] using hsteps

end EventListing
