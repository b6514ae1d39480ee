-- Other views of the files of a forest. Which files there are and which of them are
-- open does not depend on what a file holds besides its number. So a view that keeps
-- the numbers goes along with every record, when it goes along with what the record
-- does to a single file.
import EventListing.Forest.Builder

namespace EventListing

variable {view : FileNode → FileNode}

/-! ## Views -/

/-- The step in which each file is seen through the view. -/
def Step.mapFiles (view : FileNode → FileNode) (step : Step) : Step := ⟨step.files.map view⟩

/-- The forest in which each file is seen through the view. -/
def Forest.mapFiles (view : FileNode → FileNode) (forest : Forest) : Forest :=
  { forest with steps := forest.steps.map (Step.mapFiles view) }

/-- The builder in which each file is seen through the view. -/
def Builder.mapFiles (view : FileNode → FileNode) (b : Builder) : Builder :=
  { b with
    done.steps := b.done.steps.map (Step.mapFiles view)
    current := b.current.map (Step.mapFiles view) }

/-! ## One step -/

namespace Step

/-- A change of a file shows in the view as a change of what is seen of it. -/
theorem mapFiles_modify {change seen : FileNode → FileNode}
    (h : ∀ file, view (change file) = seen (view file)) (step : Step) (index : Nat) :
    (step.modify index change).mapFiles view = (step.mapFiles view).modify index seen := by
  obtain ⟨files⟩ := step
  unfold modify mapFiles
  congr 1
  induction files generalizing index with
  | nil => simp
  | cons file files ih => cases index <;> simp [h, ih]

theorem indexOf?_mapFiles (hid : ∀ file, (view file).id = file.id) (step : Step) (id : FileId) :
    (step.mapFiles view).indexOf? id = step.indexOf? id := by
  unfold indexOf? mapFiles
  rw [List.findIdx?_map]
  congr 1
  funext file
  simp only [Function.comp, hid]

end Step

/-! ## One record -/

namespace Builder

theorem mapFiles_openStep (b : Builder) :
    b.openStep.mapFiles view = (b.mapFiles view).openStep := by
  obtain ⟨done, current, openFiles, edited⟩ := b
  cases current <;> simp [openStep, finish, mapFiles, Step.mapFiles, Step.empty]

/-- The new file is seen as the file that `r'` opens. -/
theorem mapFiles_openFile {r r' : Record.FileStart} {b : Builder}
    (hnew : view (b.newNode r) = (b.mapFiles view).newNode r') (hfile : r'.fileId = r.fileId)
    (hname : r'.name = r.name) :
    (b.openFile r).mapFiles view = (b.mapFiles view).openFile r' := by
  obtain ⟨done, current, openFiles, edited⟩ := b
  cases current with
  | none => simp [openFile, mapFiles, newNode, hfile, hname]
  | some step =>
    have hpath : ∀ b' : Builder, (b'.newNode r').path = UnitName.path r.name := fun b' =>
      congrArg UnitName.path hname
    simp only [openFile, mapFiles, Step.mapFiles, Option.map_some, List.map_append, List.map_cons,
      List.map_nil, hnew, hfile, hpath]
    rfl

section Numbers

variable (hid : ∀ file, (view file).id = file.id) (b : Builder)

include hid

/-- The length of the file is seen as the length that `r'` tells. -/
theorem mapFiles_closeFile {r r' : Record.FileEnd} (hfile : r'.fileId = r.fileId)
    (hlength : ∀ file : FileNode,
      view { file with length := r.length } = { view file with length := r'.length }) :
    (b.closeFile r).mapFiles view = (b.mapFiles view).closeFile r' := by
  obtain ⟨done, current, openFiles, edited⟩ := b
  cases current with
  | none => rfl
  | some step =>
    simp only [closeFile, mapFiles, Option.map_some, Step.indexOf?_mapFiles hid, hfile]
    cases step.indexOf? r.fileId with
    | none => rfl
    | some i =>
      simp only
      rw [Step.mapFiles_modify]
      exact hlength

theorem editedFile?_mapFiles (step : Step) (openFiles : List FileId) (id : FileId) :
    editedFile? (step.mapFiles view) openFiles id = editedFile? step openFiles id := by
  have hlength : (step.mapFiles view).files.length = step.files.length := List.length_map _
  unfold editedFile?
  rw [Step.indexOf?_mapFiles hid, hlength]

theorem mapFiles_addEdit (r : Record.Expansion)
    (hedit : ∀ (file : FileNode) (edit : Edit),
      view { file with edits := file.edits ++ [edit] } =
        { view file with edits := (view file).edits ++ [edit] }) :
    (b.addEdit r).mapFiles view = (b.mapFiles view).addEdit r := by
  obtain ⟨done, current, openFiles, edited⟩ := b
  cases current with
  | none => rfl
  | some step =>
    simp only [addEdit, mapFiles, Option.map_some, editedFile?_mapFiles hid]
    cases editedFile? step openFiles r.fileId with
    | none => rfl
    | some i =>
      simp only [Option.map_some]
      rw [Step.mapFiles_modify]
      exact fun file => hedit file _

theorem mapFiles_addError (r : Record.Error)
    (herror : ∀ (file : FileNode) (e : RawError),
      view { file with errors := file.errors ++ [e] } =
        { view file with errors := (view file).errors ++ [e] }) :
    (b.addError r).mapFiles view = (b.mapFiles view).addError r := by
  obtain ⟨done, current, openFiles, edited⟩ := b
  cases current with
  | none => rfl
  | some step =>
    simp only [addError, mapFiles, Option.map_some, Step.indexOf?_mapFiles hid]
    cases step.indexOf? r.fileId with
    | none => rfl
    | some i =>
      cases RawError.ofRecord? r edited with
      | none => rfl
      | some e =>
        simp only [Option.map_some]
        rw [Step.mapFiles_modify]
        exact fun file => herror file e

end Numbers

theorem mapFiles_finish (b : Builder) : b.finish.mapFiles view = (b.mapFiles view).finish := by
  obtain ⟨done, current, openFiles, edited⟩ := b
  cases current <;> simp [finish, mapFiles, Forest.mapFiles]

end Builder

end EventListing
