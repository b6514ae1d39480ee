-- The forest without its errors. Errors hang on files that are there and
-- change nothing else, so the other records alone decide which files there
-- are, how they lie and which edits they have.
import EventListing.Forest.Offset
import EventListing.Proofs.Forest.View

namespace EventListing

/-! ## Taking the errors away -/

/-- The file without its errors. -/
def FileNode.bare (file : FileNode) : FileNode := { file with errors := [] }

/-- The step without the errors of its files. -/
def Step.bare (step : Step) : Step := ⟨step.files.map FileNode.bare⟩

/-- The forest without the errors of its files. -/
def Forest.bare (forest : Forest) : Forest := { forest with steps := forest.steps.map Step.bare }

/-- The builder without the errors of its files. -/
def Builder.bare (b : Builder) : Builder :=
  { b with
    done.steps := b.done.steps.map Step.bare
    current := b.current.map Step.bare }

@[simp] theorem FileNode.id_bare (file : FileNode) : file.bare.id = file.id := rfl

/-- The record may change more of the forest than the errors of a file. -/
def Record.isFrame : Record → Bool
  | .processor | .fileStart _ | .fileEnd _ | .expansion _ => true
  | .error _ | .namePart _ | .ignored _ | .unrecognized => false

namespace Step

@[simp] theorem length_bare (step : Step) : step.bare.files.length = step.files.length := by
  simp [bare]

@[simp] theorem find?_bare (step : Step) (id : FileId) :
    step.bare.find? id = (step.find? id).map FileNode.bare := by
  unfold find? bare
  rw [List.find?_map]
  rfl

/-- A change of a file shows in the bare step as a change of the bare
file. -/
theorem bare_modify {change changeBare : FileNode → FileNode}
    (h : ∀ file, (change file).bare = changeBare file.bare) (step : Step) (index : Nat) :
    (step.modify index change).bare = step.bare.modify index changeBare :=
  mapFiles_modify h step index

/-- A change of errors alone does not show in the bare step. -/
theorem bare_modify_of_errors {change : FileNode → FileNode}
    (h : ∀ file, (change file).bare = file.bare) (step : Step) (index : Nat) :
    (step.modify index change).bare = step.bare := by
  have hid : (step.modify index change).bare = step.bare.modify index id :=
    bare_modify h step index
  rw [hid]
  simp [modify]

/-! ### The place of a file -/

theorem addAncestors_bare (step : Step) (hops : Nat) (node : Option FileNode) (offset : Int) :
    step.bare.addAncestors hops (node.map FileNode.bare) offset =
      step.addAncestors hops node offset := by
  induction hops generalizing node offset with
  | zero => rfl
  | succ hops ih =>
    cases node with
    | none => rfl
    | some node =>
      have hnext : node.bare.parent.bind step.bare.find? =
          (node.parent.bind step.find?).map FileNode.bare := by
        cases hp : node.parent <;> simp [FileNode.bare, hp]
      simp only [Option.map_some, addAncestors, hnext, ih]
      rfl

/-- Where a file begins does not depend on any errors. -/
theorem absoluteStart?_bare (step : Step) (file : FileNode) :
    step.bare.absoluteStart? file.bare = step.absoluteStart? file := by
  have hparent : file.bare.parent.bind step.bare.find? =
      (file.parent.bind step.find?).map FileNode.bare := by
    cases hp : file.parent <;> simp [FileNode.bare, hp]
  unfold absoluteStart?
  simp only [hparent, addAncestors_bare, length_bare]
  rfl

end Step

/-! ## One record -/

namespace Builder

theorem bare_openStep (b : Builder) : b.openStep.bare = b.bare.openStep := mapFiles_openStep b

theorem bare_openFile (b : Builder) (r : Record.FileStart) :
    (b.openFile r).bare = b.bare.openFile r := mapFiles_openFile rfl rfl rfl

theorem bare_closeFile (b : Builder) (r : Record.FileEnd) :
    (b.closeFile r).bare = b.bare.closeFile r :=
  mapFiles_closeFile FileNode.id_bare b rfl fun _ => rfl

theorem bare_addEdit (b : Builder) (r : Record.Expansion) :
    (b.addEdit r).bare = b.bare.addEdit r :=
  mapFiles_addEdit FileNode.id_bare b r fun _ _ => rfl

theorem bare_addError (b : Builder) (r : Record.Error) : (b.addError r).bare = b.bare := by
  obtain ⟨done, current, openFiles, edited⟩ := b
  cases current with
  | none => rfl
  | some step =>
    simp only [addError]
    split
    · simp only [bare, Option.map_some]
      rw [Step.bare_modify_of_errors]
      exact fun file => rfl
    · rfl

theorem bare_apply_of_isFrame {r : Record} (h : r.isFrame) (b : Builder) :
    (b.apply r).bare = b.bare.apply r := by
  cases r with
  | processor => exact bare_openStep b
  | fileStart r => exact bare_openFile b r
  | fileEnd r => exact bare_closeFile b r
  | expansion r => exact bare_addEdit b r
  | namePart | error | ignored | unrecognized => cases h

theorem bare_apply_of_not_isFrame {r : Record} (h : r.isFrame = false) (b : Builder) :
    (b.apply r).bare = b.bare := by
  cases r with
  | error r => exact bare_addError b r
  | namePart | ignored | unrecognized => rfl
  | processor | fileStart | fileEnd | expansion => cases h

/-! ## All records -/

/-- The bare forest of a listing is that of its frame records alone. -/
theorem bare_foldl (records : List Record) (b : Builder) :
    (records.foldl apply b).bare = (records.filter Record.isFrame).foldl apply b.bare := by
  induction records generalizing b with
  | nil => rfl
  | cons r rest ih =>
    rw [List.foldl_cons, ih]
    by_cases h : r.isFrame
    · rw [List.filter_cons_of_pos h, List.foldl_cons, bare_apply_of_isFrame h]
    · rw [List.filter_cons_of_neg h, bare_apply_of_not_isFrame (by simpa using h)]

end Builder

/-- The bare forest of a listing is the forest of its frame records. -/
theorem Forest.bare_ofRecords (records : List Record) :
    (ofRecords records).bare = ofRecords (records.filter Record.isFrame) := by
  have hfinish : ∀ b : Builder, b.finish.bare = b.bare.finish := fun b => b.mapFiles_finish
  unfold ofRecords
  rw [hfinish, Builder.bare_foldl]
  rfl

end EventListing
