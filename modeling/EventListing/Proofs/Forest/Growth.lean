-- A forest only grows while its listing goes on. A record adds to the compile
-- step that is open, at the end of what is there, and never comes back to a
-- step that is complete. Nothing but the length of a file is ever replaced.
import EventListing.Proofs.Forest.Reports

namespace EventListing

/-! ## What stays -/

/-- The file is what it was when it was opened, and has its errors and edits
before any others. Only its length may be another one. -/
structure FileNode.KeptIn (old new : FileNode) : Prop where
  id : new.id = old.id
  parent : new.parent = old.parent
  startsAt : new.startsAt = old.startsAt
  path : new.path = old.path
  errors : old.errors <+: new.errors
  edits : old.edits <+: new.edits

/-- The files of the step are the first files of the new one. -/
def Step.KeptIn (old new : Step) : Prop :=
  ∀ (i : Nat) (file : FileNode), old.files[i]? = some file →
    ∃ kept, new.files[i]? = some kept ∧ file.KeptIn kept

/-- The steps of the forest are the first steps of the new one. All of them but
the last one are complete. -/
structure Forest.KeptIn (old new : Forest) : Prop where
  complete : ∀ i : Nat, i + 1 < old.steps.length → new.steps[i]? = old.steps[i]?
  steps : ∀ (i : Nat) (step : Step), old.steps[i]? = some step →
    ∃ kept, new.steps[i]? = some kept ∧ step.KeptIn kept
  paths : ∀ id path, old.paths.get? id = some path → new.paths.get? id = some path

theorem FileNode.KeptIn.refl (file : FileNode) : file.KeptIn file :=
  ⟨rfl, rfl, rfl, rfl, List.prefix_rfl, List.prefix_rfl⟩

theorem FileNode.KeptIn.trans {old mid new : FileNode} (h : old.KeptIn mid)
    (h' : mid.KeptIn new) : old.KeptIn new where
  id := h'.id.trans h.id
  parent := h'.parent.trans h.parent
  startsAt := h'.startsAt.trans h.startsAt
  path := h'.path.trans h.path
  errors := h.errors.trans h'.errors
  edits := h.edits.trans h'.edits

namespace Step

theorem KeptIn.refl (step : Step) : step.KeptIn step :=
  fun _ file hfile => ⟨file, hfile, FileNode.KeptIn.refl file⟩

theorem KeptIn.trans {old mid new : Step} (h : old.KeptIn mid) (h' : mid.KeptIn new) :
    old.KeptIn new := by
  intro i file hfile
  obtain ⟨kept, hkept, hold⟩ := h i file hfile
  obtain ⟨last, hlast, hnew⟩ := h' i kept hkept
  exact ⟨last, hlast, hold.trans hnew⟩

/-- A new file comes behind the ones that are there. -/
theorem keptIn_concat (step : Step) (file : FileNode) : step.KeptIn ⟨step.files ++ [file]⟩ := by
  intro i old hold
  have hlt : i < step.files.length := (List.getElem?_eq_some_iff.mp hold).1
  exact ⟨old, (List.getElem?_append_left hlt).trans hold, FileNode.KeptIn.refl old⟩

/-- A change of one file keeps the step if it keeps the file. -/
theorem keptIn_modify {change : FileNode → FileNode}
    (h : ∀ file : FileNode, file.KeptIn (change file)) (step : Step) (index : Nat) :
    step.KeptIn (step.modify index change) := by
  intro i file hfile
  unfold modify
  rw [List.getElem?_modify, hfile]
  by_cases hi : index = i
  · exact ⟨change file, by simp [hi], h file⟩
  · exact ⟨file, by simp [hi], FileNode.KeptIn.refl file⟩

end Step

namespace Forest

theorem KeptIn.refl (forest : Forest) : forest.KeptIn forest :=
  ⟨fun _ _ => rfl, fun _ step hstep => ⟨step, hstep, Step.KeptIn.refl step⟩, fun _ _ h => h⟩

theorem KeptIn.length_le {old new : Forest} (h : old.KeptIn new) :
    old.steps.length ≤ new.steps.length := by
  by_contra hlt
  obtain ⟨kept, hkept, -⟩ := h.steps new.steps.length _ (List.getElem?_eq_getElem (by omega))
  rw [List.getElem?_eq_none (Nat.le_refl _)] at hkept
  cases hkept

theorem KeptIn.trans {old mid new : Forest} (h : old.KeptIn mid) (h' : mid.KeptIn new) :
    old.KeptIn new := by
  refine ⟨?_, ?_, fun id path hpath => h'.paths id path (h.paths id path hpath)⟩
  · intro i hi
    have hle := h.length_le
    rw [h'.complete i (by omega), h.complete i hi]
  · intro i step hstep
    obtain ⟨kept, hkept, hold⟩ := h.steps i step hstep
    obtain ⟨last, hlast, hnew⟩ := h'.steps i kept hkept
    exact ⟨last, hlast, hold.trans hnew⟩

/-- A forest is kept when its last step is. -/
theorem keptIn_of_last {old new : Forest} {complete : List Step} {step last : Step}
    (hold : old.steps = complete ++ [step]) (hnew : new.steps = complete ++ [last])
    (hkept : step.KeptIn last)
    (hpaths : ∀ id path, old.paths.get? id = some path → new.paths.get? id = some path) :
    old.KeptIn new := by
  have hsame : ∀ i, i < complete.length → new.steps[i]? = old.steps[i]? := by
    intro i hi
    rw [hold, hnew, List.getElem?_append_left hi, List.getElem?_append_left hi]
  have hlength : old.steps.length = complete.length + 1 := by simp [hold]
  refine ⟨fun i hi => hsame i (by omega), ?_, hpaths⟩
  intro i found hfound
  have hlt := (List.getElem?_eq_some_iff.mp hfound).1
  by_cases hi : i < complete.length
  · exact ⟨found, (hsame i hi).trans hfound, Step.KeptIn.refl found⟩
  · obtain rfl : i = complete.length := by omega
    rw [hold, List.getElem?_concat_length] at hfound
    cases hfound
    exact ⟨last, by rw [hnew, List.getElem?_concat_length], hkept⟩

end Forest

/-! ## One record -/

namespace Builder

theorem paths_keptIn (b : Builder) (record : Record) {id : FileId} {path : String}
    (h : b.done.paths.get? id = some path) :
    (b.apply record).done.paths.get? id = some path := by
  rw [paths_apply, h, Option.some_or]

/-- Inside a compile step, a record leaves the complete steps alone and adds to
the open one. -/
theorem keptIn_apply_of_current {b : Builder} {step : Step} {record : Record}
    (hcurrent : b.current = some step) (hrecord : record ≠ .processor) :
    (b.apply record).done.steps = b.done.steps ∧
      ∃ new, (b.apply record).current = some new ∧ step.KeptIn new := by
  refine ⟨(grown_apply hcurrent hrecord).1, ?_⟩
  obtain ⟨done, current, openFiles, edited⟩ := b
  subst hcurrent
  cases record with
  | processor => exact absurd rfl hrecord
  | fileStart r => exact ⟨_, rfl, step.keptIn_concat _⟩
  | fileEnd r =>
    refine ⟨_, rfl, ?_⟩
    split
    · exact Step.KeptIn.refl step
    · refine Step.keptIn_modify ?_ step _
      exact fun file => { FileNode.KeptIn.refl file with }
  | expansion r =>
    simp only [apply, addEdit]
    split
    · exact ⟨_, rfl, Step.KeptIn.refl step⟩
    · refine ⟨_, rfl, Step.keptIn_modify ?_ step _⟩
      exact fun file => { FileNode.KeptIn.refl file with edits := List.prefix_append _ _ }
  | error r =>
    simp only [apply, addError]
    split
    · refine ⟨_, rfl, Step.keptIn_modify ?_ step _⟩
      exact fun file => { FileNode.KeptIn.refl file with errors := List.prefix_append _ _ }
    · exact ⟨_, rfl, Step.KeptIn.refl step⟩
  | namePart | ignored | unrecognized => exact ⟨_, rfl, Step.KeptIn.refl step⟩

/-- One more record keeps the forest. -/
theorem keptIn_apply (b : Builder) (record : Record) :
    b.finish.KeptIn (b.apply record).finish := by
  have hpaths : ∀ id path, b.finish.paths.get? id = some path →
      (b.apply record).finish.paths.get? id = some path := fun _ _ => b.paths_keptIn record
  by_cases hrecord : record = .processor
  · -- the new step comes behind all others
    subst hrecord
    have hsteps : ∀ i, i < b.finish.steps.length →
        (b.apply .processor).finish.steps[i]? = b.finish.steps[i]? := by
      intro i hi
      rw [steps_apply_processor, List.getElem?_append_left hi]
    refine ⟨fun i hi => hsteps i (by omega), ?_, hpaths⟩
    intro i step hstep
    have hlt : i < b.finish.steps.length := (List.getElem?_eq_some_iff.mp hstep).1
    exact ⟨step, (hsteps i hlt).trans hstep, Step.KeptIn.refl step⟩
  · cases hcurrent : b.current with
    | none =>
      have hsteps := steps_apply_of_none hcurrent hrecord
      refine ⟨fun i _ => by rw [hsteps], ?_, hpaths⟩
      intro i step hstep
      exact ⟨step, hsteps ▸ hstep, Step.KeptIn.refl step⟩
    | some step =>
      obtain ⟨hdone, new, hnew, hkept⟩ := keptIn_apply_of_current hcurrent hrecord
      have hsteps : (b.apply record).finish.steps = b.done.steps ++ [new] := by
        rw [steps_of_current hnew, hdone]
      exact Forest.keptIn_of_last (steps_of_current hcurrent) hsteps hkept hpaths

theorem keptIn_foldl (records : List Record) (b : Builder) :
    b.finish.KeptIn (records.foldl apply b).finish := by
  induction records generalizing b with
  | nil => exact Forest.KeptIn.refl _
  | cons record records ih => exact (b.keptIn_apply record).trans (ih _)

end Builder

/-! ## The law -/

/-- The forest of a listing is kept when lines are added: its steps but the last
one stay as they are, and that one keeps its files. Each file keeps its number,
its parent, its place and its path, and has its errors and edits before any new
ones. Every path that is known stays the same. -/
theorem forests_only_grow (before after : Listing) :
    (Forest.ofListing before).KeptIn (Forest.ofListing (before ++ after)) := by
  unfold Forest.ofListing Forest.ofRecords
  rw [Listing.records_append, List.foldl_append]
  exact Builder.keptIn_foldl after.records _

end EventListing
