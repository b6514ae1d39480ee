-- Where the errors and the paths of a forest come from. Every error of a file
-- was reported for its number, a file keeps all that were reported for it in
-- their order, and the first file start with a number gives its path.
import EventListing.Proofs.Forest.Files
import EventListing.Proofs.Record.Opened
import EventListing.UnitName.Long

namespace EventListing

/-! ## A changed file in its step -/

namespace Step

/-- A change of one file shows in the first file with its number, if it is
that one. -/
theorem find?_modify {change : FileNode → FileNode} (hid : ∀ file, (change file).id = file.id)
    (step : Step) (index : Nat) (id : FileId) :
    (step.modify index change).find? id =
      if step.indexOf? id = some index then (step.find? id).map change else step.find? id := by
  obtain ⟨files⟩ := step
  unfold modify find? indexOf?
  induction files generalizing index with
  | nil => simp
  | cons file files ih =>
    cases index with
    | zero =>
      by_cases h : file.id = id
      · simp [List.findIdx?_cons, hid, h]
      · cases hi : files.findIdx? (·.id = id) <;> simp [List.findIdx?_cons, hid, h, hi]
    | succ index =>
      by_cases h : file.id = id
      · simp [List.findIdx?_cons, h]
      · simp [List.findIdx?_cons, h, ih]

theorem isSome_indexOf? {step : Step} {id : FileId} :
    (step.indexOf? id).isSome ↔ id ∈ step.files.map (·.id) := by
  unfold indexOf?
  rw [List.findIdx?_isSome, List.any_eq_true, List.mem_map]
  simp

theorem isSome_find? {step : Step} {id : FileId} :
    (step.find? id).isSome ↔ id ∈ step.files.map (·.id) := by
  unfold find?
  rw [List.find?_isSome, List.mem_map]
  simp

end Step

/-! ## The errors of the open step -/

namespace Builder

/-- The errors of the first file with this number in the open step. -/
def errorsOf (b : Builder) (id : FileId) : List RawError :=
  ((b.current.bind (·.find? id)).map (·.errors)).getD []

/-- The numbers of the files of the open step. -/
def ids (b : Builder) : List FileId := (b.current.map (·.files.map (·.id))).getD []

theorem errorsOf_openFile (b : Builder) (r : Record.FileStart) (id : FileId) :
    (b.openFile r).errorsOf id = b.errorsOf id := by
  obtain ⟨done, current, openFiles, edited⟩ := b
  cases current with
  | none => rfl
  | some step =>
    simp only [errorsOf, openFile, Option.bind_some, Step.find?, List.find?_append]
    cases step.files.find? (·.id = id) with
    | some file => rfl
    | none => by_cases h : r.fileId = id <;> simp [newNode, h]

theorem errorsOf_modify {step : Step} {change : FileNode → FileNode}
    (hid : ∀ file, (change file).id = file.id)
    (herrors : ∀ file, (change file).errors = file.errors) (index : Nat) (id : FileId) :
    (((step.modify index change).find? id).map (·.errors)).getD [] =
      ((step.find? id).map (·.errors)).getD [] := by
  rw [Step.find?_modify hid]
  split
  · cases step.find? id <;> simp [herrors]
  · rfl

theorem errorsOf_closeFile (b : Builder) (r : Record.FileEnd) (id : FileId) :
    (b.closeFile r).errorsOf id = b.errorsOf id := by
  obtain ⟨done, current, openFiles, edited⟩ := b
  cases current with
  | none => rfl
  | some step =>
    simp only [errorsOf, closeFile, Option.bind_some]
    split
    · rfl
    · refine errorsOf_modify ?_ ?_ _ id
      · exact fun file => rfl
      · exact fun file => rfl

/-- An error goes to the file with its number, behind the ones that are
there. Without such a file it is left out. -/
theorem errorsOf_addError (b : Builder) (r : Record.Error) (id : FileId) :
    (b.addError r).errorsOf id =
      b.errorsOf id ++
        if r.fileId = id ∧ r.fileId ∈ b.ids then (RawError.ofRecord? r b.edited).toList
        else [] := by
  obtain ⟨done, current, openFiles, edited⟩ := b
  cases current with
  | none => simp [errorsOf, addError, ids]
  | some step =>
    have hids : r.fileId ∈ step.files.map (·.id) ↔ (step.indexOf? r.fileId).isSome :=
      Step.isSome_indexOf?.symm
    simp only [errorsOf, addError, ids, Option.map_some, Option.getD_some, hids, Option.bind_some]
    cases hi : step.indexOf? r.fileId with
    | none => simp
    | some index =>
      cases he : RawError.ofRecord? r edited with
      | none => simp
      | some e =>
        simp only [Option.bind_some]
        rw [Step.find?_modify (by exact fun file => rfl)]
        by_cases hid : r.fileId = id
        · subst hid
          have hmem : r.fileId ∈ step.files.map (·.id) := by
            rw [hids, hi]
            rfl
          obtain ⟨file, hfile⟩ := Option.isSome_iff_exists.mp (Step.isSome_find?.mpr hmem)
          simp [hi, hfile]
        · have hne : step.indexOf? id ≠ some index := by
            intro hidx
            obtain ⟨file, hfile, hfid⟩ := Step.getElem?_of_indexOf? hi
            obtain ⟨file', hfile', hfid'⟩ := Step.getElem?_of_indexOf? hidx
            rw [hfile] at hfile'
            cases hfile'
            exact hid (hfid.symm.trans hfid')
          simp [hne, hid]

/-! ### The files of the open step -/

theorem map_id_modify {change : FileNode → FileNode} (hid : ∀ file, (change file).id = file.id)
    (step : Step) (index : Nat) :
    (step.modify index change).files.map (·.id) = step.files.map (·.id) := by
  obtain ⟨files⟩ := step
  unfold Step.modify
  induction files generalizing index with
  | nil => simp
  | cons file files ih => cases index <;> simp_all

theorem ids_openFile {b : Builder} (h : b.current.isSome) (r : Record.FileStart) :
    (b.openFile r).ids = b.ids ++ [r.fileId] := by
  obtain ⟨done, current, openFiles, edited⟩ := b
  obtain ⟨step, rfl⟩ := Option.isSome_iff_exists.mp h
  simp [ids, openFile, newNode]

theorem ids_closeFile (b : Builder) (r : Record.FileEnd) : (b.closeFile r).ids = b.ids := by
  obtain ⟨done, current, openFiles, edited⟩ := b
  cases current with
  | none => rfl
  | some step =>
    simp only [ids, closeFile, Option.map_some]
    split
    · rfl
    · rw [map_id_modify]
      exact fun file => rfl

theorem ids_addError (b : Builder) (r : Record.Error) : (b.addError r).ids = b.ids := by
  obtain ⟨done, current, openFiles, edited⟩ := b
  cases current with
  | none => rfl
  | some step =>
    unfold ids addError
    simp only
    split
    · simp only [Option.map_some]
      rw [map_id_modify]
      exact fun file => rfl
    · rfl

theorem current_apply {b : Builder} (h : b.current.isSome) (record : Record) :
    (b.apply record).current.isSome := by
  obtain ⟨done, current, openFiles, edited⟩ := b
  obtain ⟨step, rfl⟩ := Option.isSome_iff_exists.mp h
  cases record with
  | expansion r =>
    simp only [apply, addEdit]
    split <;> rfl
  | error r =>
    simp only [apply, addError]
    split <;> rfl
  | processor | fileStart | namePart | fileEnd | ignored | unrecognized => rfl

theorem edited_apply {b : Builder} {record : Record} (hstep : record ≠ .processor)
    (hedit : ∀ r, record ≠ .expansion r) : (b.apply record).edited = b.edited := by
  obtain ⟨done, current, openFiles, edited⟩ := b
  cases record with
  | processor => exact absurd rfl hstep
  | expansion r => exact absurd rfl (hedit r)
  | error r =>
    cases current with
    | none => rfl
    | some step =>
      simp only [apply, addError]
      split <;> rfl
  | fileStart r | fileEnd r => cases current <;> rfl
  | namePart | ignored | unrecognized => rfl

/-- Within one compile step, and as long as no edit comes, a file keeps all
errors that were reported for its number after it was opened. -/
theorem errorsOf_foldl {rest : List Record} (hstep : .processor ∉ rest)
    (hedit : ∀ r, .expansion r ∉ rest) (b : Builder) (hcurrent : b.current.isSome) (id : FileId) :
    (rest.foldl apply b).errorsOf id =
      b.errorsOf id ++ ((Record.reported b.ids rest).filter (·.fileId = id)).filterMap
        (RawError.ofRecord? · b.edited) := by
  induction rest generalizing b with
  | nil => simp [Record.reported]
  | cons record rest ih =>
    simp only [List.mem_cons, not_or] at hstep hedit
    have hnext := ih hstep.2 (fun r => (hedit r).2) (b.apply record) (current_apply hcurrent record)
    rw [edited_apply (fun h => hstep.1 h.symm) (fun r h => (hedit r).1 h.symm)] at hnext
    rw [List.foldl_cons, hnext]
    cases record with
    | fileStart r =>
      have hids : ∀ id, id ∈ (b.openFile r).ids ↔ id ∈ r.fileId :: b.ids := by
        intro id
        rw [ids_openFile hcurrent, List.mem_append, List.mem_singleton, List.mem_cons, or_comm]
      simp only [apply, errorsOf_openFile, Record.reported_congr hids]
      rfl
    | fileEnd r =>
      simp only [apply, errorsOf_closeFile, ids_closeFile]
      rfl
    | error r =>
      simp only [apply, errorsOf_addError, ids_addError, Record.reported, List.append_assoc]
      congr 1
      by_cases hmem : r.fileId ∈ b.ids
      · by_cases hid : r.fileId = id
        · subst hid
          simp only [hmem, and_self, if_true, List.filter_cons, decide_true, List.filterMap_cons]
          cases RawError.ofRecord? r b.edited <;> rfl
        · simp [hmem, hid]
      · simp [hmem]
    | processor => exact absurd rfl hstep.1
    | expansion r => exact absurd rfl (hedit r).1
    | namePart | ignored | unrecognized => rfl

end Builder

/-! ## Every error was reported -/

/-- Every error of the file is one that the records report for its number. -/
def FileNode.Reported (records : List Record) (file : FileNode) : Prop :=
  ∀ e ∈ file.errors, ∃ r, .error r ∈ records ∧ r.fileId = file.id ∧
    RawError.ofRecord? r e.afterEdit = some e

/-- Every error of the step is one that the records report for the number of
its file. -/
def Step.Reported (records : List Record) (step : Step) : Prop :=
  ∀ file ∈ step.files, file.Reported records

/-! ## The paths -/

namespace Builder

theorem paths_apply (b : Builder) (record : Record) (id : FileId) :
    (b.apply record).done.paths.get? id =
      (b.done.paths.get? id).or
        ((UnitName.firstStart? [record] id).map (UnitName.path ·.name)) := by
  obtain ⟨done, current, openFiles, edited⟩ := b
  cases record with
  | fileStart r =>
    have hnew : (Builder.apply ⟨done, current, openFiles, edited⟩ (.fileStart r)).done.paths =
        done.paths.insertNew r.fileId (UnitName.path r.name) := by cases current <;> rfl
    rw [hnew, OrderedMap.insertNew, OrderedMap.get?_alter]
    by_cases h : id = r.fileId
    · subst h
      cases done.paths.get? r.fileId <;> simp [UnitName.firstStart?]
    · have h' : ¬ r.fileId = id := fun e => h e.symm
      simp [UnitName.firstStart?, h, h']
  | fileEnd r => cases current <;> simp [apply, closeFile, UnitName.firstStart?]
  | expansion r =>
    simp only [apply, addEdit]
    repeat' split
    all_goals simp [UnitName.firstStart?]
  | error r =>
    simp only [apply, addError]
    repeat' split
    all_goals simp [UnitName.firstStart?]
  | processor => simp [apply, openStep, finish, UnitName.firstStart?]
  | namePart | ignored | unrecognized => simp [apply, UnitName.firstStart?]

/-- The path of a number is that of its first file start. -/
theorem paths_foldl (rest : List Record) (b : Builder) (id : FileId) :
    (rest.foldl apply b).done.paths.get? id =
      (b.done.paths.get? id).or
        ((UnitName.firstStart? rest id).map (UnitName.path ·.name)) := by
  induction rest generalizing b with
  | nil => simp [UnitName.firstStart?]
  | cons record rest ih =>
    rw [List.foldl_cons, ih, paths_apply, Option.or_assoc, ← Option.map_or,
      ← UnitName.firstStart?_cons]

end Builder

/-! ## The forest -/

namespace Forest

/-- Every error of a forest was reported for the number of its file. -/
theorem reported_ofRecords (records : List Record) :
    ∀ step ∈ (ofRecords records).steps, step.Reported records := by
  refine forall_mem_files ?_ ?_
  · intro b r _ e he
    cases he
  · intro b record old new hrecord hchange hold
    cases hchange with
    | length | edit => exact hold
    | @error r new _ named reads =>
      intro e he
      rcases List.mem_append.mp he with he | hnew
      · exact hold e he
      · obtain rfl : e = new := List.mem_singleton.mp hnew
        refine ⟨r, hrecord, named.symm, ?_⟩
        obtain ⟨line, hline, rfl⟩ := Option.map_eq_some_iff.mp reads
        exact Option.map_eq_some_iff.mpr ⟨line, hline, rfl⟩

/-- Every file of a forest stands under the path of the name with which a file
start opened it. -/
theorem opened_ofRecords (records : List Record) :
    ∀ step ∈ (ofRecords records).steps, ∀ file ∈ step.files, ∃ r, .fileStart r ∈ records ∧
      r.fileId = file.id ∧ UnitName.path r.name = file.path := by
  refine forall_mem_files ?_ ?_
  · intro b r hr
    exact ⟨r, hr, rfl, rfl⟩
  · intro b record old new _ hchange hold
    cases hchange <;> exact hold

/-- Every length of a file in a forest was read from a file end. -/
theorem ended_ofRecords (records : List Record) :
    ∀ step ∈ (ofRecords records).steps, ∀ file ∈ step.files, ∀ n, file.length = some n →
      ∃ r, .fileEnd r ∈ records ∧ r.length = some n := by
  refine forall_mem_files ?_ ?_
  · intro b r _ n hn
    cases hn
  · intro b record old new hrecord hchange hold
    cases hchange with
    | length r => exact fun n hn => ⟨r, hrecord, hn⟩
    | edit | error => exact hold

theorem paths_ofRecords (records : List Record) (id : FileId) :
    (ofRecords records).paths.get? id =
      (UnitName.firstStart? records id).map (UnitName.path ·.name) := by
  have h := Builder.paths_foldl records Builder.start id
  simpa [ofRecords, Builder.finish, Builder.start, empty] using h

end Forest

end EventListing
